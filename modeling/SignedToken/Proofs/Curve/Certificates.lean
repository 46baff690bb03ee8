import SignedToken.Profile
import SignedToken.Proofs.Curve.Primality

/-!
This module contains that the fields of the profiles are fields, and that the orders of their curves
are prime: certificates of both, with those of the smaller primes that they are built on.
-/

namespace SignedToken.Profile

def certificates : Profile → List Certificate
  | es256 =>
    [⟨3, 2, [(2, 1)]⟩, ⟨5, 2, [(2, 2)]⟩, ⟨7, 2, [(3, 1)]⟩, ⟨13, 2, [(2, 2)]⟩, ⟨17, 3, [(2, 4)]⟩,
      ⟨43, 2, [(7, 1)]⟩, ⟨151, 3, [(5, 2)]⟩, ⟨181, 2, [(3, 2), (5, 1)]⟩, ⟨197, 2, [(7, 2)]⟩,
      ⟨313, 7, [(2, 3), (13, 1)]⟩, ⟨337, 5, [(2, 4), (7, 1)]⟩, ⟨919, 5, [(3, 3), (17, 1)]⟩,
      ⟨1087, 2, [(181, 1)]⟩, ⟨1511, 2, [(151, 1)]⟩, ⟨3023, 2, [(1511, 1)]⟩, ⟨3677, 2, [(919, 1)]⟩,
      ⟨4349, 2, [(1087, 1)]⟩, ⟨78283, 2, [(4349, 1)]⟩, ⟨104471, 2, [(337, 1)]⟩,
      ⟨155317, 2, [(43, 2)]⟩, ⟨704251, 2, [(5, 3), (313, 1)]⟩, ⟨3969899, 2, [(104471, 1)]⟩,
      ⟨191039911, 2, [(155317, 1)]⟩, ⟨66417393611, 2, [(197, 1), (3677, 1)]⟩,
      ⟨1002328039319, 2, [(3969899, 1)]⟩, ⟨11290956913871, 2, [(66417393611, 1)]⟩,
      ⟨46076956964474543, 2, [(78283, 1), (704251, 1)]⟩,
      ⟨208150935158385979, 2, [(3023, 1), (191039911, 1)]⟩,
      ⟨2624747550333869278416773953, 2, [(208150935158385979, 1)]⟩,
      ⟨774023187263532362759620327192479577272145303, 2,
        [(11290956913871, 1), (46076956964474543, 1)]⟩,
      ⟨835945042244614951780389953367877943453916927241, 2,
        [(774023187263532362759620327192479577272145303, 1)]⟩,
      ⟨Curve.secp256r1.params.n, 2, [(1002328039319, 1), (2624747550333869278416773953, 1)]⟩,
      ⟨Curve.secp256r1.params.p, 2, [(835945042244614951780389953367877943453916927241, 1)]⟩]
  | es384 =>
    [⟨3, 2, [(2, 1)]⟩, ⟨5, 2, [(2, 2)]⟩, ⟨7, 2, [(3, 1)]⟩, ⟨11, 2, [(5, 1)]⟩, ⟨13, 2, [(2, 2)]⟩,
      ⟨23, 2, [(11, 1)]⟩, ⟨29, 2, [(7, 1)]⟩, ⟨31, 3, [(3, 1), (5, 1)]⟩, ⟨139, 2, [(23, 1)]⟩,
      ⟨211, 2, [(5, 1), (7, 1)]⟩, ⟨233, 2, [(29, 1)]⟩, ⟨311, 2, [(31, 1)]⟩,
      ⟨421, 2, [(5, 1), (7, 1)]⟩, ⟨881, 3, [(2, 4), (11, 1)]⟩, ⟨937, 2, [(3, 2), (13, 1)]⟩,
      ⟨21407, 2, [(11, 1), (139, 1)]⟩, ⟨363557, 2, [(937, 1)]⟩, ⟨9863677, 2, [(311, 1), (881, 1)]⟩,
      ⟨105957871, 2, [(211, 1), (881, 1)]⟩, ⟨246608641, 2, [(21407, 1)]⟩,
      ⟨272109983, 2, [(233, 1), (421, 1)]⟩, ⟨532247449, 2, [(363557, 1)]⟩,
      ⟨228572385721, 2, [(272109983, 1)]⟩, ⟨23314383343543, 2, [(228572385721, 1)]⟩,
      ⟨37344768852931, 2, [(9863677, 1)]⟩, ⟨44925942675193, 2, [(532247449, 1)]⟩,
      ⟨55942463741690639, 2, [(37344768852931, 1)]⟩,
      ⟨426632512014427833817, 2, [(23314383343543, 1)]⟩,
      ⟨529709925838459440593, 2, [(105957871, 1), (246608641, 1)]⟩,
      ⟨35581458644053887931343, 2, [(44925942675193, 1)]⟩,
      ⟨1495199339761412565498084319, 2, [(426632512014427833817, 1)]⟩,
      ⟨17942392077136950785977011829, 2, [(1495199339761412565498084319, 1)]⟩,
      ⟨23964610537191310276190549303, 2, [(35581458644053887931343, 1)]⟩,
      ⟨862725979338887169942859774909, 2, [(23964610537191310276190549303, 1)]⟩,
      ⟨20705423504133292078628634597817, 2, [(862725979338887169942859774909, 1)]⟩,
      ⟨413244619895455989650825325680172591660047, 2, [(20705423504133292078628634597817, 1)]⟩,
      ⟨12397338596863679689524759770405177749801411, 2,
        [(413244619895455989650825325680172591660047, 1)]⟩,
      ⟨1059392654943455286185473617842338478315215895509773412096307, 2,
        [(55942463741690639, 1), (17942392077136950785977011829, 1)]⟩,
      ⟨3055465788140352002733946906144561090641249606160407884365391979704929268480326390471, 2,
        [(1059392654943455286185473617842338478315215895509773412096307, 1)]⟩,
      ⟨19173790298027098165721053155794528970226934547887232785722672956982046098136719667167519737147526097, 2,
        [(529709925838459440593, 1), (12397338596863679689524759770405177749801411, 1)]⟩,
      ⟨Curve.secp384r1.params.n, 2,
        [(3055465788140352002733946906144561090641249606160407884365391979704929268480326390471, 1)]⟩,
      ⟨Curve.secp384r1.params.p, 2,
        [(19173790298027098165721053155794528970226934547887232785722672956982046098136719667167519737147526097, 1)]⟩]
  | es512 =>
    [⟨3, 2, [(2, 1)]⟩, ⟨5, 2, [(2, 2)]⟩, ⟨7, 2, [(3, 1)]⟩, ⟨11, 2, [(5, 1)]⟩, ⟨17, 3, [(2, 4)]⟩,
      ⟨23, 2, [(11, 1)]⟩, ⟨29, 2, [(7, 1)]⟩, ⟨37, 2, [(3, 2)]⟩, ⟨41, 3, [(2, 3)]⟩,
      ⟨43, 2, [(7, 1)]⟩, ⟨71, 2, [(5, 1), (7, 1)]⟩, ⟨89, 2, [(11, 1)]⟩, ⟨103, 2, [(17, 1)]⟩,
      ⟨113, 3, [(2, 4)]⟩, ⟨127, 3, [(3, 2), (7, 1)]⟩, ⟨173, 2, [(43, 1)]⟩, ⟨179, 2, [(89, 1)]⟩,
      ⟨223, 2, [(37, 1)]⟩, ⟨227, 2, [(113, 1)]⟩, ⟨277, 2, [(23, 1)]⟩, ⟨347, 2, [(173, 1)]⟩,
      ⟨397, 3, [(3, 2), (11, 1)]⟩, ⟨1237, 2, [(103, 1)]⟩, ⟨1433, 2, [(179, 1)]⟩,
      ⟨1663, 2, [(277, 1)]⟩, ⟨2437, 2, [(7, 1), (29, 1)]⟩, ⟨17467, 3, [(41, 1), (71, 1)]⟩,
      ⟨23609, 2, [(227, 1)]⟩, ⟨49481, 2, [(1237, 1)]⟩, ⟨777241, 2, [(17, 1), (127, 1)]⟩,
      ⟨2995763, 2, [(7, 3), (397, 1)]⟩, ⟨8620289, 3, [(2, 8), (223, 1)]⟩,
      ⟨9211861, 2, [(3, 3), (2437, 1)]⟩, ⟨19353437, 2, [(17467, 1)]⟩, ⟨308761441, 3, [(49481, 1)]⟩,
      ⟨2400573761, 3, [(347, 1), (1663, 1)]⟩, ⟨2534364967, 2, [(8620289, 1)]⟩,
      ⟨24098228377, 2, [(9211861, 1)]⟩, ⟨65427463921, 3, [(2995763, 1)]⟩,
      ⟨674750394557, 2, [(24098228377, 1)]⟩, ⟨108140989558681, 3, [(1433, 1), (23609, 1)]⟩,
      ⟨145295143558111, 3, [(2534364967, 1)]⟩,
      ⟨60018716061994831, 2, [(777241, 1), (19353437, 1)]⟩,
      ⟨361725589517273017, 2, [(674750394557, 1)]⟩,
      ⟨4239602065187190872179, 2, [(60018716061994831, 1)]⟩,
      ⟨173308343918874810521923841, 3, [(361725589517273017, 1)]⟩,
      ⟨7427946019382605513260578233234962521, 2, [(4239602065187190872179, 1)]⟩,
      ⟨15994076126984618329123851002118749004583184815459808099, 2,
        [(7427946019382605513260578233234962521, 1)]⟩,
      ⟨3636410625392624440351547907325502812950802686368714273274221490761556277859337865760708490235892541081304511, 2,
        [(15994076126984618329123851002118749004583184815459808099, 1)]⟩,
      ⟨3615194794881930010216942559103847593050265703173292383701371712350878926821661243755933835426896058418509759880171943, 2,
        [(3636410625392624440351547907325502812950802686368714273274221490761556277859337865760708490235892541081304511, 1)]⟩,
      ⟨Curve.secp521r1.params.n, 2,
        [(3615194794881930010216942559103847593050265703173292383701371712350878926821661243755933835426896058418509759880171943, 1)]⟩,
      ⟨Curve.secp521r1.params.p, 3,
        [(308761441, 1), (2400573761, 1), (65427463921, 1), (108140989558681, 1),
          (145295143558111, 1), (173308343918874810521923841, 1)]⟩]

theorem prime_of_mem_certificates (p : Profile) {q : Nat}
    (h : q ∈ p.certificates.map Certificate.number) : q.Prime := by
  have hknown : ∀ q ∈ [2], q.Prime := by
    rw [List.forall_mem_singleton]
    exact Nat.prime_two
  have hcheck : Certificate.checkAll [2] p.certificates = true := by
    cases p <;> decide +kernel
  obtain ⟨c, hc, rfl⟩ := List.mem_map.1 h
  exact Certificate.prime_of_checkAll hknown hcheck c hc

theorem prime_field (p : Profile) : p.curve.params.p.Prime :=
  prime_of_mem_certificates p (by cases p <;> decide)

theorem prime_order (p : Profile) : p.curve.params.n.Prime :=
  prime_of_mem_certificates p (by cases p <;> decide)

end SignedToken.Profile
