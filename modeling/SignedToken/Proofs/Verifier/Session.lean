import SignedToken.Proofs.Signer.Transparency
import SignedToken.Proofs.Verifier.Stages

/-!
This module contains what comes of the calls of a whole session. A verifier carries nothing but its
clock from one call to the next: which time a call is given is a matter of how many calls before it
came to look at the clock, and the time decides no more than the last stage. So if the clock never
goes back, no later call accepts a wire that had expired.
-/

namespace SignedToken

namespace Verifier

variable {scheme : Scheme} {v : Verifier}

def readsClock (scheme : Scheme) (v : Verifier) (wire : ClaimValue) : Bool :=
  (v.authenticate scheme wire).isOk

def readsOf (scheme : Scheme) (v : Verifier) (wires : List ClaimValue) : Nat :=
  wires.countP (v.readsClock scheme)

theorem readsClock_eq_true_iff {wire : ClaimValue}
    : v.readsClock scheme wire = true ↔ ∃ t, v.authenticate scheme wire = .ok t := by
  unfold readsClock
  cases v.authenticate scheme wire <;> simp [Except.isOk, Except.toBool]

theorem readsClock_iff_passes {wire : ClaimValue} (now : Int)
    : v.readsClock scheme wire = true
        ↔
      ∀ stage : Stage, stage ≠ .expiration → v.Passes scheme now wire stage := by
  rw [readsClock_eq_true_iff]
  constructor
  . rintro ⟨t, hauthenticate⟩ stage hstage
    cases wire with
    | text wire =>
      obtain ⟨header, payload, signature, rfl, haddressed, hsigned, hdecode⟩ :=
        authenticate_eq_ok_iff.1 hauthenticate
      obtain ⟨hheader, halgorithm, hattachment⟩ := addressed_iff_holds.1 haddressed
      rw [passes_write_iff]
      cases stage with
      | form => trivial
      | header => exact hheader
      | algorithm => exact halgorithm
      | attachment => exact hattachment
      | signature => exact hsigned
      | payload => exact ⟨t, hdecode⟩
      | expiration => exact absurd rfl hstage
    | _ => cases hauthenticate
  . intro hpasses
    obtain ⟨header, payload, signature, rfl, -⟩ := hpasses .form (by decide)
    have hholds := fun stage hstage => passes_write_iff.1 (hpasses stage hstage)
    have haddressed : v.Addressed header := addressed_iff_holds.2
      ⟨hholds .header (by decide), hholds .algorithm (by decide), hholds .attachment (by decide)⟩
    obtain ⟨t, hdecode⟩ := hholds .payload (by decide)
    exact ⟨t, authenticate_eq_ok_iff.2
      ⟨header, payload, signature, rfl, haddressed, hholds .signature (by decide), hdecode⟩⟩

/-! ### One call -/

theorem step_eq_verify (scheme : Scheme) (v : Verifier) (clock : Nat → Int) (reads : Nat)
    (wire : ClaimValue)
    : v.step scheme clock reads wire
        =
      (v.verify scheme (clock reads) wire,
        if v.readsClock scheme wire then reads + 1 else reads) := by
  unfold step verify readsClock
  cases v.authenticate scheme wire <;> rfl

theorem verify_eq_verify_of_not_readsClock {wire : ClaimValue}
    (h : v.readsClock scheme wire = false) (now now' : Int)
    : v.verify scheme now wire = v.verify scheme now' wire := by
  unfold readsClock at h
  unfold verify
  cases hauthenticate : v.authenticate scheme wire with
  | error e => rfl
  | ok t =>
    rw [hauthenticate] at h
    cases h

theorem authenticate_ne_expired (scheme : Scheme) (v : Verifier) (wire : ClaimValue) (e now : Int)
    : v.authenticate scheme wire ≠ .error (.expired e now) := by
  intro hauthenticate
  obtain ⟨stage, hstops⟩ | hpasses := exists_stopsAt_or_passes scheme v now wire
  . by_cases hstage : stage = .expiration
    . subst hstage
      obtain ⟨t, -, hok, -⟩ := hstops.authenticate_eq_ok
      rw [hauthenticate] at hok
      cases hok
    . obtain ⟨e', hreport, herror⟩ := hstops.authenticate_eq_error hstage
      rw [hauthenticate, Except.error.injEq] at herror
      cases hreport with
      | expiration => exact hstage rfl
      | attachment => split at herror <;> cases herror
      | _ => cases herror
  . obtain ⟨t, hok⟩ := readsClock_eq_true_iff.1
      ((readsClock_iff_passes now).2 fun stage _ => hpasses stage)
    rw [hauthenticate] at hok
    cases hok

theorem verify_of_authenticate {wire : ClaimValue} {t : Token}
    (h : v.authenticate scheme wire = .ok t) (now : Int)
    : v.verify scheme now wire = checkExpiration t now := by
  rw [verify, h]

theorem verify_of_lt {wire : ClaimValue} {t : Token} {now : Int}
    (h : v.authenticate scheme wire = .ok t) (hlt : t.expiration < now)
    : v.verify scheme now wire
        =
      if hasNumeral now then .error (.known (.verification (.expired t.expiration now)))
      else .error (.unknown .numeralTooLong) := by
  rw [verify_of_authenticate h]
  exact checkExpiration_of_lt hlt (hasNumeral_of_authenticate h)

theorem authenticate_of_verify_expired {wire : ClaimValue} {now e now' : Int}
    (h : v.verify scheme now wire = .error (.known (.verification (.expired e now'))))
    : ∃ t, v.authenticate scheme wire = .ok t ∧ t.expiration = e ∧ e < now := by
  cases hauthenticate : v.authenticate scheme wire with
  | error cause =>
    rw [verify, hauthenticate] at h
    cases h
    exact absurd hauthenticate (authenticate_ne_expired scheme v wire e now')
  | ok t =>
    have hlt : t.expiration < now := by
      rw [← Int.not_le]
      intro hle
      rw [verify_of_authenticate hauthenticate, checkExpiration_eq_ok_iff.2 ⟨rfl, hle⟩] at h
      cases h
    rw [verify_of_lt hauthenticate hlt] at h
    split at h
    . cases h
      exact ⟨t, rfl, rfl, hlt⟩
    . cases h

/-! ### Two calls with one wire -/

/--
What the later of two calls with one wire, at the given time, owes to the earlier one: an expired
wire stays expired, and is reported so unless the time is too long to be written; an accepted one was
the same token before.
-/
structure Outlives (now : Int) (earlier later : Except Failure Token) : Prop where
  expired : ∀ e now', earlier = .error (.known (.verification (.expired e now'))) →
    ((∃ now', later = .error (.known (.verification (.expired e now')))) ↔ hasNumeral now = true)
  unreported : ∀ e now', earlier = .error (.known (.verification (.expired e now'))) →
    hasNumeral now = false → later = .error (.unknown .numeralTooLong)
  accepted : ∀ t, later = .ok t → earlier = .ok t

theorem outlives_verify (scheme : Scheme) (v : Verifier) (wire : ClaimValue) {now now' : Int}
    (h : now ≤ now') : Outlives now' (v.verify scheme now wire) (v.verify scheme now' wire) where
  expired := by
    intro e _ hexpired
    obtain ⟨t, hauthenticate, rfl, hlt⟩ := authenticate_of_verify_expired hexpired
    rw [verify_of_lt hauthenticate (Int.lt_of_lt_of_le hlt h)]
    cases hasNumeral now' <;> simp
  unreported := by
    intro e _ hexpired hnot
    obtain ⟨t, hauthenticate, rfl, hlt⟩ := authenticate_of_verify_expired hexpired
    rw [verify_of_lt hauthenticate (Int.lt_of_lt_of_le hlt h), hnot]
    rfl
  accepted := by
    intro t hok
    have hauthenticate := authenticate_of_verify hok
    rw [verify_of_authenticate hauthenticate, checkExpiration_eq_ok_iff] at hok ⊢
    exact ⟨rfl, Int.le_trans h hok.2⟩

/-! ### The calls of a session -/

theorem getElem?_run (scheme : Scheme) (v : Verifier) (clock : Nat → Int) (reads : Nat)
    (wires : List ClaimValue) (i : Nat)
    : (v.run scheme clock reads wires)[i]?
        =
      wires[i]?.map fun wire =>
        (v.verify scheme (clock (reads + v.readsOf scheme (wires.take i))) wire,
          reads + v.readsOf scheme (wires.take (i + 1))) := by
  induction wires generalizing reads i with
  | nil => rfl
  | cons wire wires ih =>
    unfold run
    rw [step_eq_verify]
    cases i with
    | zero =>
      simp [readsOf, List.countP_cons]
      split <;> rfl
    | succ i =>
      rw [List.getElem?_cons_succ, ih]
      simp only [readsOf, List.take_succ_cons, List.countP_cons]
      split <;> simp [Nat.add_assoc, Nat.add_comm]

theorem getElem?_run_of_eq_some {clock : Nat → Int} {wires : List ClaimValue} {i : Nat}
    {wire : ClaimValue} (h : wires[i]? = some wire)
    : (v.run scheme clock 0 wires)[i]?
        =
      some (v.verify scheme (clock (v.readsOf scheme (wires.take i))) wire,
        v.readsOf scheme (wires.take (i + 1))) := by
  rw [getElem?_run, h, Option.map_some, Nat.zero_add, Nat.zero_add]

theorem readsOf_take_le (scheme : Scheme) (v : Verifier) (wires : List ClaimValue) {i j : Nat}
    (h : i ≤ j) : v.readsOf scheme (wires.take i) ≤ v.readsOf scheme (wires.take j) :=
  (List.take_sublist_take_left h).countP_le

/--
The verifier keeps nothing but its clock: each call of a session has the result of a fresh verifier
whose clock stands at one time, and this time is the next one after those that the earlier calls
came to see. A call comes to see the clock if its wire passes all stages but the last, and otherwise
has the same result at all times. If the clock never goes back, then wires that have expired stay so.
-/
theorem run_never_revives (scheme : Scheme) (v : Verifier) (clock : Nat → Int)
    (wires : List ClaimValue)
    : (∀ i, (v.run scheme clock 0 wires)[i]?
          =
        wires[i]?.map fun wire =>
          ((v.step scheme (fun _ => clock (v.readsOf scheme (wires.take i))) 0 wire).1,
            v.readsOf scheme (wires.take (i + 1)))) ∧
      (∀ wire,
        (∀ now, v.readsClock scheme wire = true
            ↔
          ∀ stage : Stage, stage ≠ .expiration → v.Passes scheme now wire stage) ∧
        (v.readsClock scheme wire = false →
          ∀ now now', v.verify scheme now wire = v.verify scheme now' wire)) ∧
      ((∀ m n, m ≤ n → clock m ≤ clock n) →
        ∀ i j wire, i < j → wires[i]? = some wire → wires[j]? = some wire →
          ∃ earlier later, (v.run scheme clock 0 wires)[i]? = some earlier ∧
            (v.run scheme clock 0 wires)[j]? = some later ∧
            Outlives (clock (v.readsOf scheme (wires.take j))) earlier.1 later.1) := by
  refine ⟨?_, ?_, ?_⟩
  . intro i
    rw [getElem?_run]
    simp only [step_eq_verify, Nat.zero_add]
  . intro wire
    exact ⟨readsClock_iff_passes, verify_eq_verify_of_not_readsClock⟩
  . intro hclock i j wire hij hi hj
    have hle := hclock _ _ (readsOf_take_le scheme v wires (Nat.le_of_lt hij))
    exact ⟨_, _, getElem?_run_of_eq_some hi, getElem?_run_of_eq_some hj,
      outlives_verify scheme v wire hle⟩

end Verifier

namespace Signer

theorem exists_authenticate_bare
    : ∃ wire, least.verifier.authenticate (.ofKey least.key) (.text wire)
        = .ok (Token.mk 1 [] [] [] []) := by
  obtain ⟨payload, -, hdecode⟩ := exists_encode_bare
  obtain ⟨wire, -, hauthenticate⟩ := authenticate_sign? (Scheme.acceptsOwn_ofKey least.onCurve) payload
  rw [hdecode] at hauthenticate
  exact ⟨wire, hauthenticate⟩

theorem run_never_revives_late
    : ∃ wire, (∀ m n : Nat, m ≤ n → (m : Int) + 2 ≤ n + 2) ∧
        ∃ earlier later,
          (least.verifier.run (.ofKey least.key) (fun k => k + 2) 0 [wire, .null, wire])[0]?
            = some earlier ∧
          (least.verifier.run (.ofKey least.key) (fun k => k + 2) 0 [wire, .null, wire])[2]?
            = some later ∧
          earlier = (.error (.known (.verification (.expired 1 2))), 1) ∧
          ∃ now, later.1 = .error (.known (.verification (.expired 1 now))) := by
  obtain ⟨wire, hauthenticate⟩ := exists_authenticate_bare
  have hreads : least.verifier.readsClock (.ofKey least.key) (.text wire) = true :=
    Verifier.readsClock_eq_true_iff.2 ⟨_, hauthenticate⟩
  have hclock : ∀ m n : Nat, m ≤ n → (m : Int) + 2 ≤ n + 2 := by
    omega
  obtain ⟨-, -, hcalls⟩ := Verifier.run_never_revives (.ofKey least.key) least.verifier
    (fun k => k + 2) [.text wire, .null, .text wire]
  obtain ⟨earlier, later, hearlier, hlater, houtlives⟩ :=
    hcalls hclock 0 2 (.text wire) (by decide) rfl rfl
  have htwo : hasNumeral 2 = true := Text.hasNumeral_iff.2 (by decide)
  have hthree : hasNumeral 3 = true := Text.hasNumeral_iff.2 (by decide)
  have hexpired : earlier = (.error (.known (.verification (.expired 1 2))), 1) := by
    rw [Verifier.getElem?_run_of_eq_some rfl, Option.some_inj] at hearlier
    rw [← hearlier]
    simp [Verifier.readsOf, hreads, Verifier.verify_of_lt hauthenticate, htwo]
  refine ⟨.text wire, hclock, earlier, later, hearlier, hlater, hexpired, ?_⟩
  have hnull : least.verifier.readsClock (.ofKey least.key) .null = false := rfl
  apply (houtlives.expired 1 2 (congrArg Prod.fst hexpired)).2
  simp [Verifier.readsOf, hreads, hnull, hthree]

theorem exists_run_expired_unreported
    : ∃ wire, ∃ clock : Nat → Int, (∀ m n, m ≤ n → clock m ≤ clock n) ∧
        clock 0 = 5 ∧ clock 1 = (10 ^ maxNumeralDigits : Nat) ∧
        least.verifier.run (.ofKey least.key) clock 0 [wire, wire]
          = [(.error (.known (.verification (.expired 1 5))), 1),
              (.error (.unknown .numeralTooLong), 2)] := by
  obtain ⟨wire, hauthenticate⟩ := exists_authenticate_bare
  obtain ⟨late, hlate⟩ : ∃ late : Nat, late = 10 ^ maxNumeralDigits := ⟨_, rfl⟩
  have hlong : hasNumeral late = false := by
    rw [hlate]
    exact Text.not_hasNumeral_pow
  have hle : 10 ≤ late := by
    rw [hlate]
    exact Nat.le_self_pow (by decide) 10
  have hfive : hasNumeral 5 = true := Text.hasNumeral_iff.2 (by decide)
  have hreads : least.verifier.readsClock (.ofKey least.key) (.text wire) = true :=
    Verifier.readsClock_eq_true_iff.2 ⟨_, hauthenticate⟩
  refine ⟨.text wire, fun k => if k = 0 then 5 else late, ?_, rfl, ?_, ?_⟩
  . intro m n hmn
    dsimp only
    split <;> split <;> omega
  . rw [← hlate]
    rfl
  . have hlt : (Token.mk 1 [] [] [] []).expiration < (5 : Int) := by decide
    have hlt' : (Token.mk 1 [] [] [] []).expiration < (late : Int) := by
      dsimp only
      omega
    simp [Verifier.run, Verifier.step_eq_verify, hreads, Verifier.verify_of_lt hauthenticate hlt,
      Verifier.verify_of_lt hauthenticate hlt', hfive, hlong]

end Signer

end SignedToken
