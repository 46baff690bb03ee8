import SignedToken.CommandLine
import SignedToken.Proofs.Arguments

/-!
This module contains that the arguments of a command, written in the usual form, ask for this command
and for nothing else, whatever the texts in them are.
-/

namespace SignedToken

namespace CommandLine

open Arguments

variable {base : Text}

theorem hasNames_programGrammar : programGrammar.HasNames := by
  unfold Grammar.HasNames
  decide

theorem hasNames_grammar (name : CommandName) : name.grammar.HasNames := by
  unfold Grammar.HasNames
  cases name <;> decide

/-! ### The program -/

inductive IsForCommand : Text → Prop where
  | plain {t : Text} (h : IsPlain t) : IsForCommand t
  | assignment {name : Text} (value : Text) (hname : IsLongName name)
      (h : ∀ f ∈ programGrammar.flags, ∀ n ∈ f.names, n.startsWith name = false)
    : IsForCommand (assignment name value)

theorem IsForCommand.exists_kindOf {t : Text} (h : IsForCommand t)
    : t ≠ separator ∧ ∃ kind, programGrammar.kindOf t = .ok kind := by
  cases h with
  | plain h => exact ⟨h.ne_separator, _, h.kindOf⟩
  | assignment value hname h =>
    exact ⟨assignment_ne_separator hname, exists_kindOf_assignment hasNames_programGrammar hname h⟩

theorem isPlain_text (name : CommandName) : IsPlain name.text := by
  cases name <;> decide

theorem read_programGrammar (name : CommandName) {args : List Text}
    (hargs : ∀ t ∈ args, IsForCommand t)
    : programGrammar.read (name.text :: args) = ⟨[(.command, name.text :: args)], [], none⟩ := by
  have hplain := isPlain_text name
  obtain ⟨ws, hws, htexts⟩ := exists_words fun t ht => (hargs t ht).exists_kindOf
  have hwords := words_cons hplain.ne_separator hplain.kindOf hws
  have hfront : fillFront programGrammar.positions (⟨name.text, .value⟩ :: ws)
      = ([(Slot.command, name.text :: args)], [], []) := by
    rw [← htexts]
    rfl
  rw [Grammar.read, hwords]
  dsimp only
  rw [readWords_of_filled hfront, readWords_eq]
  rfl

theorem readCommand_eq {name : CommandName} {args : List Text} {given : List (Slot × List Text)}
    {v : Values} (hread : name.grammar.read args = ⟨given, [], none⟩)
    (hmissing : name.grammar.missing? given = none)
    (htake : ∀ program, Values.takeAll program { base := base } given = .ok v)
    : readCommand base name args = .ok (v.command name, []) := by
  unfold readCommand
  dsimp only
  rw [hread, htake]
  unfold checkReading
  dsimp only
  rw [hmissing]
  rfl

theorem parse_eq {name : CommandName} {args : List Text} {c : Command}
    (hargs : ∀ t ∈ args, IsForCommand t) (h : readCommand base name args = .ok (c, []))
    : parse base (name.text :: args) = .ok ⟨false, c⟩ := by
  have hfind : CommandName.all.find? (·.text == name.text) = some name := by
    cases name <;> decide
  have hchoose : chooseCommand base (name.text :: args) = .ok (c, []) := by
    unfold chooseCommand
    dsimp only
    rw [hfind]
    exact h
  have htake : Request.takeAll base {} [(.command, name.text :: args)]
      = .ok { command := some c } := by
    rw [Request.takeAll, Request.take, hchoose]
    rfl
  unfold parse
  rw [read_programGrammar name hargs]
  dsimp only
  rw [htake]
  rfl

/-! ### Commands -/

theorem parse_generate {p : Text} (hp : IsPlain p)
    : parse base [CommandName.generate.text, p] = .ok ⟨false, .generate p false⟩ := by
  have hplain : ∀ t ∈ [p], IsPlain t := List.forall_mem_singleton.2 hp
  have hread := read_values_given [p] [] (hasNames_grammar .generate) (by decide) rfl hplain nofun
  exact parse_eq (fun t ht => .plain (hplain t ht)) (readCommand_eq hread rfl fun _ => rfl)

theorem parse_verify {wire p : Text} (hwire : IsPlain wire) (hp : IsPlain p)
    : parse base [CommandName.verify.text, wire, p] = .ok ⟨false, .verify wire p⟩ := by
  have hplain : ∀ t ∈ [wire, p], IsPlain t :=
    List.forall_mem_cons.2 ⟨hwire, List.forall_mem_singleton.2 hp⟩
  have hread := read_values_given [wire, p] [] (hasNames_grammar .verify) (by decide) rfl hplain nofun
  exact parse_eq (fun t ht => .plain (hplain t ht)) (readCommand_eq hread rfl fun _ => rfl)

theorem parse_exportJwk {p : Text} (hp : IsPlain p)
    : parse base [CommandName.exportJwk.text, p] = .ok ⟨false, .exportJwk p⟩ := by
  have hplain : ∀ t ∈ [p], IsPlain t := List.forall_mem_singleton.2 hp
  have hread := read_values_given [p] [] (hasNames_grammar .exportJwk) (by decide) rfl hplain nofun
  exact parse_eq (fun t ht => .plain (hplain t ht)) (readCommand_eq hread rfl fun _ => rfl)

/-! ### Issuing -/

def usernameName : Text := Text.ofString "--username"

def groupName : Text := Text.ofString "--group"

def lifetimeName : Text := Text.ofString "--ttl"

theorem isLongName_username : IsLongName usernameName := ⟨⟨_, _, rfl⟩, by decide⟩

theorem isLongName_group : IsLongName groupName := ⟨⟨_, _, rfl⟩, by decide⟩

theorem isLongName_lifetime : IsLongName lifetimeName := ⟨⟨_, _, rfl⟩, by decide⟩

theorem isForCommand_username (u : Text) : IsForCommand (assignment usernameName u) :=
  .assignment u isLongName_username (by decide)

theorem isForCommand_group (g : Text) : IsForCommand (assignment groupName g) :=
  .assignment g isLongName_group (by decide)

theorem isForCommand_lifetime (t : Text) : IsForCommand (assignment lifetimeName t) :=
  .assignment t isLongName_lifetime (by decide)

def issueArguments (p username : Text) (groups : List Text) (lifetime : Option Text) : List Text :=
  CommandName.issue.text :: p :: assignment usernameName username
    :: (groups.map (assignment groupName) ++ lifetime.toList.map (assignment lifetimeName))

def issueGiven (username : Text) (groups : List Text) (lifetime : Option Text) : List (Given Slot) :=
  ⟨flag .username ["--username"] true, usernameName, username⟩
    :: (groups.map (Given.mk (flag .group ["--group"] true) groupName)
      ++ lifetime.toList.map (Given.mk lifetimeFlag lifetimeName))

theorem issueArguments_eq (p username : Text) (groups : List Text) (lifetime : Option Text)
    : issueArguments p username groups lifetime
        =
      CommandName.issue.text :: ([p] ++ (issueGiven username groups lifetime).map Given.argument) := by
  rw [issueArguments, issueGiven, List.map_cons, List.map_append, List.map_map, List.map_map]
  rfl

theorem isOf_issueGiven {username : Text} {groups : List Text} {lifetime : Option Text}
    : ∀ a ∈ issueGiven username groups lifetime, a.IsOf CommandName.issue.grammar := by
  rw [issueGiven, List.forall_mem_cons, List.forall_mem_append, List.forall_mem_map,
    List.forall_mem_map]
  exact ⟨⟨isLongName_username, rfl, rfl⟩, fun _ _ => ⟨isLongName_group, rfl, rfl⟩,
    fun _ _ => ⟨isLongName_lifetime, rfl, rfl⟩⟩

theorem isForCommand_issueGiven {username : Text} {groups : List Text} {lifetime : Option Text}
    : ∀ a ∈ issueGiven username groups lifetime, IsForCommand a.argument := by
  rw [issueGiven, List.forall_mem_cons, List.forall_mem_append, List.forall_mem_map,
    List.forall_mem_map]
  exact ⟨isForCommand_username _, fun g _ => isForCommand_group g, fun t _ => isForCommand_lifetime t⟩

theorem takeAll_append (program : Text) (v : Values) (given given' : List (Slot × List Text))
    : v.takeAll program (given ++ given')
        =
      (v.takeAll program given).bind fun v => v.takeAll program given' := by
  induction given generalizing v with
  | nil => rfl
  | cons g given ih =>
    rw [List.cons_append, Values.takeAll, Values.takeAll]
    cases v.take program g.1 g.2 with
    | error e => rfl
    | ok v' => exact ih v'

theorem takeAll_groups (program : Text) (v : Values) (groups : List Text)
    : v.takeAll program (groups.map fun g => (.group, [g]))
        =
      .ok { v with groups := v.groups ++ groups } := by
  induction groups generalizing v with
  | nil =>
    rw [List.append_nil]
    rfl
  | cons g groups ih =>
    change Values.takeAll program { v with groups := v.groups ++ [g] } _ = _
    rw [ih, List.append_assoc, List.singleton_append]

inductive ReadsLifetime : Option Text → Option Int → Prop where
  | absent : ReadsLifetime none none
  | given {t : Text} {n : Int} (h : integer? t = some n) : ReadsLifetime (some t) (some n)

theorem takeAll_lifetime (program : Text) {v : Values} {lifetime : Option Text} {n : Option Int}
    (hv : v.lifetime = none) (h : ReadsLifetime lifetime n)
    : v.takeAll program (lifetime.toList.map fun t => (.lifetime, [t]))
        =
      .ok { v with lifetime := n } := by
  cases h with
  | absent =>
    rw [← hv]
    rfl
  | given h =>
    rw [Option.toList_some, List.map_singleton, Values.takeAll, Values.take, h]
    rfl

theorem parse_issue {p username : Text} {groups : List Text} {lifetime : Option Text}
    {n : Option Int} (hp : IsPlain p) (hlifetime : ReadsLifetime lifetime n)
    : parse base (issueArguments p username groups lifetime)
        =
      .ok ⟨false, .issue p username groups n⟩ := by
  have hplain : ∀ t ∈ [p], IsPlain t := List.forall_mem_singleton.2 hp
  have hread := read_values_given [p] (issueGiven username groups lifetime)
    (hasNames_grammar .issue) (by decide) rfl hplain isOf_issueGiven
  have hgiven : (issueGiven username groups lifetime).map (fun a => (a.flag.slot, [a.value]))
      = (.username, [username]) :: (groups.map (fun g => (.group, [g]))
        ++ lifetime.toList.map fun t => (.lifetime, [t])) := by
    rw [issueGiven, List.map_cons, List.map_append, List.map_map, List.map_map]
    rfl
  have htake : ∀ program, Values.takeAll program { base := base }
      ([(.base, [p])] ++ (issueGiven username groups lifetime).map fun a => (a.flag.slot, [a.value]))
        = .ok { base := p, username := username, groups := groups, lifetime := n } := by
    intro program
    rw [hgiven]
    change Values.takeAll program { base := p, username := username } _ = _
    rw [takeAll_append, takeAll_groups]
    dsimp only [Except.bind]
    rw [takeAll_lifetime program rfl hlifetime]
    rfl
  rw [issueArguments_eq]
  apply parse_eq
  . exact List.forall_mem_append.2
      ⟨fun t ht => .plain (hplain t ht), List.forall_mem_map.2 isForCommand_issueGiven⟩
  . exact readCommand_eq hread rfl htake

end CommandLine

end SignedToken
