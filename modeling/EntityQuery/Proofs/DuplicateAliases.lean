import EntityQuery.Proofs.InternalFaults
import EntityQuery.Proofs.Renaming

/-!
# Names that stand twice

A from-element without an alias goes by a name that is made up for it, in one space of names with the
aliases that others are given. `duplicate_aliases_refused`: a statement is refused as one whose aliases
are not distinct if two from-elements are given the same alias, or if one is given the name that is
made up for another, and for no other reason.

`namesFrom_perm` takes the names of from-elements apart into those two kinds.
-/

set_option autoImplicit false

namespace EntityQuery

/-! ## Two kinds of names -/

/-- The names that are made up for from-elements, when `generated` have been made up before. -/
def madeUpFrom (generated : Nat) (elements : List (Option String)) : List String :=
  (List.range' (generated + 1) (elements.count none)).map madeUp

theorem madeUpFrom_nodup (generated : Nat) (elements : List (Option String)) :
    (madeUpFrom generated elements).Nodup :=
  List.Nodup.map (fun _ _ => madeUp_inj) List.nodup_range'

theorem namesFrom_perm : ∀ {generated : Nat} {elements : List (Option String)},
    (namesFrom generated elements).Perm (elements.filterMap id ++ madeUpFrom generated elements)
  | _, [] => .refl _
  | generated, some a :: es => by
    have hmade : madeUpFrom generated (some a :: es) = madeUpFrom generated es := by
      simp [madeUpFrom]
    rw [hmade]
    exact namesFrom_perm.cons a
  | generated, none :: es => by
    have hmade : madeUpFrom generated (none :: es) =
        madeUp (generated + 1) :: madeUpFrom (generated + 1) es := by
      simp [madeUpFrom, List.range'_succ]
    rw [hmade]
    exact (namesFrom_perm.cons _).trans List.perm_middle.symm

namespace Statement

/-- The aliases that the from-elements of a statement are given. -/
def explicitNames (s : Statement) : List String := s.elements.filterMap id

/-- The names that are made up for the from-elements without an alias. -/
def madeUpNames (s : Statement) : List String := madeUpFrom 0 s.elements

/-- All names are distinct when the aliases are, and none of them is made up for another. -/
theorem names_nodup_iff {s : Statement} : (namesFrom 0 s.elements).Nodup ↔
    s.explicitNames.Nodup ∧ ∀ name ∈ s.explicitNames, name ∉ s.madeUpNames := by
  rw [namesFrom_perm.nodup_iff, List.nodup_append']
  constructor
  · rintro ⟨hexplicit, -, hdisjoint⟩
    exact ⟨hexplicit, fun name hname hmade => hdisjoint hname hmade⟩
  · rintro ⟨hexplicit, hdisjoint⟩
    exact ⟨hexplicit, madeUpFrom_nodup 0 _, fun name hname hmade => hdisjoint name hname hmade⟩

/-- Among distinct aliases, a name stands twice that is given to one from-element and made up for
another. -/
theorem mem_both_of_twice {s : Statement} {name : String} (hexplicit : s.explicitNames.Nodup)
    (htwice : 2 ≤ (namesFrom 0 s.elements).count name) :
    name ∈ s.explicitNames ∧ name ∈ s.madeUpNames := by
  rw [namesFrom_perm.count_eq, List.count_append] at htwice
  have hgiven := List.nodup_iff_count_le_one.1 hexplicit name
  have hmade := List.nodup_iff_count_le_one.1 (madeUpFrom_nodup 0 s.elements) name
  rw [explicitNames] at hgiven
  constructor
  · apply List.count_pos_iff.1
    show 0 < (s.elements.filterMap id).count name
    omega
  · apply List.count_pos_iff.1
    show 0 < (madeUpFrom 0 s.elements).count name
    omega

end Statement

/-! ## Statements that are refused -/

/-- The names of a lowered statement are distinct. -/
theorem lowerWith_names_nodup {settings : Settings} {m : Metamodel} {s : Statement} {l : Lowered}
    (h : lowerWith settings m s = .ok l) : (namesFrom 0 s.elements).Nodup :=
  (lowerWith_registers h).names.nodup_iff.1 (FromIndex.aliases_nodup _)

/-- A statement that gives two from-elements the same alias is not lowered. One whose aliases are
distinct is refused for an alias only if that is also made up for a from-element without one, and then
it is not lowered. -/
theorem duplicate_aliases_refused {ms : List EntityMapping} {r : Registration} {m : Metamodel}
    (hr : Registration.empty.registerAll ms = .ok r) (hb : r.build = .ok m) (settings : Settings)
    (s : Statement) :
    (¬ s.explicitNames.Nodup → ∀ l, lowerWith settings m s ≠ .ok l) ∧
      (s.explicitNames.Nodup → ∀ name, lowerWith settings m s = .error (.duplicateAlias name) →
        name ∈ s.explicitNames ∧ name ∈ s.madeUpNames) ∧
      ∀ name, name ∈ s.explicitNames → name ∈ s.madeUpNames →
        ∀ l, lowerWith settings m s ≠ .ok l := by
  refine ⟨fun hrepeated l hl => ?_, fun hdistinct name herror => ?_, fun name hgiven hmade l hl => ?_⟩
  · exact hrepeated (Statement.names_nodup_iff.1 (lowerWith_names_nodup hl)).1
  · rcases (lowerWith_ordinary (Registration.build_complete hr hb)).error herror with
      hordinary | ⟨_, heq, htwice⟩
    · cases hordinary
    · cases heq
      exact Statement.mem_both_of_twice hdistinct htwice
  · exact (Statement.names_nodup_iff.1 (lowerWith_names_nodup hl)).2 name hgiven hmade

/-- All pairs of people, under given aliases. -/
def pairs (first second : Option String) : Statement :=
  .select ⟨⟨[⟨⟨"Person", first⟩, []⟩, ⟨⟨"Person", second⟩, []⟩]⟩, none, none, none⟩

/-- One alias for both is refused; so is an alias beside the same name made up, but not beside the
next. -/
theorem pairs_refused : ∃ r m, Registration.empty.registerAll people = .ok r ∧ r.build = .ok m ∧
    (∀ l, lowerWith .default m (pairs (some "p") (some "p")) ≠ .ok l) ∧
    (∀ name, lowerWith .default m (pairs none (some "<generated_2>")) ≠
      .error (.duplicateAlias name)) ∧
    ∀ l, lowerWith .default m (pairs none (some "<generated_1>")) ≠ .ok l := by
  have hbuilt : (Registration.empty.registerAll people >>= Registration.build).toOption.isSome := by
    decide +kernel
  obtain ⟨m, hm⟩ := Except.exists_ok_of_isSome hbuilt
  obtain ⟨r, hr, hb⟩ := Except.bind_eq_ok.1 hm
  refine ⟨r, m, hr, hb, ?_, fun name herror => ?_, ?_⟩
  · exact (duplicate_aliases_refused hr hb .default _).1 (by decide)
  · obtain ⟨hgiven, hmade⟩ := (duplicate_aliases_refused hr hb .default _).2.1 (by decide) name herror
    cases List.mem_singleton.1 hgiven
    exact absurd hmade (by decide +kernel)
  · exact (duplicate_aliases_refused hr hb .default _).2.2 "<generated_1>" (by decide)
      (by decide +kernel)

/-- An alias that no other from-element is given may still be refused. -/
theorem distinct_aliases_refused : ∃ r m, Registration.empty.registerAll people = .ok r ∧
    r.build = .ok m ∧ (pairs (some "<generated_1>") none).explicitNames.Nodup ∧
    lowerWith .default m (pairs (some "<generated_1>") none) =
      .error (.duplicateAlias "<generated_1>") := by
  have hrun : (Registration.empty.registerAll people >>= Registration.build).toOption.map
      (fun m => match lowerWith .default m (pairs (some "<generated_1>") none) with
        | .ok _ => none
        | .error e => some e) = some (some (.duplicateAlias "<generated_1>")) := by
    decide +kernel
  obtain ⟨m, hm, hfails⟩ := Option.map_eq_some_iff.1 hrun
  obtain ⟨r, hr, hb⟩ := Except.bind_eq_ok.1 (Except.toOption_eq_some.1 hm)
  refine ⟨r, m, hr, hb, by decide, ?_⟩
  split at hfails
  · cases hfails
  · rename_i he
    cases hfails
    exact he

end EntityQuery
