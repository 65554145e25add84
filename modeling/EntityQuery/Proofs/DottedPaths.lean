import EntityQuery.Lowering.Pass
import Mathlib.Data.List.Basic

/-!
# Dotted paths

A text is taken apart at its dots, and parts are put together with dots between them. No part is lost,
not even an empty one, so the one undoes the other: for every text (`intercalate_splitDots`), and for
exactly those parts that hold no dots themselves (`splitDots_intercalate_iff`).

This is how paths are read and written (`dotted_paths_invert`). The path of a join is given in two pieces,
of which only the second is taken apart. It is the path that the two pieces make together, unless the
first one holds a dot.
-/

set_option autoImplicit false

namespace EntityQuery

/-! ## Texts and their parts -/

theorem splitOn_eq_splitChars (cs : List Char) :
    cs.splitOn '.' = (splitChars cs).1 :: (splitChars cs).2 := by
  induction cs with
  | nil => rfl
  | cons c cs ih =>
    rw [List.splitOn_cons_eq_if_modifyHead, ih, splitChars]
    by_cases hc : c = '.' <;> simp [hc]

theorem toList_splitDots (s : String) : (splitDots s).map String.toList = s.toList.splitOn '.' := by
  simp [splitDots, splitOn_eq_splitChars]

theorem eq_of_map_toList {names others : List String}
    (h : names.map String.toList = others.map String.toList) : names = others :=
  List.map_injective_iff.2 (fun _ _ => String.toList_inj.1) h

theorem splitDots_of_notMem {s : String} (h : '.' ∉ s.toList) : splitDots s = [s] := by
  apply eq_of_map_toList
  rw [toList_splitDots, List.splitOn_eq_singleton h]
  rfl

/-- A text is made of the parts between its dots. -/
theorem intercalate_splitDots (s : String) : ".".intercalate (splitDots s) = s := by
  have hdot : ".".toList = ['.'] := rfl
  rw [← String.toList_inj, String.toList_intercalate, hdot, toList_splitDots,
    List.intercalate_splitOn]

/-- Names without dots are found again between the dots. -/
theorem splitDots_intercalate {names : List String} (hne : names ≠ [])
    (h : ∀ name ∈ names, '.' ∉ name.toList) : splitDots (".".intercalate names) = names := by
  have hdot : ".".toList = ['.'] := rfl
  apply eq_of_map_toList
  rw [toList_splitDots, String.toList_intercalate, hdot]
  refine List.splitOn_intercalate '.' (fun cs hcs => ?_) (by simpa using hne)
  obtain ⟨name, hname, rfl⟩ := List.mem_map.1 hcs
  exact h name hname

theorem notMem_of_mem_splitChars (cs : List Char) :
    ∀ part ∈ (splitChars cs).1 :: (splitChars cs).2, '.' ∉ part := by
  induction cs with
  | nil => simp [splitChars]
  | cons c cs ih =>
    rw [splitChars]
    by_cases hc : c = '.'
    · simpa [hc] using ih
    · simpa [hc, Ne.symm hc] using ih

/-- No part of a text between its dots holds one. -/
theorem notMem_of_mem_splitDots {s part : String} (h : part ∈ splitDots s) : '.' ∉ part.toList := by
  apply notMem_of_mem_splitChars s.toList
  rw [← splitOn_eq_splitChars, ← toList_splitDots]
  exact List.mem_map_of_mem h

theorem splitDots_intercalate_iff {names : List String} (hne : names ≠ []) :
    splitDots (".".intercalate names) = names ↔ ∀ name ∈ names, '.' ∉ name.toList := by
  refine ⟨fun h name hname => ?_, splitDots_intercalate hne⟩
  rw [← h] at hname
  exact notMem_of_mem_splitDots hname

/-! ## Paths -/

namespace AttributePath

/-- The parts of a path: the from-element that it starts at, then the attributes. -/
def parts (p : AttributePath) : List String := p.start :: p.segments

theorem parts_inj {p q : AttributePath} : p.parts = q.parts ↔ p = q := by
  rw [parts, parts, List.cons.injEq, AttributePath.mk.injEq]

theorem parts_parse (text : String) : (parse text).parts = splitDots text := rfl

theorem dotted_eq (p : AttributePath) : p.dotted = ".".intercalate p.parts := by
  obtain ⟨start, segments⟩ := p
  rw [dotted, parts]
  induction segments generalizing start with
  | nil => exact String.intercalate_singleton.symm
  | cons segment segments ih =>
    rw [List.foldl_cons, ih, String.intercalate_cons_append, String.intercalate_cons_cons]

theorem dotted_parse (text : String) : (parse text).dotted = text := by
  rw [dotted_eq, parts_parse, intercalate_splitDots]

theorem parse_dotted_iff (p : AttributePath) :
    parse p.dotted = p ↔ ∀ part ∈ p.parts, '.' ∉ part.toList := by
  rw [← parts_inj, parts_parse, dotted_eq]
  exact splitDots_intercalate_iff (List.cons_ne_nil _ _)

/-- The pieces of a join are written as one path. -/
theorem dotted_join (start attributes : String) :
    dotted ⟨start, splitDots attributes⟩ = start ++ "." ++ attributes := by
  have hne : splitDots attributes ≠ [] := List.cons_ne_nil _ _
  rw [dotted_eq, parts, String.intercalate_cons_of_ne_nil hne, intercalate_splitDots]

theorem join_eq_parse_iff (start attributes : String) :
    ⟨start, splitDots attributes⟩ = parse (start ++ "." ++ attributes) ↔ '.' ∉ start.toList := by
  rw [eq_comm, ← dotted_join, parse_dotted_iff, parts, List.forall_mem_cons, and_iff_left_iff_imp]
  intro _ part hpart
  exact notMem_of_mem_splitDots hpart

end AttributePath

open AttributePath in
/-- The path that is read from a text is written as that text again, wherever its dots stand. A written
path is read as the same path exactly if no part of it holds a dot. The path of a join is the one that is
read from its start and its attributes with a dot between them, exactly if the start holds no dot; the join
then adds the group that this path leads to. -/
theorem dotted_paths_invert (text : String) (p : AttributePath) (start attributes : String) :
    (parse text).dotted = text ∧
    (parse p.dotted = p ↔ '.' ∉ p.start.toList ∧ ∀ segment ∈ p.segments, '.' ∉ segment.toList) ∧
    (⟨start, splitDots attributes⟩ = parse (start ++ "." ++ attributes) ↔ '.' ∉ start.toList) ∧
    ('.' ∉ start.toList → ∀ (s : Scope) (m : Metamodel) (aliasBase : String),
      s.joinedGroup m (.attributeOf start attributes) aliasBase =
        s.attributeGroup m (parse (start ++ "." ++ attributes)) aliasBase) := by
  refine ⟨dotted_parse text, ?_, join_eq_parse_iff start attributes, fun hstart s m aliasBase => ?_⟩
  · rw [parse_dotted_iff, parts, List.forall_mem_cons]
  · rw [Scope.joinedGroup, (join_eq_parse_iff start attributes).2 hstart]

open AttributePath in
/-- Dots at the ends of a text and side by side. -/
theorem empty_parts_kept :
    (parse ".a..b.").dotted = ".a..b." ∧
    parse (dotted ⟨"", ["a", "", "b", ""]⟩) = ⟨"", ["a", "", "b", ""]⟩ ∧
    (⟨"o", splitDots ".lines."⟩ : AttributePath) = parse "o..lines." ∧
    ∀ (s : Scope) (m : Metamodel) (aliasBase : String),
      s.joinedGroup m (.attributeOf "o" ".lines.") aliasBase =
        s.attributeGroup m ⟨"o", ["", "lines", ""]⟩ aliasBase := by
  have hstart : '.' ∉ "o".toList := by decide
  obtain ⟨htext, hpath, hjoin, hgroup⟩ :=
    dotted_paths_invert ".a..b." ⟨"", ["a", "", "b", ""]⟩ "o" ".lines."
  exact ⟨htext, hpath.2 (by decide), hjoin.2 hstart, hgroup hstart⟩

end EntityQuery
