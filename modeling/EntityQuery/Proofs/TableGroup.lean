import EntityQuery.Lowering.AliasBases
import EntityQuery.Lowering.TableGroup
import EntityQuery.Proofs.Run
import Mathlib.Data.List.Basic

/-!
# Table groups and their variables

`Metamodel.Covers m base ids g`: the tables of the group `g` are `ids` in order, under the
identification variables `base_0`, `base_1`, …. Every group that is built covers the tables it was
built for (`entityGroup_ok`, `linkGroup_ok`, `collectionGroup_ok`).

An identification variable tells the number of its alias base and the place of its table
(`variableAt_inj`), whatever the stem: the stem is the same for all, and no decimal contains the
mark between the two numbers.
-/

set_option autoImplicit false

namespace EntityQuery

open Sql (TableUse TableJoin TableGroup)

/-! ## Identification variables -/

/-- The identification variable at a place of the group with the given alias base. -/
def variableAt (aliasBase : String) (position : Nat) : String := s!"{aliasBase}_{position}"

theorem toList_variableAt (aliasBase : String) (position : Nat) :
    (variableAt aliasBase position).toList =
      aliasBase.toList ++ '_' :: Nat.toDigits 10 position := by
  simp [variableAt, toString]

theorem toDigits_inj {n k : Nat} (h : Nat.toDigits 10 n = Nat.toDigits 10 k) : n = k := by
  rw [← Nat.ofDigitChars_toDigits (b := 10) (n := n) (by decide) (by decide), h,
    Nat.ofDigitChars_toDigits (by decide) (by decide)]

theorem AliasBases.base_inj {stem : String} {n k : Nat} (h : base stem n = base stem k) : n = k := by
  have h' := congrArg String.toList h
  simp only [base, String.toList_append, Nat.toString_eq_repr, Nat.toList_repr,
    List.append_cancel_left_eq] at h'
  exact toDigits_inj h'

theorem variableAt_inj {stem : String} {n k i j : Nat}
    (h : variableAt (AliasBases.base stem n) i = variableAt (AliasBases.base stem k) j) :
    n = k ∧ i = j := by
  have h' := congrArg String.toList h
  simp only [toList_variableAt, AliasBases.base, String.toList_append, Nat.toString_eq_repr,
    Nat.toList_repr, List.append_assoc, List.append_cancel_left_eq] at h'
  -- the first mark after the stem ends the number of the alias base
  obtain ⟨h1, -, h2⟩ := (List.append_cons_inj_of_notMem Nat.underscore_not_in_toDigits
    Nat.underscore_not_in_toDigits).1 h'
  exact ⟨toDigits_inj h1, toDigits_inj h2⟩

namespace Metamodel

/-! ## Look-ups -/

theorem entity_name {m : Metamodel} {name : String} {e : Entity} (h : m.entity name = .ok e) :
    e.name = name := by
  unfold entity entity? at h
  split at h
  · rename_i found hf
    cases h
    simpa using List.find?_some hf
  · cases h

theorem elementEntity_ok {m : Metamodel} {p : PluralAttribute} {e : Entity}
    (h : m.elementEntity p = .ok e) : p.elementEntity? = some e.name ∧ m.entity e.name = .ok e := by
  unfold elementEntity at h
  split at h
  · rename_i name hn
    have : e.name = name := entity_name h
    exact ⟨by rw [hn, this], by rw [this]; exact h⟩
  · cases h

theorem entity_of_elements {m : Metamodel} {p : PluralAttribute} {e : Entity} {entity : String}
    (h : m.elementEntity p = .ok e) (ht : p.element.elementType = .entity entity) :
    m.entity entity = .ok e := by
  obtain ⟨hname, he⟩ := elementEntity_ok h
  rw [PluralAttribute.elementEntity?, ht, Option.some.injEq] at hname
  rw [hname]
  exact he

/-! ## Tables in use -/

/-- A table in use has the reference that the database has for it. -/
def Refers (m : Metamodel) (use : TableUse) : Prop :=
  ∃ table, m.database.table? use.id = some table ∧ use.reference = table.reference

theorem tableUse_ok {m : Metamodel} {base : String} {position : Nat} {id : TableId}
    {use : TableUse} (h : m.tableUse base position id = .ok use) :
    use.id = id ∧ use.variableName = variableAt base position ∧ m.Refers use := by
  unfold tableUse at h
  split at h
  · rename_i table ht
    cases h
    exact ⟨rfl, rfl, table, ht, rfl⟩
  · cases h

theorem tableUses_ok {m : Metamodel} {base : String} :
    ∀ {position : Nat} {ids : List TableId} {uses : List TableUse},
      m.tableUses base position ids = .ok uses →
      uses.map (·.id) = ids ∧
      uses.map (·.variableName) = (List.range' position ids.length).map (variableAt base) ∧
      ∀ use ∈ uses, m.Refers use
  | _, [], _, h => by cases h; simp
  | position, id :: ids, uses, h => by
    simp only [tableUses, Except.bind_eq_ok, Except.pure_eq_ok] at h
    obtain ⟨use, hu, rest, hr, rfl⟩ := h
    obtain ⟨h1, h2, h3⟩ := tableUse_ok hu
    obtain ⟨r1, r2, r3⟩ := tableUses_ok hr
    refine ⟨by simp [h1, r1], by simp [h2, r2, List.range'_succ], ?_⟩
    rintro u hu
    rcases List.mem_cons.1 hu with rfl | hu
    · exact h3
    · exact r3 u hu

/-! ## Groups -/

/-- The tables of a group are `ids` in order, called by the alias base `base` and their places. -/
structure Covers (m : Metamodel) (base : String) (ids : List TableId) (g : TableGroup) : Prop where
  aliasBase : g.aliasBase = base
  tables : g.tables.map (·.id) = ids
  named : g.tables.map (·.variableName) = (List.range ids.length).map (variableAt base)
  refers : ∀ use ∈ g.tables, m.Refers use

/-- A group has the alias base of a number. -/
def Numbered (m : Metamodel) (stem : String) (g : TableGroup) (number : Nat) : Prop :=
  ∃ ids, m.Covers (AliasBases.base stem number) ids g

theorem Covers.length {m : Metamodel} {base : String} {ids : List TableId} {g : TableGroup}
    (h : m.Covers base ids g) : g.tables.length = ids.length := by
  simpa using congrArg List.length h.tables

/-- The table at a place of a group, from the place among the tables it covers. -/
theorem Covers.table? {m : Metamodel} {base : String} {ids : List TableId} {g : TableGroup}
    (h : m.Covers base ids g) {position : Nat} {id : TableId} (hp : ids[position]? = some id) :
    ∃ use, g.table? position = some use ∧ use ∈ g.tables ∧ use.id = id ∧
      use.variableName = variableAt base position ∧ m.Refers use := by
  have hlt : position < g.tables.length := by
    rw [h.length]
    exact (List.getElem?_eq_some_iff.1 hp).1
  refine ⟨g.tables[position], List.getElem?_eq_getElem hlt, List.getElem_mem hlt, ?_, ?_,
    h.refers _ (List.getElem_mem hlt)⟩
  · have := congrArg (·[position]?) h.tables
    simp only [List.getElem?_map, List.getElem?_eq_getElem hlt, Option.map_some, hp] at this
    exact Option.some.inj this
  · have := congrArg (·[position]?) h.named
    rw [h.length] at hlt
    simpa [List.getElem?_map, hlt, h.length] using this

theorem entityGroup_ok {m : Metamodel} {e : Entity} {base : String} {g : TableGroup}
    (h : m.entityGroup e base = .ok g) :
    m.Covers base e.tables g ∧ g.kind = .entity e.name ∧ g.elementOffset = 0 ∧
      ∀ j ∈ g.tableJoins, j.joinType = .left ∧ j.predicate = none := by
  simp only [entityGroup, Except.bind_eq_ok, Except.pure_eq_ok] at h
  obtain ⟨root, hr, more, hm, rfl⟩ := h
  obtain ⟨r1, r2, r3⟩ := tableUse_ok hr
  obtain ⟨m1, m2, m3⟩ := tableUses_ok hm
  refine ⟨⟨rfl, ?_, ?_, ?_⟩, rfl, rfl, by simp⟩
  · simp [Sql.TableGroupOf.tables, Entity.tables, r1, ← m1, Function.comp_def]
  · rw [List.range_eq_range']
    simp [Sql.TableGroupOf.tables, Entity.tables, r2, m2, Function.comp_def, List.range'_succ]
  · simp only [Sql.TableGroupOf.tables, List.map_map, List.mem_cons]
    rintro use (rfl | hu)
    · exact r3
    · exact m3 use (by simpa using hu)

theorem linkGroup_ok {m : Metamodel} {p : PluralAttribute} {link : TableId} {e : Entity}
    {base : String} {g : TableGroup} (h : m.linkGroup p link e base = .ok g) :
    m.Covers base (link :: e.tables) g ∧ g.kind = .collection p.role ∧ g.elementOffset = 1 ∧
      ∀ j ∈ g.tableJoins, ∀ q, j.predicate = some q →
        ∃ lhs rhs, Sql.Predicate.equality lhs rhs = some q := by
  simp only [linkGroup, Except.bind_eq_ok, Except.pure_eq_ok] at h
  obtain ⟨root, hr, first, hf, references, -, identifiers, -, more, hm, rfl⟩ := h
  obtain ⟨r1, r2, r3⟩ := tableUse_ok hr
  obtain ⟨f1, f2, f3⟩ := tableUse_ok hf
  obtain ⟨m1, m2, m3⟩ := tableUses_ok hm
  refine ⟨⟨rfl, ?_, ?_, ?_⟩, rfl, rfl, ?_⟩
  · simp [Sql.TableGroupOf.tables, Entity.tables, r1, f1, ← m1, Function.comp_def]
  · rw [List.range_eq_range']
    simp [Sql.TableGroupOf.tables, Entity.tables, r2, f2, m2, Function.comp_def, List.range'_succ]
  · simp only [Sql.TableGroupOf.tables, List.map_cons, List.map_map, List.mem_cons]
    rintro use (rfl | rfl | hu)
    · exact r3
    · exact f3
    · exact m3 use (by simpa using hu)
  · simp only [List.mem_cons, List.mem_map]
    rintro j (rfl | ⟨use, -, rfl⟩) q hq
    · exact ⟨_, _, hq⟩
    · cases hq

/-- What the group of a collection covers, by the kind of its elements: the tables of the elements,
those behind a link table, or the collection table. -/
theorem collectionGroup_ok {m : Metamodel} {p : PluralAttribute} {base : String} {g : TableGroup}
    (h : m.collectionGroup p base = .ok g) :
    (p.element.kind = .oneToMany ∧ ∃ e, m.elementEntity p = .ok e ∧ m.entityGroup e base = .ok g) ∨
    (p.element.kind = .manyToMany ∧ ∃ link e, p.collectionTable = some link ∧
      m.elementEntity p = .ok e ∧ m.linkGroup p link e base = .ok g) ∨
    ((p.element.kind = .basic ∨ p.element.kind = .embeddable) ∧ ∃ table root,
      p.collectionTable = some table ∧ m.tableUse base 0 table = .ok root ∧
      g = ⟨base, .collection p.role, root, [], 0⟩) := by
  unfold collectionGroup at h
  have table {t : TableId} (ht : collectionTable p = .ok t) : p.collectionTable = some t := by
    unfold collectionTable at ht
    split at ht
    · rename_i t' ht'
      cases ht
      exact ht'
    · cases ht
  split at h
  · rename_i hk
    obtain ⟨e, he, hg⟩ := Except.bind_eq_ok.1 h
    exact .inl ⟨hk, e, he, hg⟩
  · rename_i hk
    simp only [Except.bind_eq_ok] at h
    obtain ⟨link, hl, e, he, hg⟩ := h
    exact .inr (.inl ⟨hk, link, e, table hl, he, hg⟩)
  · rename_i hk
    simp only [Except.bind_eq_ok, Except.pure_eq_ok] at h
    obtain ⟨t, ht, root, hr, rfl⟩ := h
    exact .inr (.inr ⟨.inl hk, t, root, table ht, hr, rfl⟩)
  · rename_i hk
    simp only [Except.bind_eq_ok, Except.pure_eq_ok] at h
    obtain ⟨t, ht, root, hr, rfl⟩ := h
    exact .inr (.inr ⟨.inr hk, t, root, table ht, hr, rfl⟩)
  · cases h

theorem collectionGroup_covers {m : Metamodel} {p : PluralAttribute} {base : String}
    {g : TableGroup} (h : m.collectionGroup p base = .ok g) : ∃ ids, m.Covers base ids g := by
  obtain ⟨-, e, -, hg⟩ | ⟨-, link, e, -, -, hg⟩ | ⟨-, table, root, -, hr, rfl⟩ :=
    collectionGroup_ok h
  · exact ⟨_, (entityGroup_ok hg).1⟩
  · exact ⟨_, (linkGroup_ok hg).1⟩
  · obtain ⟨r1, r2, r3⟩ := tableUse_ok hr
    exact ⟨[table], rfl, by simp [Sql.TableGroupOf.tables, r1],
      by simp [Sql.TableGroupOf.tables, r2], by simpa [Sql.TableGroupOf.tables] using r3⟩

end Metamodel

end EntityQuery
