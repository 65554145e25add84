import EntityQuery.Lowering.FromIndex
import Mathlib.Data.List.Basic
import Mathlib.Data.List.Nodup

/-!
# Places of groups and joins

The places of a list of spaces are determined by the numbers of joins in them (`shape`): the root of
each space comes before its joins, and spaces come in order (`places`). Read at its places, a list
of spaces gives its groups in order (`places_map_groupAt`) and its joins in order
(`places_filterMap_joinAt`).

A space that is opened and a join onto the last space each add one place at the end
(`places_open`, `places_join`).
-/

set_option autoImplicit false

namespace EntityQuery

/-! ## Places -/

/-- The places of the space of the given number with the given number of joins. -/
def spacePlaces (space joins : Nat) : List GroupLocator :=
  ⟨space, .root⟩ :: (List.range joins).map fun i => ⟨space, .join i⟩

/-- The places of spaces with the given numbers of joins, the first of which has the number
`space`. -/
def placesFrom : Nat → List Nat → List GroupLocator
  | _, [] => []
  | space, joins :: rest => spacePlaces space joins ++ placesFrom (space + 1) rest

/-- The numbers of joins of spaces. -/
def shape (spaces : List Sql.TableSpace) : List Nat := spaces.map (·.joins.length)

/-- The places of spaces: those of the first space, then those of the second, and so on. -/
def places (spaces : List Sql.TableSpace) : List GroupLocator := placesFrom 0 (shape spaces)

/-- The groups of spaces, in order. -/
def groupsOf (spaces : List Sql.TableSpace) : List Sql.TableGroup := spaces.flatMap (·.groups)

/-- The join at a place of a list of spaces. -/
def joinAt? (spaces : List Sql.TableSpace) (locator : GroupLocator) : Option Sql.GroupJoin := do
  let space ← spaces[locator.space]?
  match locator.position with
  | .root => none
  | .join index => space.joins[index]?

theorem spacePlaces_succ (space joins : Nat) :
    spacePlaces space (joins + 1) = spacePlaces space joins ++ [⟨space, .join joins⟩] := by
  simp [spacePlaces, List.range_succ]

theorem placesFrom_append : ∀ (space : Nat) (xs ys : List Nat),
    placesFrom space (xs ++ ys) = placesFrom space xs ++ placesFrom (space + xs.length) ys
  | _, [], _ => by simp [placesFrom]
  | space, x :: xs, ys => by
    simp only [List.cons_append, placesFrom, placesFrom_append (space + 1) xs ys, List.append_assoc,
      List.length_cons, Nat.add_comm, Nat.add_left_comm]

theorem le_space_of_mem_placesFrom : ∀ {space : Nat} {xs : List Nat} {l : GroupLocator},
    l ∈ placesFrom space xs → space ≤ l.space
  | _, [], _, h => by simp [placesFrom] at h
  | space, x :: xs, l, h => by
    simp only [placesFrom, spacePlaces, List.cons_append, List.mem_cons, List.mem_append,
      List.mem_map] at h
    rcases h with rfl | ⟨i, -, rfl⟩ | h
    · exact Nat.le_refl _
    · exact Nat.le_refl _
    · exact Nat.le_of_succ_le (le_space_of_mem_placesFrom h)

theorem spacePlaces_nodup (space joins : Nat) : (spacePlaces space joins).Nodup := by
  refine List.nodup_cons.2 ⟨by simp, ?_⟩
  refine List.Nodup.map (fun i k h => ?_) List.nodup_range
  simpa using h

theorem placesFrom_nodup : ∀ (space : Nat) (xs : List Nat), (placesFrom space xs).Nodup
  | _, [] => List.nodup_nil
  | space, x :: xs => by
    refine List.nodup_append.2 ⟨spacePlaces_nodup space x, placesFrom_nodup (space + 1) xs, ?_⟩
    rintro l hl l' hl' rfl
    have := le_space_of_mem_placesFrom hl'
    simp only [spacePlaces, List.mem_cons, List.mem_map] at hl
    rcases hl with rfl | ⟨i, -, rfl⟩ <;> exact absurd this (Nat.not_succ_le_self _)

theorem places_nodup (spaces : List Sql.TableSpace) : (places spaces).Nodup :=
  placesFrom_nodup 0 _

/-! ## What stands at the places -/

theorem groupAt?_append {before after : List Sql.TableSpace} {s : Sql.TableSpace}
    (position : GroupPosition) :
    groupAt? (before ++ s :: after) ⟨before.length, position⟩ =
      match position with
      | .root => some s.root
      | .join index => (s.joins[index]?).map (·.group) := by
  cases position <;> simp [groupAt?]

theorem joinAt?_append {before after : List Sql.TableSpace} {s : Sql.TableSpace}
    (position : GroupPosition) :
    joinAt? (before ++ s :: after) ⟨before.length, position⟩ =
      match position with
      | .root => none
      | .join index => s.joins[index]? := by
  cases position <;> simp [joinAt?]

theorem map_range_getElem? {α : Type} (xs : List α) :
    (List.range xs.length).map (xs[·]?) = xs.map some := by
  apply List.ext_getElem?
  intro i
  by_cases h : i < xs.length <;> simp [h]

theorem placesFrom_map_groupAt : ∀ (before rest : List Sql.TableSpace),
    (placesFrom before.length (shape rest)).map (groupAt? (before ++ rest)) =
      (groupsOf rest).map some
  | _, [] => rfl
  | before, s :: rest => by
    have hs : (spacePlaces before.length s.joins.length).map (groupAt? (before ++ s :: rest)) =
        s.groups.map some := by
      simp only [spacePlaces, List.map_cons, List.map_map, Sql.TableSpaceOf.groups,
        groupAt?_append, Function.comp_def, List.cons.injEq, true_and]
      have := congrArg (List.map (Option.map (·.group))) (map_range_getElem? s.joins)
      simpa [Function.comp_def] using this
    have ih := placesFrom_map_groupAt (before ++ [s]) rest
    simp only [List.length_append, List.length_cons, List.length_nil, List.append_assoc,
      List.cons_append, List.nil_append] at ih
    simp only [shape, List.map_cons, placesFrom, List.map_append, hs, groupsOf, List.flatMap_cons]
    exact congrArg _ ih

/-- Read at its places, a list of spaces gives its groups in order. -/
theorem places_map_groupAt (spaces : List Sql.TableSpace) :
    (places spaces).map (groupAt? spaces) = (groupsOf spaces).map some :=
  placesFrom_map_groupAt [] spaces

theorem groupAt?_of_place {spaces : List Sql.TableSpace} {k : Nat} {l : GroupLocator}
    (h : (places spaces)[k]? = some l) : groupAt? spaces l = (groupsOf spaces)[k]? := by
  have hmap := congrArg (·[k]?) (places_map_groupAt spaces)
  simp only [List.getElem?_map, h, Option.map_some] at hmap
  cases hg : (groupsOf spaces)[k]? with
  | none => simp [hg] at hmap
  | some g =>
    rw [hg] at hmap
    exact Option.some.inj hmap

theorem length_places (spaces : List Sql.TableSpace) :
    (places spaces).length = (groupsOf spaces).length := by
  simpa using congrArg List.length (places_map_groupAt spaces)

theorem placesFrom_filterMap_joinAt : ∀ (before rest : List Sql.TableSpace),
    (placesFrom before.length (shape rest)).filterMap (joinAt? (before ++ rest)) =
      rest.flatMap (·.joins)
  | _, [] => rfl
  | before, s :: rest => by
    have hs : (spacePlaces before.length s.joins.length).filterMap (joinAt? (before ++ s :: rest)) =
        s.joins := by
      simp only [spacePlaces, joinAt?_append, List.filterMap_cons_none, List.filterMap_map,
        Function.comp_def]
      have := congrArg (List.filterMap id) (map_range_getElem? s.joins)
      simpa [List.filterMap_map, Function.comp_def] using this
    have ih := placesFrom_filterMap_joinAt (before ++ [s]) rest
    simp only [List.length_append, List.length_cons, List.length_nil, List.append_assoc,
      List.cons_append, List.nil_append] at ih
    simp only [shape, List.map_cons, placesFrom, List.filterMap_append, hs, List.flatMap_cons]
    exact congrArg _ ih

/-- Read at its places, a list of spaces gives its joins in order. -/
theorem places_filterMap_joinAt (spaces : List Sql.TableSpace) :
    (places spaces).filterMap (joinAt? spaces) = spaces.flatMap (·.joins) :=
  placesFrom_filterMap_joinAt [] spaces

/-- What is gathered from all joins of a list of spaces, gathered at its places. -/
theorem flatMap_joins_eq {β : Type} (f : Sql.GroupJoin → List β) (spaces : List Sql.TableSpace) :
    (spaces.flatMap (·.joins)).flatMap f =
      (places spaces).flatMap fun l => (joinAt? spaces l).elim [] f := by
  rw [← places_filterMap_joinAt]
  induction places spaces with
  | nil => rfl
  | cons l ls ih => cases hl : joinAt? spaces l <;> simp [hl, ih]

/-! ## New places -/

theorem places_open (spaces : List Sql.TableSpace) (g : Sql.TableGroup) :
    places (spaces ++ [⟨g, []⟩]) = places spaces ++ [⟨spaces.length, .root⟩] := by
  simp [places, shape, placesFrom_append, placesFrom, spacePlaces]

theorem groupsOf_open (spaces : List Sql.TableSpace) (g : Sql.TableGroup) :
    groupsOf (spaces ++ [⟨g, []⟩]) = groupsOf spaces ++ [g] := by
  simp [groupsOf, Sql.TableSpaceOf.groups]

/-- The spaces with a join onto the one of the given number. -/
def joinedOnto (space : Nat) (j : Sql.GroupJoin) (spaces : List Sql.TableSpace) :
    List Sql.TableSpace :=
  spaces.modify space fun s => { s with joins := s.joins ++ [j] }

/-- A join onto the last space, with the spaces before it and the space itself made explicit. -/
theorem joinedOnto_last {spaces : List Sql.TableSpace} {space : Nat} (j : Sql.GroupJoin)
    (h : spaces.length = space + 1) :
    ∃ before s, spaces = before ++ [s] ∧ before.length = space ∧
      joinedOnto space j spaces = before ++ [{ s with joins := s.joins ++ [j] }] := by
  obtain ⟨before, s, after, rfl, hl, hm⟩ := List.exists_of_modify
    (fun s : Sql.TableSpace => { s with joins := s.joins ++ [j] }) (i := space) (l := spaces) (by omega)
  have : after = [] := by
    simp only [List.length_append, List.length_cons] at h
    exact List.length_eq_zero_iff.1 (by omega)
  subst this
  exact ⟨before, s, rfl, hl, hm⟩

theorem places_join (before : List Sql.TableSpace) (s : Sql.TableSpace) (j : Sql.GroupJoin) :
    places (before ++ [{ s with joins := s.joins ++ [j] }]) =
      places (before ++ [s]) ++ [⟨before.length, .join s.joins.length⟩] := by
  simp [places, shape, placesFrom_append, placesFrom, spacePlaces_succ]

theorem groupsOf_join (before : List Sql.TableSpace) (s : Sql.TableSpace) (j : Sql.GroupJoin) :
    groupsOf (before ++ [{ s with joins := s.joins ++ [j] }]) =
      groupsOf (before ++ [s]) ++ [j.group] := by
  simp [groupsOf, Sql.TableSpaceOf.groups]

end EntityQuery
