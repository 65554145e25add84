import EntityQuery.Definition.Hierarchy
import EntityQuery.Proofs.Keys
import EntityQuery.Proofs.Run
import Mathlib.Logic.Relation

/-!
# Hierarchies of a valid definition

`Definition.Extends` leads from an entity to its parent. In a definition whose entities all have
ancestors (`Rooted`), so in every valid one, the ancestors and descendants that are computed with a
budget are all there are (`mem_ancestors_iff`, `mem_descendants_iff`), and the line of an entity is
what it should be (`mem_line_iff`).

Every line lies within the hierarchy of its root, whose attributes have names of their own: an
attribute of a line is known by its name (`declared_unique`), which is not that of the identifier
(`declared_ne_identifier`).
-/

set_option autoImplicit false

namespace EntityQuery.Definition

open Relation (TransGen ReflTransGen)

/-- `p` is the parent of `c`. -/
def Extends (d : Definition) (c p : EntityDefinition) : Prop :=
  p ∈ d.entities ∧ c.parent = some p.name

/-! ## Valid definitions -/

theorem firstRepeated_eq_none : ∀ {seen xs : List String}, firstRepeated seen xs = none →
    xs.Nodup ∧ ∀ x ∈ xs, x ∉ seen
  | _, [], _ => ⟨.nil, by simp⟩
  | seen, x :: xs, h => by
    rw [firstRepeated] at h
    split at h
    · cases h
    · rename_i hx
      obtain ⟨hn, hs⟩ := firstRepeated_eq_none h
      refine ⟨List.nodup_cons.2 ⟨fun hmem => hs x hmem List.mem_cons_self, hn⟩, ?_⟩
      exact List.forall_mem_cons.2 ⟨hx, fun y hy hys => hs y hy (List.mem_cons_of_mem x hys)⟩

theorem firstCollision_eq_none : ∀ {seen : List String} {xs : List (EntityDefinition × String)},
    firstCollision seen xs = none → (xs.map (·.2)).Nodup ∧ ∀ x ∈ xs, x.2 ∉ seen
  | _, [], _ => ⟨.nil, by simp⟩
  | seen, (e, name) :: xs, h => by
    rw [firstCollision] at h
    split at h
    · cases h
    · rename_i hx
      obtain ⟨hn, hs⟩ := firstCollision_eq_none h
      refine ⟨List.nodup_cons.2 ⟨fun hmem => ?_, hn⟩, ?_⟩
      · obtain ⟨y, hy, hname⟩ := List.mem_map.1 hmem
        exact hs y hy (hname ▸ List.mem_cons_self)
      · exact List.forall_mem_cons.2 ⟨hx, fun y hy hys => hs y hy (List.mem_cons_of_mem name hys)⟩

/-- What the checks of a definition ensure. -/
structure Valid (d : Definition) : Prop where
  embeddables : (d.embeddables.map (·.name)).Nodup
  names : (d.entities.map (·.name)).Nodup
  entities : ∀ e ∈ d.entities, d.checkEntity e = .ok ()
  roots : ∀ r ∈ d.entities, r.parent = none → d.checkNames r = .ok ()

theorem validate_ok {d : Definition} (h : d.validate = .ok ()) : d.Valid := by
  unfold validate at h
  obtain ⟨-, h⟩ := Except.guard_eq_ok.1 h
  cases hm : firstRepeated [] (d.embeddables.map (·.name)) with
  | some name =>
    simp only [hm, Except.bind_eq_ok] at h
    obtain ⟨_, ht, -⟩ := h
    exact absurd ht Except.throw_ne_ok
  | none =>
    cases hn : firstRepeated [] (d.entities.map (·.name)) with
    | some name =>
      simp only [hm, hn, Except.bind_eq_ok] at h
      obtain ⟨_, ht, -⟩ := h
      exact absurd ht Except.throw_ne_ok
    | none =>
      simp only [hm, hn, Except.bind_eq_ok] at h
      obtain ⟨_, hentities, hroots⟩ := h
      refine ⟨(firstRepeated_eq_none hm).1, (firstRepeated_eq_none hn).1,
        Except.forM_ok hentities, fun r hr hp => ?_⟩
      exact Except.forM_ok hroots r (List.mem_filter.2 ⟨hr, by simp [hp]⟩)

variable {d : Definition} {e c p D : EntityDefinition}

theorem mem_of_entity? {name : String} (h : d.entity? name = some e) :
    e ∈ d.entities ∧ e.name = name :=
  ⟨List.mem_of_find?_eq_some h, by simpa using List.find?_some h⟩

theorem entity?_of_mem (hn : (d.entities.map (·.name)).Nodup) (h : e ∈ d.entities) :
    d.entity? e.name = some e :=
  List.find?_of_nodup (f := EntityDefinition.name) hn h

theorem eq_of_name (hn : (d.entities.map (·.name)).Nodup) (hc : c ∈ d.entities)
    (hp : p ∈ d.entities) (h : c.name = p.name) : c = p := by
  have := entity?_of_mem hn hc
  rw [h, entity?_of_mem hn hp] at this
  exact (Option.some.inj this).symm

theorem extends_rightUnique (hn : (d.entities.map (·.name)).Nodup) :
    Relator.RightUnique d.Extends := by
  rintro c p p' ⟨hp, hc⟩ ⟨hp', hc'⟩
  exact eq_of_name hn hp hp' (Option.some.inj (hc.symm.trans hc'))

theorem Valid.entity? (hv : d.Valid) (h : e ∈ d.entities) : d.entity? e.name = some e :=
  entity?_of_mem hv.names h

theorem Valid.eq_of_name (hv : d.Valid) (hc : c ∈ d.entities) (hp : p ∈ d.entities)
    (h : c.name = p.name) : c = p :=
  Definition.eq_of_name hv.names hc hp h

theorem Valid.extends_rightUnique (hv : d.Valid) : Relator.RightUnique d.Extends :=
  Definition.extends_rightUnique hv.names

/-! ## Ancestors -/

theorem ancestorsFrom_nil {budget : Nat} {parent : Option String}
    (h : d.ancestorsFrom e budget parent = .ok []) : parent = none := by
  unfold ancestorsFrom at h
  split at h
  · rfl
  · split at h
    · cases h
    · split at h
      · cases h
      · split at h
        · cases h
        · simp only [Except.bind_eq_ok, Except.pure_eq_ok, reduceCtorEq, and_false,
            exists_false] at h

theorem ancestorsFrom_cons {budget : Nat} {parent : Option String} {rest : List EntityDefinition}
    (h : d.ancestorsFrom e budget parent = .ok (p :: rest)) :
    p ∈ d.entities ∧ parent = some p.name ∧ ∃ budget', budget = budget' + 1 ∧
      d.ancestorsFrom e budget' p.parent = .ok rest := by
  unfold ancestorsFrom at h
  split at h
  · cases h
  · split at h
    · cases h
    · rename_i found hp
      split at h
      · cases h
      · split at h
        · cases h
        · rename_i budget'
          simp only [Except.bind_eq_ok, Except.pure_eq_ok, List.cons.injEq] at h
          obtain ⟨_, hrest, rfl, rfl⟩ := h
          obtain ⟨hmem, rfl⟩ := mem_of_entity? hp
          exact ⟨hmem, rfl, budget', rfl, hrest⟩

theorem length_ancestorsFrom : ∀ {as : List EntityDefinition} {budget : Nat}
    {parent : Option String}, d.ancestorsFrom e budget parent = .ok as → as.length ≤ budget
  | [], _, _, _ => Nat.zero_le _
  | _ :: _, _, _, h => by
    obtain ⟨-, -, budget', rfl, hrest⟩ := ancestorsFrom_cons h
    exact Nat.succ_le_succ (length_ancestorsFrom hrest)

/-- The ancestors that are followed from an entity are those there are. -/
theorem mem_ancestorsFrom_iff (hn : (d.entities.map (·.name)).Nodup) :
    ∀ {as : List EntityDefinition} {budget : Nat} {c : EntityDefinition},
      d.ancestorsFrom e budget c.parent = .ok as → (D ∈ as ↔ TransGen d.Extends c D)
  | [], _, c, h => by
    have hnone := ancestorsFrom_nil h
    simp only [List.not_mem_nil, false_iff]
    intro hD
    obtain ⟨p, ⟨-, hp⟩, -⟩ := TransGen.head'_iff.1 hD
    simp [hnone] at hp
  | p :: _, _, c, h => by
    obtain ⟨hmem, hname, _, -, hrest⟩ := ancestorsFrom_cons h
    have hextends : d.Extends c p := ⟨hmem, hname⟩
    rw [List.mem_cons, mem_ancestorsFrom_iff hn hrest]
    constructor
    · rintro (rfl | hD)
      · exact .single hextends
      · exact .head hextends hD
    · intro hD
      obtain ⟨p', hp', hD⟩ := TransGen.head'_iff.1 hD
      cases extends_rightUnique hn hextends hp'
      exact Relation.reflTransGen_iff_eq_or_transGen.1 hD

/-- The last ancestor has no parent. -/
theorem last_ancestorsFrom : ∀ {as : List EntityDefinition} {budget : Nat} {c : EntityDefinition},
    d.ancestorsFrom e budget c.parent = .ok as → (as.getLast?.getD c).parent = none
  | [], _, _, h => ancestorsFrom_nil h
  | p :: _, _, _, h => by
    obtain ⟨-, -, _, -, hrest⟩ := ancestorsFrom_cons h
    simpa [List.getLast?_cons] using last_ancestorsFrom hrest

theorem mem_ancestors_iff (hn : (d.entities.map (·.name)).Nodup) {as : List EntityDefinition}
    (h : d.ancestors e = .ok as) : D ∈ as ↔ TransGen d.Extends e D :=
  mem_ancestorsFrom_iff hn h

/-- The entities are told apart by their names, and each of them has ancestors up to a root. -/
structure Rooted (d : Definition) : Prop where
  names : (d.entities.map (·.name)).Nodup
  ancestors : ∀ e ∈ d.entities, ∃ as, d.ancestors e = .ok as

theorem ancestors_of_checkEntity (h : d.checkEntity e = .ok ()) : ∃ as, d.ancestors e = .ok as := by
  simp only [checkEntity, root, Except.bind_eq_ok, Except.pure_eq_ok] at h
  obtain ⟨_, ⟨as, has, -⟩, -⟩ := h
  exact ⟨as, has⟩

theorem Valid.ancestors (hv : d.Valid) (he : e ∈ d.entities) : ∃ as, d.ancestors e = .ok as :=
  ancestors_of_checkEntity (hv.entities e he)

theorem Valid.rooted (hv : d.Valid) : d.Rooted := ⟨hv.names, fun _ he => hv.ancestors he⟩

theorem Valid.root (hv : d.Valid) (he : e ∈ d.entities) : ∃ r, d.root e = .ok r := by
  obtain ⟨as, has⟩ := hv.ancestors he
  exact ⟨_, Except.bind_eq_ok.2 ⟨as, has, rfl⟩⟩

theorem root_ok (hv : d.Valid) (he : e ∈ d.entities) {r : EntityDefinition}
    (h : d.root e = .ok r) :
    r ∈ d.entities ∧ r.parent = none ∧ ReflTransGen d.Extends e r := by
  simp only [root, Except.bind_eq_ok, Except.pure_eq_ok] at h
  obtain ⟨as, has, rfl⟩ := h
  have hlast := last_ancestorsFrom has
  cases hl : as.getLast? with
  | none =>
    rw [hl] at hlast
    exact ⟨he, hlast, .refl⟩
  | some r =>
    rw [hl] at hlast
    have hr := (mem_ancestors_iff hv.names has).1 (List.mem_of_getLast? hl)
    obtain ⟨_, -, hmem, -⟩ := TransGen.tail'_iff.1 hr
    exact ⟨hmem, hlast, hr.to_reflTransGen⟩

/-! ## Descendants -/

theorem mem_children_iff : c ∈ d.children e ↔ c ∈ d.entities ∧ c.parent = some e.name := by
  simp [children]

theorem extends_of_mem_descendantsWithin : ∀ {n : Nat} {e : EntityDefinition}, e ∈ d.entities →
    D ∈ d.descendantsWithin n e → D ∈ d.entities ∧ TransGen d.Extends D e
  | 0, _, _, h => by simp [descendantsWithin] at h
  | n + 1, e, he, h => by
    simp only [descendantsWithin, List.mem_flatMap, List.mem_cons] at h
    obtain ⟨child, hchild, h⟩ := h
    obtain ⟨hmem, hparent⟩ := mem_children_iff.1 hchild
    have hextends : d.Extends child e := ⟨he, hparent⟩
    rcases h with rfl | h
    · exact ⟨hmem, .single hextends⟩
    · obtain ⟨hD, htrans⟩ := extends_of_mem_descendantsWithin hmem h
      exact ⟨hD, .tail htrans hextends⟩

theorem child_mem_descendantsWithin : ∀ {n : Nat} {e : EntityDefinition},
    p ∈ d.descendantsWithin n e → c ∈ d.children p → c ∈ d.descendantsWithin (n + 1) e
  | 0, _, h, _ => by simp [descendantsWithin] at h
  | n + 1, e, h, hc => by
    rw [descendantsWithin, List.mem_flatMap] at h ⊢
    obtain ⟨child, hchild, h⟩ := h
    refine ⟨child, hchild, ?_⟩
    rcases List.mem_cons.1 h with rfl | h
    · refine List.mem_cons_of_mem _ (List.mem_flatMap.2 ⟨c, hc, List.mem_cons_self⟩)
    · exact List.mem_cons_of_mem _ (child_mem_descendantsWithin h hc)

theorem mem_descendantsWithin_of_mem_ancestorsFrom : ∀ {as : List EntityDefinition} {budget : Nat}
    {x c : EntityDefinition}, c ∈ d.entities → d.ancestorsFrom x budget c.parent = .ok as →
    e ∈ as → c ∈ d.descendantsWithin as.length e
  | [], _, _, _, _, _, he => by simp at he
  | p :: rest, _, _, c, hc, h, he => by
    obtain ⟨hmem, hname, _, -, hrest⟩ := ancestorsFrom_cons h
    rcases List.mem_cons.1 he with rfl | he
    · exact List.mem_flatMap.2 ⟨c, mem_children_iff.2 ⟨hc, hname⟩, List.mem_cons_self⟩
    · have hp := mem_descendantsWithin_of_mem_ancestorsFrom hmem hrest he
      exact child_mem_descendantsWithin hp (mem_children_iff.2 ⟨hc, hname⟩)

theorem descendantsWithin_mono : ∀ {n k : Nat} {e : EntityDefinition}, n ≤ k →
    D ∈ d.descendantsWithin n e → D ∈ d.descendantsWithin k e
  | 0, _, _, _, h => by simp [descendantsWithin] at h
  | n + 1, 0, _, hle, _ => absurd hle (Nat.not_succ_le_zero n)
  | n + 1, k + 1, e, hle, h => by
    rw [descendantsWithin, List.mem_flatMap] at h ⊢
    obtain ⟨child, hchild, h⟩ := h
    refine ⟨child, hchild, ?_⟩
    rcases List.mem_cons.1 h with rfl | h
    · exact List.mem_cons_self
    · exact List.mem_cons_of_mem _ (descendantsWithin_mono (Nat.le_of_succ_le_succ hle) h)

/-- The descendants that are followed from an entity are those there are: no line of descent is
longer than the number of entities. -/
theorem mem_descendants_iff (hr : d.Rooted) (he : e ∈ d.entities) :
    D ∈ d.descendants e ↔ D ∈ d.entities ∧ TransGen d.Extends D e := by
  refine ⟨extends_of_mem_descendantsWithin he, fun ⟨hD, h⟩ => ?_⟩
  obtain ⟨as, has⟩ := hr.ancestors D hD
  have hmem :=
    mem_descendantsWithin_of_mem_ancestorsFrom hD has ((mem_ancestors_iff hr.names has).2 h)
  exact descendantsWithin_mono (length_ancestorsFrom has) hmem

/-! ## Lines -/

/-- `D` is the entity `e`, an ancestor of it or a descendant of it. -/
def InLine (d : Definition) (e D : EntityDefinition) : Prop :=
  D = e ∨ TransGen d.Extends e D ∨ D ∈ d.entities ∧ TransGen d.Extends D e

theorem line_of_ancestors {as : List EntityDefinition} (h : d.ancestors e = .ok as) :
    d.line e = .ok (e :: as ++ d.descendants e) := by
  rw [line, h]
  rfl

theorem mem_line_iff (hv : d.Valid) (he : e ∈ d.entities) {members : List EntityDefinition}
    (h : d.line e = .ok members) : D ∈ members ↔ d.InLine e D := by
  simp only [line, Except.bind_eq_ok, Except.pure_eq_ok] at h
  obtain ⟨as, has, rfl⟩ := h
  simp only [List.cons_append, List.mem_cons, List.mem_append, mem_ancestors_iff hv.names has,
    mem_descendants_iff hv.rooted he, InLine]

theorem InLine.mem (he : e ∈ d.entities) (h : d.InLine e D) : D ∈ d.entities := by
  rcases h with rfl | h | ⟨hD, -⟩
  · exact he
  · obtain ⟨_, -, hD, -⟩ := TransGen.tail'_iff.1 h
    exact hD
  · exact hD

/-- Nothing is above an entity without a parent. -/
theorem eq_of_extends {r : EntityDefinition} (hr : r.parent = none)
    (h : ReflTransGen d.Extends r D) : D = r := by
  rcases Relation.reflTransGen_iff_eq_or_transGen.1 h with heq | h
  · exact heq
  · obtain ⟨_, ⟨-, hp⟩, -⟩ := TransGen.head'_iff.1 h
    simp [hr] at hp

/-- A line leads to its root. -/
theorem InLine.extends_root (hv : d.Valid) (he : e ∈ d.entities) (h : d.InLine e D)
    {r : EntityDefinition} (hr : d.root e = .ok r) : ReflTransGen d.Extends D r := by
  obtain ⟨-, hnone, her⟩ := root_ok hv he hr
  rcases h with rfl | h | ⟨-, h⟩
  · exact her
  · -- `D` and the root are both above `e`
    rcases ReflTransGen.total_of_right_unique hv.extends_rightUnique h.to_reflTransGen her with
      hD | hD
    · exact hD
    · rw [eq_of_extends hnone hD]
  · exact h.to_reflTransGen.trans her

/-- A line lies within the hierarchy of its root. -/
theorem InLine.mem_hierarchy (hv : d.Valid) (he : e ∈ d.entities) (h : d.InLine e D)
    {r : EntityDefinition} (hr : d.root e = .ok r) : D ∈ r :: d.descendants r := by
  obtain ⟨hmem, -, -⟩ := root_ok hv he hr
  rcases Relation.reflTransGen_iff_eq_or_transGen.1 (h.extends_root hv he hr) with rfl | hDr
  · exact List.mem_cons_self
  · exact List.mem_cons_of_mem _ ((mem_descendants_iff hv.rooted hmem).2 ⟨h.mem he, hDr⟩)

/-- All entities of a line have the same root. -/
theorem InLine.root_eq (hv : d.Valid) (he : e ∈ d.entities) (h : d.InLine e D) :
    d.root D = d.root e := by
  obtain ⟨r, hr⟩ := hv.root he
  obtain ⟨q, hq⟩ := hv.root (h.mem he)
  obtain ⟨-, hrnone, -⟩ := root_ok hv he hr
  obtain ⟨-, hqnone, hDq⟩ := root_ok hv (h.mem he) hq
  rw [hq, hr]
  rcases ReflTransGen.total_of_right_unique hv.extends_rightUnique hDq (h.extends_root hv he hr) with
    hqr | hrq
  · rw [eq_of_extends hqnone hqr]
  · rw [eq_of_extends hrnone hrq]

/-! ## Names of attributes -/

theorem checkNames_ok {r : EntityDefinition} (h : d.checkNames r = .ok ()) :
    ((declared (r :: d.descendants r)).map (·.2)).Nodup ∧
      ∀ x ∈ declared (r :: d.descendants r), x.2 ≠ (r.identifier.map (·.name)).getD "id" := by
  simp only [checkNames] at h
  split at h
  · cases h
  · rename_i hc
    obtain ⟨hn, hs⟩ := firstCollision_eq_none hc
    exact ⟨hn, fun x hx => by simpa using hs x hx⟩

theorem mem_declared {members : List EntityDefinition} {a : AttributeDefinition}
    (hD : D ∈ members) (ha : a ∈ D.attributes) : (D, a.name) ∈ declared members :=
  List.mem_flatMap.2 ⟨D, hD, List.mem_map_of_mem ha⟩

/-- The attributes of one member have names of their own. -/
theorem names_nodup_of_declared {members : List EntityDefinition} (hD : D ∈ members)
    (hn : ((declared members).map (·.2)).Nodup) : (D.attributes.map (·.name)).Nodup := by
  rw [declared, List.map_flatMap] at hn
  have := (List.nodup_flatMap.1 hn).1 D hD
  simpa [Function.comp_def] using this

/-- An attribute of a line is known by its name. -/
theorem declared_unique (hv : d.Valid) (he : e ∈ d.entities) {D' : EntityDefinition}
    {a a' : AttributeDefinition} (hD : d.InLine e D) (hD' : d.InLine e D') (ha : a ∈ D.attributes)
    (ha' : a' ∈ D'.attributes) (hname : a.name = a'.name) : D = D' ∧ a = a' := by
  obtain ⟨r, hr⟩ := hv.root he
  obtain ⟨hmem, hnone, -⟩ := root_ok hv he hr
  obtain ⟨hn, -⟩ := checkNames_ok (hv.roots _ hmem hnone)
  have hx := mem_declared (hD.mem_hierarchy hv he hr) ha
  have hx' := mem_declared (hD'.mem_hierarchy hv he hr) ha'
  have heq := List.inj_on_of_nodup_map hn hx hx' hname
  obtain rfl : D = D' := congrArg Prod.fst heq
  refine ⟨rfl, ?_⟩
  have hown := names_nodup_of_declared (hD.mem_hierarchy hv he hr) hn
  exact List.inj_on_of_nodup_map hown ha ha' hname

/-- No attribute of a line has the name of the identifier. -/
theorem declared_ne_identifier (hv : d.Valid) (he : e ∈ d.entities) {r : EntityDefinition}
    {id : IdentifierDefinition} {a : AttributeDefinition} (hr : d.root e = .ok r)
    (hid : r.identifier = some id) (hD : d.InLine e D) (ha : a ∈ D.attributes) :
    a.name ≠ id.name := by
  obtain ⟨hmem, hnone, -⟩ := root_ok hv he hr
  obtain ⟨-, hne⟩ := checkNames_ok (hv.roots _ hmem hnone)
  simpa [hid] using hne _ (mem_declared (hD.mem_hierarchy hv he hr) ha)

end EntityQuery.Definition
