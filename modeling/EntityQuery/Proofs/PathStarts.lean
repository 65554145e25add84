import EntityQuery.Proofs.InternalFaults
import EntityQuery.Proofs.TwoRuns

/-!
# Paths from different kinds of from-elements

An entity comes into a from clause as a root, as an entity that is joined, behind a reference, or as
the element of a collection. A path from it means the same in all these cases
(`paths_agree_across_from_elements`): the tables of the entity stand in the group in the same order,
and only a link table comes before them (`Scope.ReadsEntity`).
-/

set_option autoImplicit false

namespace EntityQuery

/-! ## Errors -/

/-- Errors of the same variant that say the same, but for the path or the table that they name. -/
inductive LoweringError.Alike : LoweringError → LoweringError → Prop
  | same (e : LoweringError) : Alike e e
  | path {path path' : String} {fault : PathFault} :
      Alike (.invalidPath path fault) (.invalidPath path' fault)
  | table {base base' : String} {position position' : Nat} :
      Alike (.metamodel (.invalid (.noTableAt base position)))
        (.metamodel (.invalid (.noTableAt base' position')))

/-- What a path reaches does not depend on how the path is written. -/
theorem walk_alike {m : Metamodel} {path path' : String} :
    ∀ {segments : List String} {type : ManagedType},
      (walk m path type segments).Related LoweringError.Alike Eq (walk m path' type segments)
  | [], _ => .error .path
  | [_], _ => .of_eq .same rfl
  | name :: next :: rest, type => by
    unfold walk
    refine .bind (.of_eq .same rfl) fun {found _} _ heq => ?_
    subst heq
    cases found with
    | plural p => exact .error .path
    | singular a =>
      dsimp only
      cases a.kind with
      | basic => exact .error .path
      | any => exact .error (.same _)
      | embedded =>
        cases a.attributeType with
        | embeddable role => exact walk_alike
        | basic | entity | any | collection => exact .error (.same _)
      | manyToOne | oneToOne =>
        dsimp only
        split
        · refine .bind (.of_eq LoweringError.Alike.same rfl) fun {identifier _} _ heq => ?_
          subst heq
          cases identifier with
          | some identifier => exact .ok rfl
          | none => exact .error .path
        · exact .error .path

/-! ## Columns behind others -/

/-- Values made of the same columns, of the tables at one place behind `i` tables and behind `j`. -/
def SameColumns (base base' : String) (i j : Nat) (v w : Sql.Expression) : Prop :=
  ∃ k slots type, v = .ofColumns (slotReferences (variableAt base (k + i)) slots) type ∧
    w = .ofColumns (slotReferences (variableAt base' (k + j)) slots) type

namespace Metamodel

variable {m : Metamodel} {base : String} {before ids : List TableId} {g : Sql.TableGroup}

theorem Covers.table?_behind (h : m.Covers base (before ++ ids) g) {k : Nat} (hk : k < ids.length) :
    ∃ use, g.table? (k + before.length) = some use ∧
      use.variableName = variableAt base (k + before.length) := by
  have hat : (before ++ ids)[k + before.length]? = some ids[k] := by
    rw [List.getElem?_append_right (Nat.le_add_left _ _), Nat.add_sub_cancel,
      List.getElem?_eq_getElem hk]
  obtain ⟨use, huse, -, -, hname, -⟩ := h.table? hat
  exact ⟨use, huse, hname⟩

theorem Covers.table?_beyond (h : m.Covers base (before ++ ids) g) {k : Nat} (hk : ids.length ≤ k) :
    g.table? (k + before.length) = none := by
  refine List.getElem?_eq_none ?_
  rw [h.length, List.length_append]
  omega

/-- Columns of an entity are read in the same way behind any tables. -/
theorem columnsAt_alike {base' : String} {before' : List TableId} {g' : Sql.TableGroup}
    (h : m.Covers base (before ++ ids) g) (h' : m.Covers base' (before' ++ ids) g')
    {columns : List ColumnId} {slots : List Column} (hs : m.HasColumns columns slots) (k : Nat)
    (type : Option DomainType) :
    (lookedUp (m.columnsAt g (k + before.length) columns type)).Related LoweringError.Alike
      (SameColumns base base' before.length before'.length)
      (lookedUp (m.columnsAt g' (k + before'.length) columns type)) := by
  by_cases hk : k < ids.length
  · obtain ⟨use, huse, hname⟩ := h.table?_behind hk
    obtain ⟨use', huse', hname'⟩ := h'.table?_behind hk
    rw [columnsAt_eq_ok.2 ⟨use, slots, huse, hs, rfl⟩,
      columnsAt_eq_ok.2 ⟨use', slots, huse', hs, rfl⟩, hname, hname']
    exact .ok ⟨k, slots, type, rfl, rfl⟩
  · have hbeyond := Nat.le_of_not_lt hk
    simp only [columnsAt, h.table?_beyond hbeyond, h'.table?_beyond hbeyond]
    exact .error .table

end Metamodel

/-! ## From-elements over an entity -/

/-- A from-element gives access to an entity: its paths start there, the tables of the entity stand
in its group behind a number of others, and it has the identifier of the entity for a value. -/
structure Scope.ReadsEntity (s : Scope) (m : Metamodel) (E : Entity) (name : String) (shift : Nat)
    (ref : GroupRef) (g : Sql.TableGroup) : Prop where
  found : s.index.find? name = some ref
  group : s.group ref = .ok g
  start : ∀ path, s.start m ref path = .ok (.entity E.name, shift)
  tables : ∃ before, before.length = shift ∧ m.Covers ref.aliasBase (before ++ E.tables) g
  value : s.elementValue m ref =
    lookedUp (m.columnsAt g shift E.identifier.columns (some (.entity E.name)))

namespace Scope

variable {s t : Scope} {m : Metamodel} {E : Entity} {name other : String} {i j : Nat}
  {ref ref' : GroupRef} {g g' : Sql.TableGroup}

theorem ReadsEntity.path_eq (h : s.ReadsEntity m E name i ref g) (segments : List String) :
    s.path m ⟨name, segments⟩ =
      walk m (AttributePath.dotted ⟨name, segments⟩) (.entity E.name) segments >>= fun target =>
        s.pathValue m ⟨AttributePath.dotted ⟨name, segments⟩, ref, target, i⟩ := by
  have hresolve := FromIndex.resolve_ok.2 h.found
  simp only [Scope.path, resolve, hresolve, h.start, bind, Except.bind]
  cases walk m (AttributePath.dotted ⟨name, segments⟩) (.entity E.name) segments <;> rfl

theorem ReadsEntity.pathValue_eq (h : s.ReadsEntity m E name i ref g) (path : String)
    (target : PathTarget) :
    s.pathValue m ⟨path, ref, target, i⟩ = match target with
      | .attributeOf (.plural p) => .error (.invalidPath path (.collectionReferenced p.role))
      | .attributeOf (.singular a) =>
        if a.kind = .any then .error (.metamodel (.unsupported a.role .anyLowered))
        else lookedUp (m.columnsAt g (a.tablePosition + i) a.columns (some a.attributeType))
      | .foreignKey association identifier =>
        lookedUp (m.columnsAt g (association.tablePosition + i) association.columns
          (some identifier.attributeType)) := by
  simp only [pathValue, h.group, bind, Except.bind]
  cases target with
  | attributeOf a => cases a <;> rfl
  | foreignKey association identifier => rfl

/-- Two from-elements over one entity have the same paths. -/
theorem ReadsEntity.path_alike (hm : m.Complete) (h : s.ReadsEntity m E name i ref g)
    (h' : t.ReadsEntity m E other j ref' g') (segments : List String) :
    (s.path m ⟨name, segments⟩).Related LoweringError.Alike
      (SameColumns ref.aliasBase ref'.aliasBase i j) (t.path m ⟨other, segments⟩) := by
  rw [h.path_eq, h'.path_eq]
  refine .bind walk_alike fun {target _} hwalk heq => ?_
  subst heq
  rw [h.pathValue_eq, h'.pathValue_eq]
  obtain ⟨before, rfl, hcovers⟩ := h.tables
  obtain ⟨before', rfl, hcovers'⟩ := h'.tables
  obtain ⟨_, _, hfound⟩ := walk_found hwalk
  cases target with
  | attributeOf a =>
    cases a with
    | plural p => exact .error .path
    | singular a =>
      dsimp only
      split
      · exact .error (.same _)
      · obtain ⟨slots, hslots⟩ := Metamodel.hasColumns_of_contains (hm.attributes hfound).columns
        exact Metamodel.columnsAt_alike hcovers hcovers' hslots _ _
  | foreignKey association identifier =>
    obtain ⟨slots, hslots⟩ := Metamodel.hasColumns_of_contains (hm.attributes hfound).columns
    exact Metamodel.columnsAt_alike hcovers hcovers' hslots _ _

theorem ReadsEntity.of_entity (hr : s.index.find? name = some ref)
    (hs : ref.source = .entity E.name) (hg : s.group ref = .ok g) (hE : m.entity E.name = .ok E)
    (hgroup : m.entityGroup E ref.aliasBase = .ok g) : s.ReadsEntity m E name 0 ref g := by
  have hcovers := (Metamodel.entityGroup_ok hgroup).1
  have hstart (path : String) : s.start m ref path = .ok (.entity E.name, 0) := by
    simp only [Scope.start, hs]
  refine ⟨hr, hg, hstart, ⟨[], rfl, hcovers⟩, ?_⟩
  simp only [elementValue, hg, hs, bind, Except.bind, hE, liftM, monadLift, MonadLift.monadLift,
    lookedUp]

end Scope

section
variable {d : Definition} {m : Metamodel} {ems : List EntityMapping} {ps : List PendingEntity}
  {bare : List Entity} {r r1 r2 : Registry} (hb : d.Builds m ems ps bare r r1 r2)
  (hd : d.PlainAttributes) {type : ManagedType} {label : String} {p : PluralAttribute}
  (hf : m.find type label = .ok (.plural p))
include hb hd hf

/-- The collection that is kept under the role of another one has the same elements. -/
theorem Definition.Builds.kept_elements : ∃ q, m.collection p.role = .ok q ∧
    q.element.kind = p.element.kind ∧ q.element.elementType = p.element.elementType ∧
    ∀ g, m.elementValue q g = m.elementValue p g := by
  obtain ⟨E, hE, hp⟩ := hb.find_collection hf
  obtain ⟨q, hq⟩ := hb.exists_collection hE hp
  obtain ⟨hrole, E', hE', hq'⟩ := hb.collection hq
  obtain ⟨_, _, c, c', -, hof, hof', hroles, helement⟩ :=
    hb.collection_unique hd hE hp hE' hq' hrole.symm
  refine ⟨q, hq, ?_, ?_, fun g => hb.elementValue_eq hd hE hp hq⟩
  · rw [hof.kind, hof'.kind, helement]
  · rw [hof.type, hof'.type, helement, hroles]

/-- The elements of a collection of entities stand behind the link table, if there is one. -/
theorem Scope.ReadsEntity.of_collection {s : Scope} {name entity : String} {i : Nat}
    {ref : GroupRef} {g : Sql.TableGroup} (hr : s.index.find? name = some ref)
    (hs : ref.source = .collection p.role) (hg : s.group ref = .ok g)
    (hgroup : m.collectionGroup p ref.aliasBase = .ok g)
    (ht : p.element.elementType = .entity entity)
    (hk : p.element.kind = .oneToMany ∧ i = 0 ∨ p.element.kind = .manyToMany ∧ i = 1) :
    ∃ E, m.entity entity = .ok E ∧ s.ReadsEntity m E name i ref g := by
  obtain ⟨q, hq, hqkind, hqtype, hvalue⟩ := hb.kept_elements hd hf
  obtain ⟨E, he, hoffset, before, hbefore, hcovers⟩ : ∃ E, m.elementEntity p = .ok E ∧
      g.elementOffset = i ∧ ∃ before, before.length = i ∧
        m.Covers ref.aliasBase (before ++ E.tables) g := by
    have hgroup := Metamodel.collectionGroup_ok hgroup
    rcases hk with ⟨hk, rfl⟩ | ⟨hk, rfl⟩
    · simp only [hk, reduceCtorEq, false_and, or_false, true_and] at hgroup
      obtain ⟨E, he, hgroup⟩ := hgroup
      obtain ⟨hcovers, -, hoffset, -⟩ := Metamodel.entityGroup_ok hgroup
      exact ⟨E, he, hoffset, [], rfl, hcovers⟩
    · simp only [hk, reduceCtorEq, false_and, or_false, false_or, true_and] at hgroup
      obtain ⟨link, E, -, he, hgroup⟩ := hgroup
      obtain ⟨hcovers, -, hoffset, -⟩ := Metamodel.linkGroup_ok hgroup
      exact ⟨E, he, hoffset, [link], rfl, hcovers⟩
  have hE := Metamodel.entity_of_elements he ht
  obtain rfl := Metamodel.entity_name hE
  refine ⟨E, hE, hr, hg, fun path => ?_, ⟨before, hbefore, hcovers⟩, ?_⟩
  · unfold Scope.start
    rw [hs]
    refine Except.bind_eq_ok.2 ⟨q, lookedUp_of hq, ?_⟩
    rw [hqkind, hqtype, ht]
    rcases hk with ⟨hk, rfl⟩ | ⟨hk, rfl⟩ <;> rw [hk]
    · rfl
    · exact Except.bind_eq_ok.2 ⟨g, hg, by rw [hoffset]; rfl⟩
  · have hshifted : m.elementValue q g =
        m.columnsAt g i E.identifier.columns (some (.entity E.name)) := by
      rw [hvalue, ← hoffset]
      unfold Metamodel.elementValue
      rcases hk with ⟨hk, -⟩ | ⟨hk, -⟩ <;> rw [hk, he] <;> rfl
    rw [← hshifted]
    simp only [Scope.elementValue, hs, hg, hq, bind, Except.bind, liftM, monadLift,
      MonadLift.monadLift, lookedUp]

end

/-- What a join leads to is an entity: one that it names, one that a reference leads to, or the
elements of a collection. Before the tables of the entity stand those that the number counts. -/
inductive Scope.LeadsTo (s : Scope) (m : Metamodel) (entity : String) : JoinSource → Nat → Prop
  | entity : LeadsTo s m entity (.entity entity) 0
  | reference {start names : String} {x : ResolvedPath} {a : SingularAttribute}
      (leads : s.resolve m ⟨start, splitDots names⟩ = .ok x)
      (reached : x.target = .attributeOf (.singular a)) (type : a.attributeType = .entity entity) :
      LeadsTo s m entity (.attributeOf start names) 0
  | oneToMany {start names : String} {x : ResolvedPath} {p : PluralAttribute}
      (leads : s.resolve m ⟨start, splitDots names⟩ = .ok x)
      (reached : x.target = .attributeOf (.plural p)) (kind : p.element.kind = .oneToMany)
      (type : p.element.elementType = .entity entity) :
      LeadsTo s m entity (.attributeOf start names) 0
  | manyToMany {start names : String} {x : ResolvedPath} {p : PluralAttribute}
      (leads : s.resolve m ⟨start, splitDots names⟩ = .ok x)
      (reached : x.target = .attributeOf (.plural p)) (kind : p.element.kind = .manyToMany)
      (type : p.element.elementType = .entity entity) :
      LeadsTo s m entity (.attributeOf start names) 1

/-- A name stands for an entity in a scope, since a root or a join that leads to the entity has been
registered under it. -/
inductive Scope.NamesEntity (t : Scope) (m : Metamodel) (entity : String) : String → Nat → Prop
  | root {root : Root} {before after : Pass} {u : Unit}
      (run : Step.root m root before = .ok u after) (names : root.entity = entity)
      (later : after.scope.Grows t) :
      NamesEntity t m entity (nameFor root.aliasName before.generated) 0
  | join {j : Join} {before after : Pass} {u : Unit} {shift : Nat}
      (run : Step.join m j before = .ok u after)
      (leads : before.scope.LeadsTo m entity j.source shift) (later : after.scope.Grows t) :
      NamesEntity t m entity (nameFor j.aliasName before.generated) shift

namespace Scope

variable {s t : Scope} {m : Metamodel} {entity name base : String} {source : JoinSource} {i : Nat}
  {joined : JoinedGroup}

theorem joinedGroup_reference {start names : String} {x : ResolvedPath} {a : SingularAttribute}
    (hx : s.resolve m ⟨start, splitDots names⟩ = .ok x)
    (ha : x.target = .attributeOf (.singular a))
    (h : s.joinedGroup m (.attributeOf start names) base = .ok joined) :
    s.associationGroup m x a base = .ok joined := by
  simp only [joinedGroup, attributeGroup, hx, bind, Except.bind, ha] at h
  split at h
  · exact h
  · exact h
  · cases h
  · cases h
  · cases h

theorem joinedGroup_collection {start names : String} {x : ResolvedPath} {p : PluralAttribute}
    (hx : s.resolve m ⟨start, splitDots names⟩ = .ok x)
    (hp : x.target = .attributeOf (.plural p))
    (h : s.joinedGroup m (.attributeOf start names) base = .ok joined) :
    (∃ type label, m.find type label = .ok (.plural p)) ∧ joined.source = .collection p.role ∧
      m.collectionGroup p base = .ok joined.group := by
  obtain ⟨_, -, -, hw, -⟩ := resolve_ok hx
  rw [hp] at hw
  refine ⟨walk_found hw, ?_⟩
  simp only [joinedGroup, attributeGroup, hx, bind, Except.bind, hp] at h
  simp only [pluralGroup, Except.bind_eq_ok, Except.pure_eq_ok] at h
  obtain ⟨g, hg, _, -, _, -, rfl⟩ := h
  exact ⟨rfl, lookedUp_ok hg⟩

/-- A join that leads to an entity has joined the group of the entity, or that of a collection with
such elements. -/
theorem LeadsTo.joins (h : s.LeadsTo m entity source i)
    (hj : s.joinedGroup m source base = .ok joined) :
    (i = 0 ∧ ∃ E, m.entity entity = .ok E ∧ joined.source = .entity E.name ∧
      m.entityGroup E base = .ok joined.group) ∨
    ∃ type label p, m.find type label = .ok (.plural p) ∧ joined.source = .collection p.role ∧
      m.collectionGroup p base = .ok joined.group ∧ p.element.elementType = .entity entity ∧
      (p.element.kind = .oneToMany ∧ i = 0 ∨ p.element.kind = .manyToMany ∧ i = 1) := by
  cases h with
  | entity =>
    simp only [joinedGroup, Except.bind_eq_ok, Except.pure_eq_ok] at hj
    obtain ⟨E, hE, g, hg, rfl⟩ := hj
    exact .inl ⟨rfl, E, lookedUp_ok hE, rfl, lookedUp_ok hg⟩
  | reference leads reached type =>
    obtain ⟨E, _, _, _, _, htype, hE, hg, hs, -⟩ :=
      associationGroup_ok (joinedGroup_reference leads reached hj)
    cases type.symm.trans htype
    exact .inl ⟨rfl, E, hE, hs, hg⟩
  | oneToMany leads reached kind type =>
    obtain ⟨⟨_, _, hf⟩, hs, hg⟩ := joinedGroup_collection leads reached hj
    exact .inr ⟨_, _, _, hf, hs, hg, type, .inl ⟨kind, rfl⟩⟩
  | manyToMany leads reached kind type =>
    obtain ⟨⟨_, _, hf⟩, hs, hg⟩ := joinedGroup_collection leads reached hj
    exact .inr ⟨_, _, _, hf, hs, hg, type, .inr ⟨kind, rfl⟩⟩

/-- A from-element that names an entity gives access to it. -/
theorem NamesEntity.reads {d : Definition} (hm : d.metamodel = .ok m) (hd : d.PlainAttributes)
    (h : t.NamesEntity m entity name i) :
    ∃ E ref g, m.entity entity = .ok E ∧ t.ReadsEntity m E name i ref g := by
  obtain ⟨ems, ps, bare, r, r1, r2, hb⟩ := Definition.builds hm
  cases h with
  | @root root before after u run names later =>
    obtain ⟨E, base, bases, g, index, hE, -, hg, hi, rfl⟩ := Step.root_ok run
    rw [names] at hE
    have hname := Metamodel.entity_name hE
    have hfound := FromIndex.find?_of_mem ((FromIndex.add_ok hi).2.mem_iff.2 List.mem_cons_self)
    have hgroup : groupAt? (before.scope.spaces ++ [⟨g, []⟩])
        ⟨before.scope.spaces.length, .root⟩ = some g := groupAt?_append .root
    exact ⟨E, _, g, hE, .of_entity (later.index hfound) rfl (group_ok.2 (later.group hgroup))
      (hname ▸ hE) hg⟩
  | join run leads later =>
    obtain ⟨joined, ref, hj, -, hfound, hs, hgroup, -⟩ := Step.join_enters run
    have hfound := later.index hfound
    have hgroup := group_ok.2 (later.group hgroup)
    obtain ⟨rfl, E, hE, hs', hg⟩ | ⟨_, _, p, hf, hs', hg, ht, hk⟩ := leads.joins hj
    · have hname := Metamodel.entity_name hE
      exact ⟨E, ref, _, hE, .of_entity hfound (hs.trans hs') hgroup (hname ▸ hE) hg⟩
    · obtain ⟨E, hE, hreads⟩ :=
        ReadsEntity.of_collection hb hd hf hfound (hs.trans hs') hgroup hg ht hk
      exact ⟨E, ref, _, hE, hreads⟩

/-- A path to the identifier, and a reference to the from-element itself, read the identifier off
the first table of the entity. -/
theorem ReadsEntity.identifier {d : Definition} {E : Entity} {ref : GroupRef} {g : Sql.TableGroup}
    (hm : d.metamodel = .ok m) (hE : m.entity E.name = .ok E) (h : s.ReadsEntity m E name i ref g) :
    ∃ slots, m.HasColumns E.identifier.columns slots ∧
      s.elementValue m ref = .ok
        (.ofColumns (slotReferences (variableAt ref.aliasBase i) slots) (some (.entity E.name))) ∧
      s.path m ⟨name, [E.identifier.name]⟩ = .ok
        (.ofColumns (slotReferences (variableAt ref.aliasBase i) slots)
          (some E.identifier.attributeType)) := by
  obtain ⟨ems, ps, bare, r, r1, r2, hb⟩ := Definition.builds hm
  have hidentifier := (Definition.complete hm).identifier (Metamodel.mem_of_entity hE)
  obtain ⟨slots, hslots⟩ := Metamodel.hasColumns_of_contains hidentifier
  obtain ⟨before, rfl, hcovers⟩ := h.tables
  have hfirst : 0 < E.tables.length := Nat.zero_lt_succ _
  obtain ⟨use, huse, hname⟩ := hcovers.table?_behind hfirst
  rw [Nat.zero_add] at huse hname
  have hcolumns (type : Option DomainType) :
      m.columnsAt g before.length E.identifier.columns type =
        .ok (.ofColumns (slotReferences (variableAt ref.aliasBase before.length) slots) type) :=
    Metamodel.columnsAt_eq_ok.2 ⟨use, slots, huse, hslots, by rw [hname]⟩
  have hkey := hb.identifier_isKey hE
  refine ⟨slots, hslots, ?_, ?_⟩
  · rw [h.value, hcolumns]
    rfl
  · rw [h.path_eq, walk_entity hE (hb.find_identifier hE)]
    show s.pathValue m _ = _
    rw [h.pathValue_eq]
    simp only [if_neg hkey.kind, hkey.position, Nat.zero_add, hcolumns]
    rfl

end Scope

/-- A path means the same from every from-element over one entity. It fails alike from all of them,
or stands for the same columns of the same table of the entity; behind a link table that table has
the next number. A reference to the from-element is the path to the identifier of the entity. -/
theorem paths_agree_across_from_elements {d : Definition} {m : Metamodel} {entity x y : String}
    {s t : Scope} {i j : Nat} (hm : d.metamodel = .ok m) (hd : d.PlainAttributes)
    (hx : s.NamesEntity m entity x i) (hy : t.NamesEntity m entity y j) :
    ∃ E ref ref' slots, m.entity entity = .ok E ∧ s.index.find? x = some ref ∧
      t.index.find? y = some ref' ∧ m.HasColumns E.identifier.columns slots ∧
      (∀ q supply supply',
        (∃ e e', s.expression m (.path ⟨x, q⟩) supply = .error e supply ∧
          t.expression m (.path ⟨y, q⟩) supply' = .error e' supply' ∧ e.Alike e') ∨
        ∃ k slots type, s.expression m (.path ⟨x, q⟩) supply = .ok
            (.ofColumns (slotReferences (variableAt ref.aliasBase (k + i)) slots) type) supply ∧
          t.expression m (.path ⟨y, q⟩) supply' = .ok
            (.ofColumns (slotReferences (variableAt ref'.aliasBase (k + j)) slots) type) supply') ∧
      ∀ supply, s.expression m (.element x) supply = .ok (.ofColumns
            (slotReferences (variableAt ref.aliasBase i) slots) (some (.entity entity))) supply ∧
        s.expression m (.path ⟨x, [E.identifier.name]⟩) supply = .ok (.ofColumns
            (slotReferences (variableAt ref.aliasBase i) slots)
            (some E.identifier.attributeType)) supply := by
  obtain ⟨E, ref, g, hE, hreads⟩ := hx.reads hm hd
  obtain ⟨E', ref', g', hE', hreads'⟩ := hy.reads hm hd
  cases hE.symm.trans hE'
  obtain rfl := Metamodel.entity_name hE
  obtain ⟨slots, hslots, hvalue, hpath⟩ := hreads.identifier hm hE
  refine ⟨E, ref, ref', slots, hE, hreads.found, hreads'.found, hslots, fun q supply supply' => ?_,
    fun supply => ?_⟩
  · have halike := hreads.path_alike (Definition.complete hm) hreads' q
    simp only [Scope.expression_eq, Scope.expressionOfParts]
    generalize s.path m ⟨x, q⟩ = v, t.path m ⟨y, q⟩ = w at halike
    cases halike with
    | error related => exact .inl ⟨_, _, rfl, rfl, related⟩
    | ok related =>
      obtain ⟨k, slots, type, rfl, rfl⟩ := related
      exact .inr ⟨k, slots, type, rfl, rfl⟩
  · rw [Scope.expression_eq, Scope.expression_eq]
    refine ⟨settled_ok.2 ⟨?_, rfl⟩, settled_ok.2 ⟨hpath, rfl⟩⟩
    exact Except.bind_eq_ok.2 ⟨ref, FromIndex.resolve_ok.2 hreads.found, hvalue⟩

/-- Paintings, whose widths are kept with their frames, and the artists who painted them. -/
def exhibition : Definition :=
  let key : IdentifierDefinition := ⟨"id", [], none, none⟩
  ⟨none,
   [⟨"Painting", none, some "painting", ["frame"], none, some key, none,
      [.basic ⟨"width", "integer", some "frame_width", [], none, none, none, none, some "frame"⟩]⟩,
    ⟨"Artist", none, some "artist", [], none, some key, none,
      [.manyToMany ⟨"paintings", "Painting", "painted_by", ["artist_id"], ["painting_id"], .set,
        none⟩]⟩],
   []⟩

def anyArtist : Join := ⟨some "a", .inner, .entity "Artist", false, none⟩

def theirPaintings : Join := ⟨some "p", .inner, .attributeOf "a" "paintings", false, none⟩

/-- The width of a painting is read off the same column from a root and from an element, where the
link table moves it on by one. -/
theorem widths_agree_in_exhibition : ∃ m first second third ref ref' k slots type,
    exhibition.metamodel = .ok m ∧
    Step.root m ⟨"Painting", some "q"⟩ (.start .default) = .ok () first ∧
    Step.join m anyArtist first = .ok () second ∧ Step.join m theirPaintings second = .ok () third ∧
    third.scope.index.find? "q" = some ref ∧ third.scope.index.find? "p" = some ref' ∧
    third.scope.expression m (.path ⟨"q", ["width"]⟩) third.supply = .ok
      (.ofColumns (slotReferences (variableAt ref.aliasBase k) slots) type) third.supply ∧
    third.scope.expression m (.path ⟨"p", ["width"]⟩) third.supply = .ok
      (.ofColumns (slotReferences (variableAt ref'.aliasBase (k + 1)) slots) type)
      third.supply := by
  have hrun : (exhibition.metamodel.toOption.bind fun m =>
      ((do Step.root m ⟨"Painting", some "q"⟩; get : Step Pass).run' (.start .default)).bind
        fun first =>
      ((do Step.join m anyArtist; get : Step Pass).run' first).bind fun second =>
      ((do Step.join m theirPaintings; get : Step Pass).run' second).bind fun third =>
      (second.scope.resolve m ⟨"a", ["paintings"]⟩).toOption.bind fun x =>
      (m.collection "Artist.paintings").toOption.map fun p =>
        (decide (x.target = .attributeOf (.plural p)), p.element.kind, p.element.elementType,
          (third.scope.path m ⟨"q", ["width"]⟩).toOption.isSome)) =
        some (true, .manyToMany, .entity "Painting", true) := by
    decide +kernel
  obtain ⟨m, hm, hrun⟩ := Option.bind_eq_some_iff.1 hrun
  obtain ⟨first, hfirst, hrun⟩ := Option.bind_eq_some_iff.1 hrun
  obtain ⟨second, hsecond, hrun⟩ := Option.bind_eq_some_iff.1 hrun
  obtain ⟨third, hthird, hrun⟩ := Option.bind_eq_some_iff.1 hrun
  obtain ⟨x, hx, hrun⟩ := Option.bind_eq_some_iff.1 hrun
  obtain ⟨p, -, hrun⟩ := Option.map_eq_some_iff.1 hrun
  simp only [Prod.mk.injEq, decide_eq_true_eq] at hrun
  obtain ⟨htarget, hkind, htype, hwidth⟩ := hrun
  have hm := Except.toOption_eq_some.1 hm
  obtain ⟨_, hfirst⟩ := EStateM.exists_ok_of_get hfirst
  obtain ⟨_, hsecond⟩ := EStateM.exists_ok_of_get hsecond
  obtain ⟨_, hthird⟩ := EStateM.exists_ok_of_get hthird
  have hplain : exhibition.PlainAttributes := by
    unfold Definition.PlainAttributes
    decide +kernel
  obtain ⟨-, -, -, hgrows, -⟩ := Step.join_enters hsecond
  obtain ⟨-, -, -, hgrows', -⟩ := Step.join_enters hthird
  have hq : third.scope.NamesEntity m "Painting" "q" 0 :=
    .root hfirst rfl (hgrows.trans hgrows')
  have hp : third.scope.NamesEntity m "Painting" "p" 1 :=
    .join hthird (.manyToMany (Except.toOption_eq_some.1 hx) htarget hkind htype) (.refl _)
  obtain ⟨E, ref, ref', -, -, href, href', -, hpaths, -⟩ :=
    paths_agree_across_from_elements hm hplain hq hp
  obtain ⟨v, hv⟩ := Except.exists_ok_of_isSome hwidth
  obtain ⟨e, -, herror, -⟩ | ⟨k, slots, type, hq, hp⟩ :=
    hpaths ["width"] third.supply third.supply
  · rw [Scope.expression_eq] at herror
    cases herror.symm.trans (settled_ok.2 ⟨hv, rfl⟩)
  · exact ⟨m, first, second, third, ref, ref', k, slots, type, hm, hfirst, hsecond, hthird, href,
      href', hq, hp⟩

end EntityQuery
