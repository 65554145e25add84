import EntityQuery.Proofs.AssociationWidths

/-!
# Equalities between columns

What ties a group to the group it was reached from, and the tables of a group to each other, are
equalities between two lists of columns. `Metamodel.Compares`: the lists have the same width, and
the columns at each place are compared with each other.

The columns of an association and the key of a collection are compared in full: values of different
widths do not match (`Metamodel.matching_compares`). The columns of a link table are not checked
against the identifier behind it, so where one list is longer only its first columns are compared
(`Metamodel.Links`). The metamodel of a definition has no such links (`Builds.link_width`).

`generated_equalities_pair_columns` says so of every lowered statement.
-/

set_option autoImplicit false

namespace EntityQuery

/-! ## Columns side by side -/

/-- The column of the database that a reference is to. -/
def Sql.ColumnReference.slot (c : Sql.ColumnReference) : Column := ⟨c.expression, c.sqlCode⟩

namespace Metamodel

variable {m : Metamodel} {ids ids' : List ColumnId} {g : Sql.TableGroup}

/-- References to the columns at the given places, in order. -/
def HasReferences (m : Metamodel) (ids : List ColumnId) (references : List Sql.ColumnReference) :
    Prop :=
  List.Forall₂ (fun id c => m.database.column? id = some c.slot) ids references

/-- A predicate compares two lists of columns, the first with the first and so on to the last. -/
structure Compares (m : Metamodel) (ids ids' : List ColumnId) (predicate : Option Sql.Predicate) :
    Prop where
  width : ids.length = ids'.length
  paired : ∃ pairs : List (Sql.ColumnReference × Sql.ColumnReference),
    m.HasReferences ids (pairs.map Prod.fst) ∧ m.HasReferences ids' (pairs.map Prod.snd) ∧
    predicate = Sql.Predicate.conjunction
      (pairs.map fun pair => .comparison (.column pair.1) .equal (.column pair.2))

theorem hasReferences_zip {lhs rhs : List Sql.ColumnReference} (hl : m.HasReferences ids lhs)
    (hr : m.HasReferences ids' rhs) :
    m.HasReferences (ids.take ids'.length) ((lhs.zip rhs).map Prod.fst) ∧
      m.HasReferences (ids'.take ids.length) ((lhs.zip rhs).map Prod.snd) := by
  induction hl generalizing ids' rhs with
  | nil => simp [HasReferences]
  | cons h _ ih =>
    cases hr with
    | nil => simp [HasReferences]
    | cons h' hr =>
      obtain ⟨hfst, hsnd⟩ := ih hr
      exact ⟨.cons h hfst, .cons h' hsnd⟩

/-- An equality compares columns as long as both sides have them. -/
theorem equality_compares {lhs rhs : List Sql.ColumnReference} (hl : m.HasReferences ids lhs)
    (hr : m.HasReferences ids' rhs) :
    m.Compares (ids.take ids'.length) (ids'.take ids.length)
      (Sql.Predicate.equality (lhs.map .column) (rhs.map .column)) := by
  obtain ⟨hfst, hsnd⟩ := hasReferences_zip hl hr
  refine ⟨by simp [Nat.min_comm], lhs.zip rhs, hfst, hsnd, ?_⟩
  rw [Sql.Predicate.equality, List.zipWith_map, List.map_zip_eq_zipWith]
  rfl

theorem equality_compares_all {lhs rhs : List Sql.ColumnReference} (hl : m.HasReferences ids lhs)
    (hr : m.HasReferences ids' rhs) (hwidth : lhs.length = rhs.length) :
    m.Compares ids ids' (Sql.Predicate.equality (lhs.map .column) (rhs.map .column)) := by
  have hlength : ids.length = ids'.length := by
    rw [List.Forall₂.length_eq hl, List.Forall₂.length_eq hr, hwidth]
  have hcompares := equality_compares hl hr
  rwa [← hlength, List.take_length, hlength, List.take_length] at hcompares

/-! ## Values made up of columns -/

/-- The parts of a value are the columns at the given places. -/
def Composes (m : Metamodel) (ids : List ColumnId) (v : Sql.Expression) : Prop :=
  ∃ references, m.HasReferences ids references ∧ v.parts = references.map .column

theorem hasReferences_slots {slots : List Column} (variableName : String)
    (h : m.HasColumns ids slots) : m.HasReferences ids (slotReferences variableName slots) := by
  rw [HasReferences, slotReferences, List.forall₂_map_right_iff]
  exact h

/-- A value is made up of the columns that it was made of, whatever type it was given. -/
theorem composes_ofColumns {references : List Sql.ColumnReference} (type : Option DomainType)
    (h : m.HasReferences ids references) : m.Composes ids (.ofColumns references type) := by
  match references, h with
  | [], h => exact ⟨[], h, rfl⟩
  | [c], .cons hc hnil => exact ⟨[{ c with type := c.type <|> type }], .cons hc hnil, rfl⟩
  | c :: c' :: references, h => exact ⟨c :: c' :: references, h, rfl⟩

theorem columnsAt_composes {position : Nat} {type : Option DomainType} {v : Sql.Expression}
    (h : m.columnsAt g position ids type = .ok v) : m.Composes ids v := by
  obtain ⟨use, slots, -, hslots, rfl⟩ := columnsAt_eq_ok.1 h
  exact composes_ofColumns type (hasReferences_slots use.variableName hslots)

theorem keyValue_composes {p : PluralAttribute} {v : Sql.Expression}
    (h : m.keyValue p g = .ok v) : m.Composes p.keyColumns v := by
  simp only [keyValue, Except.bind_eq_ok, Except.pure_eq_ok] at h
  obtain ⟨references, hr, rfl⟩ := h
  refine composes_ofColumns none ((Except.mapM_ok hr).imp fun id c hc => ?_)
  unfold locatedReference at hc
  split at hc
  · obtain ⟨slot, hslot, rfl⟩ := columnReference_eq_ok.1 hc
    exact hslot
  · cases hc

/-- Values that match are compared in full. -/
theorem matching_compares {role : String} {lhs rhs : Sql.Expression} {p : Option Sql.Predicate}
    (hl : m.Composes ids lhs) (hr : m.Composes ids' rhs) (h : matching role lhs rhs = .ok p) :
    m.Compares ids ids' p := by
  obtain ⟨left, hleft, hlparts⟩ := hl
  obtain ⟨right, hright, hrparts⟩ := hr
  obtain ⟨hwidth, rfl⟩ := matching_eq_ok.1 h
  rw [hlparts, hrparts] at hwidth ⊢
  exact equality_compares_all hleft hright (by simpa using hwidth)

/-! ## From-elements -/

/-- The columns that stand for a from-element: the identifier of an entity, also of one that is the
element of a collection, or the columns of an element that is no entity. -/
inductive ValueColumns (m : Metamodel) : GroupSource → List ColumnId → Prop
  | entity {name : String} {e : Entity} (found : m.entity name = .ok e) :
      ValueColumns m (.entity name) e.identifier.columns
  | elementEntity {role : String} {p : PluralAttribute} {e : Entity}
      (found : m.collection role = .ok p)
      (kind : p.element.kind = .manyToMany ∨ p.element.kind = .oneToMany)
      (element : m.elementEntity p = .ok e) : ValueColumns m (.collection role) e.identifier.columns
  | element {role : String} {p : PluralAttribute} (found : m.collection role = .ok p)
      (kind : p.element.kind = .basic ∨ p.element.kind = .embeddable) :
      ValueColumns m (.collection role) p.element.columns

theorem elementValue_columns {role : String} {p : PluralAttribute} {v : Sql.Expression}
    (hp : m.collection role = .ok p) (h : m.elementValue p g = .ok v) :
    ∃ position ids type, m.ValueColumns (.collection role) ids ∧
      m.columnsAt g position ids type = .ok v := by
  unfold elementValue at h
  split at h
  · rename_i hk
    obtain ⟨e, he, hv⟩ := Except.bind_eq_ok.1 h
    exact ⟨_, _, _, .elementEntity hp (.inl hk) he, hv⟩
  · rename_i hk
    obtain ⟨e, he, hv⟩ := Except.bind_eq_ok.1 h
    exact ⟨_, _, _, .elementEntity hp (.inr hk) he, hv⟩
  · rename_i hk
    exact ⟨_, _, _, .element hp (.inl hk), h⟩
  · rename_i hk
    exact ⟨_, _, _, .element hp (.inr hk), h⟩
  · cases h

end Metamodel

/-- The value of a from-element is read off the columns that stand for it. -/
theorem Scope.elementValue_columns {s : Scope} {m : Metamodel} {ref : GroupRef}
    {v : Sql.Expression} (h : s.elementValue m ref = .ok v) :
    ∃ g position ids type, m.ValueColumns ref.source ids ∧
      m.columnsAt g position ids type = .ok v := by
  simp only [elementValue, Except.bind_eq_ok] at h
  obtain ⟨g, -, h⟩ := h
  split at h
  · rename_i hsource
    obtain ⟨e, he, hv⟩ := Except.bind_eq_ok.1 h
    rw [hsource]
    exact ⟨g, _, _, _, .entity (lookedUp_ok he), lookedUp_ok hv⟩
  · rename_i hsource
    obtain ⟨p, hp, hv⟩ := Except.bind_eq_ok.1 h
    rw [hsource]
    exact ⟨g, Metamodel.elementValue_columns (lookedUp_ok hp) (lookedUp_ok hv)⟩

/-! ## Groups -/

namespace Metamodel

variable {m : Metamodel} {p : PluralAttribute} {base : String} {g : Sql.TableGroup}

/-- Tables are joined without a predicate of their own. -/
def Plain (joins : List Sql.TableJoin) : Prop := ∀ j ∈ joins, j.predicate = none

/-- The tables of the group of a collection. Behind a link table, the first table of the elements is
joined by as many columns as both the link and the identifier of the elements have; no other table is
joined by columns. -/
inductive Links (m : Metamodel) (p : PluralAttribute) : List Sql.TableJoin → Prop
  | linked {e : Entity} {first : Sql.TableJoin} {more : List Sql.TableJoin}
      (kind : p.element.kind = .manyToMany) (element : m.elementEntity p = .ok e)
      (compares : m.Compares (p.element.columns.take e.identifier.columns.length)
        (e.identifier.columns.take p.element.columns.length) first.predicate)
      (plain : Plain more) : Links m p (first :: more)
  | direct {joins : List Sql.TableJoin} (kind : p.element.kind ≠ .manyToMany) (plain : Plain joins) :
      Links m p joins

theorem entityGroup_joins {e : Entity} (h : m.entityGroup e base = .ok g) : Plain g.tableJoins :=
  fun j hj => ((entityGroup_ok h).2.2.2 j hj).2

theorem collectionGroup_links (h : m.collectionGroup p base = .ok g) : m.Links p g.tableJoins := by
  obtain ⟨hk, e, -, hg⟩ | ⟨hk, link, e, -, he, hg⟩ | ⟨hk, table, root, -, -, rfl⟩ :=
    collectionGroup_ok h
  · exact .direct (by rw [hk]; nofun) (entityGroup_joins hg)
  · obtain ⟨first, more, _, _, hrs, his, hjoins⟩ := linkGroup_joins hg
    obtain ⟨_, hr, rfl⟩ := columnReferences_eq_ok.1 hrs
    obtain ⟨_, hi, rfl⟩ := columnReferences_eq_ok.1 his
    rw [hjoins]
    refine .linked hk he (equality_compares (hasReferences_slots _ hr) (hasReferences_slots _ hi)) ?_
    simp [Plain]
  · exact .direct (by rcases hk with hk | hk <;> rw [hk] <;> nofun) (by simp [Plain])

theorem keyPredicate_compares {owner : Sql.Expression} {ids : List ColumnId}
    {predicate : Option Sql.Predicate} (ho : m.Composes ids owner)
    (h : m.keyPredicate p g owner = .ok predicate) : m.Compares p.keyColumns ids predicate := by
  simp only [keyPredicate, Except.bind_eq_ok] at h
  obtain ⟨key, hkey, hp⟩ := h
  exact matching_compares (keyValue_composes hkey) ho hp

end Metamodel

/-- The link of a collection in the metamodel of a definition has as many columns as the identifier
of the elements. -/
theorem Definition.Builds.link_width {d : Definition} {m : Metamodel} {ems : List EntityMapping}
    {ps : List PendingEntity} {bare : List Entity} {r r1 r2 : Registry}
    (h : d.Builds m ems ps bare r r1 r2) {E e : Entity} {p : PluralAttribute}
    (hE : E ∈ m.entities) (hp : .plural p ∈ E.attributes) (hk : p.element.kind = .manyToMany)
    (he : m.elementEntity p = .ok e) :
    p.element.columns.length = e.identifier.columns.length := by
  obtain ⟨_, D, a, am, c, -, -, hin, hc, hof, -⟩ := h.collectionOf hE hp
  obtain ⟨_, slots, -, hdescribes, hholds⟩ := hof.slots (by rw [hk]; nofun)
  obtain ⟨_, _, n, -, -, -, hmapped⟩ := hin.mapped
  have hmaps := attributeMapping_collection hmapped hc
  cases a with
  | manyToMany a =>
    -- the definition has as many columns for the link as the identifier has types
    obtain ⟨-, codes, hcodes, hlength, helement⟩ := hmaps
    have htype : p.element.elementType = .entity a.target := by rw [hof.type, helement]; rfl
    obtain ⟨codes', hcodes', hwidth⟩ := h.identifier_width (Metamodel.entity_of_elements he htype)
    cases (identifierCodes_ok (componentMapper_agrees _) hcodes).symm.trans hcodes'
    rw [← hholds.length_eq, hwidth, hlength]
    have hnamed := congrArg List.length hdescribes.named
    rw [helement] at hnamed
    simpa using hnamed.symm
  | oneToMany a =>
    rw [hof.kind, hmaps.2] at hk
    cases hk
  | elementCollection a =>
    have htype := elementMapping_type hmaps.2
    rw [hof.kind] at hk
    split at htype
    · obtain ⟨_, heq⟩ := htype
      rw [heq] at hk
      cases hk
    · obtain ⟨_, heq, -⟩ := htype
      rw [heq] at hk
      cases hk
    · obtain ⟨_, heq⟩ := htype
      rw [heq] at hk
      cases hk
  | basic a | embedded a | any a | manyToOne a | oneToOne a => exact hmaps.elim

/-! ## Joins and subqueries -/

namespace Scope

variable {s t : Scope} {m : Metamodel} {g : Sql.TableGroup} {predicate : Option Sql.Predicate}

/-- A group stands for the collection that a path reaches, and a predicate compares the key of the
collection with the columns of its owner. -/
def OwnsGroup (s : Scope) (m : Metamodel) (path : AttributePath) (g : Sql.TableGroup)
    (predicate : Option Sql.Predicate) : Prop :=
  ∃ x p owner, s.resolve m path = .ok x ∧ x.target = .attributeOf (.plural p) ∧
    m.collectionGroup p g.aliasBase = .ok g ∧ m.Links p g.tableJoins ∧
    m.ValueColumns x.ref.source owner ∧ m.Compares p.keyColumns owner predicate

/-- The group of a from-element, and the predicate that is made to tie it to the group that it was
reached from. -/
inductive Connects (s : Scope) (m : Metamodel) :
    JoinSource → Sql.TableGroup → Option Sql.Predicate → Prop
  | entity {name : String} {g : Sql.TableGroup} {e : Entity} (found : m.entity name = .ok e)
      (group : m.entityGroup e g.aliasBase = .ok g) (plain : Metamodel.Plain g.tableJoins) :
      Connects s m (.entity name) g none
  | association {start names : String} {g : Sql.TableGroup} {predicate : Option Sql.Predicate}
      {x : ResolvedPath} {a : SingularAttribute} {T : Entity}
      (leads : s.resolve m ⟨start, splitDots names⟩ = .ok x)
      (reached : x.target = .attributeOf (.singular a)) (type : a.attributeType = .entity T.name)
      (found : m.entity T.name = .ok T) (group : m.entityGroup T g.aliasBase = .ok g)
      (plain : Metamodel.Plain g.tableJoins)
      (compares : m.Compares a.columns T.identifier.columns predicate) :
      Connects s m (.attributeOf start names) g predicate
  | collection {start names : String} {g : Sql.TableGroup} {predicate : Option Sql.Predicate}
      (owned : s.OwnsGroup m ⟨start, splitDots names⟩ g predicate) :
      Connects s m (.attributeOf start names) g predicate

theorem Connects.grows {source : JoinSource} (h : s.Connects m source g predicate)
    (hg : s.Grows t) : t.Connects m source g predicate := by
  cases h with
  | entity found group plain => exact .entity found group plain
  | association leads reached type found group plain compares =>
    exact .association (hg.resolve leads) reached type found group plain compares
  | collection owned =>
    obtain ⟨x, p, owner, hx, hrest⟩ := owned
    exact .collection ⟨x, p, owner, hg.resolve hx, hrest⟩

theorem joinedGroup_connects {source : JoinSource} {joined : JoinedGroup}
    (h : s.joinedGroup m source joined.group.aliasBase = .ok joined) :
    s.Connects m source joined.group joined.predicate := by
  cases source with
  | entity name =>
    simp only [joinedGroup, Except.bind_eq_ok, Except.pure_eq_ok] at h
    obtain ⟨e, he, g, hg, rfl⟩ := h
    exact .entity (lookedUp_ok he) (lookedUp_ok hg) (Metamodel.entityGroup_joins (lookedUp_ok hg))
  | attributeOf start names =>
    simp only [joinedGroup, attributeGroup, Except.bind_eq_ok] at h
    obtain ⟨x, hx, h⟩ := h
    have association {a : SingularAttribute} (ha : x.target = .attributeOf (.singular a))
        (h : s.associationGroup m x a joined.group.aliasBase = .ok joined) :
        s.Connects m (.attributeOf start names) joined.group joined.predicate := by
      obtain ⟨T, _, use, lhs, rhs, htype, hT, hg, -, -, -, hlhs, hrhs, hlength, hp⟩ :=
        associationGroup_ok h
      refine .association hx ha htype hT hg (Metamodel.entityGroup_joins hg) ?_
      rw [hp]
      exact Metamodel.equality_compares_all (Metamodel.hasReferences_slots _ hlhs)
        (Metamodel.hasReferences_slots _ hrhs) (by simpa [slotReferences] using hlength)
    split at h
    · rename_i a ha
      split at h
      · exact association ha h
      · exact association ha h
      · cases h
      · cases h
      · cases h
    · rename_i p hp
      simp only [pluralGroup, Except.bind_eq_ok, Except.pure_eq_ok] at h
      obtain ⟨g, hg, owner, ho, predicate, hk, rfl⟩ := h
      obtain ⟨_, _, ids, _, hids, hv⟩ := elementValue_columns ho
      exact .collection ⟨x, p, ids, hx, hp, lookedUp_ok hg,
        Metamodel.collectionGroup_links (lookedUp_ok hg), hids,
        Metamodel.keyPredicate_compares (Metamodel.columnsAt_composes hv) (lookedUp_ok hk)⟩
    · cases h

theorem Opens.ownsGroup {test : CollectionTest} {base : String} {q : Sql.Query}
    (h : s.Opens m test base q) :
    ∃ g, q.fromClause = ⟨[⟨g, []⟩]⟩ ∧ s.OwnsGroup m test.collection g q.predicate := by
  obtain ⟨p, owner, ho, hq⟩ := h
  obtain ⟨g, predicate, _, hg, hk, -, rfl⟩ := collectionQuery_parts hq
  simp only [owned, Except.bind_eq_ok] at ho
  obtain ⟨x, hx, ho⟩ := ho
  split at ho
  · rename_i p' hp
    simp only [Except.bind_eq_ok, Except.pure_eq_ok, Prod.mk.injEq] at ho
    obtain ⟨owner', hv, rfl, rfl⟩ := ho
    obtain ⟨_, _, ids, _, hids, hv⟩ := elementValue_columns hv
    obtain ⟨_, hcovers⟩ := Metamodel.collectionGroup_covers hg
    exact ⟨g, rfl, x, p', ids, hx, hp, by rw [hcovers.aliasBase]; exact hg,
      Metamodel.collectionGroup_links hg, hids,
      Metamodel.keyPredicate_compares (Metamodel.columnsAt_composes hv) hk⟩
  · cases ho

end Scope

/-! ## Statements -/

/-- Every equality that a lowered statement was given compares two lists of columns. -/
structure Lowered.PairsColumns (l : Lowered) (m : Metamodel) (s : Statement) : Prop where
  joins : List.Forall₂ (fun e place => ∃ g generated condition supply supply',
    groupAt? l.scope.spaces place = some g ∧ l.scope.Connects m e.source g generated ∧
    l.scope.condition m e.condition supply = .ok condition supply' ∧
    tieAt? l.scope.spaces place = Sql.Predicate.conjunction (generated.toList ++ condition.toList))
    s.fromElements (places l.scope.spaces)
  subqueries : List.Forall₂ (fun test q => ∃ g, q.fromClause = ⟨[⟨g, []⟩]⟩ ∧
    l.scope.OwnsGroup m test.collection g q.predicate) s.tests (Sql.Statement.subqueries l.statement)
  links : ∀ d : Definition, d.metamodel = .ok m → ∀ path x p e, l.scope.resolve m path = .ok x →
    x.target = .attributeOf (.plural p) → p.element.kind = .manyToMany →
    m.elementEntity p = .ok e → p.element.columns.length = e.identifier.columns.length

/-- The equalities that a statement is given when it is lowered compare columns place by place. Those
that tie joins and subqueries to their owners leave out no column. The one behind a link table
compares the columns that both the link and the identifier have, which are all of them in the
metamodel of a definition. -/
theorem generated_equalities_pair_columns {settings : Settings} {m : Metamodel} {s : Statement}
    {l : Lowered} (h : lowerWith settings m s = .ok l) : l.PairsColumns m s := by
  refine ⟨(lowerWith_elements h).imp ?_, ?_, ?_⟩
  · rintro e place ⟨s, joined, condition, supply, supply', hentered, hcondition, htie⟩
    exact ⟨joined.group, joined.predicate, condition, supply, supply', hentered.groupAt,
      (Scope.joinedGroup_connects hentered.built).grows hentered.grows, hcondition, htie⟩
  · obtain ⟨_, _, -, -, hanswers⟩ := lowerWith_answers h
    exact hanswers.forall₂.imp fun _ _ ⟨_, hopens⟩ => hopens.ownsGroup
  · intro d hm path x p e hx hp hk he
    obtain ⟨ems, ps, bare, r, r1, r2, hb⟩ := Definition.builds hm
    obtain ⟨_, -, -, hw, -⟩ := Scope.resolve_ok hx
    rw [hp] at hw
    obtain ⟨_, _, -, -, hf⟩ := hb.walk_plural hw
    obtain ⟨E, hE, hmem, -⟩ := Metamodel.find_plural hf
    exact hb.link_width (Metamodel.mem_of_entity hE) hmem hk he

/-- Orders, known by a region and a number there, and the customers they are for. -/
def sales : Definition :=
  ⟨none,
   [⟨"Order", none, some "orders", [], none, some ⟨"key", [], none, some "OrderKey"⟩, none,
      [.manyToOne ⟨"customer", "Customer", some "customer_id", [], false, none⟩]⟩,
    ⟨"Customer", none, some "customer", [], none, some ⟨"id", [], none, none⟩, none,
      [.manyToMany ⟨"orders", "Order", "customer_order", ["customer_id"], ["region", "number"], .bag,
        none⟩]⟩],
   [⟨"OrderKey", [plainPart "region" "string" none, plainPart "number" "string" none]⟩]⟩

/-- Orders with all orders of their customers. -/
def ordersBesideOrders : Statement :=
  .select ⟨⟨[⟨⟨"Order", some "o"⟩,
    [⟨some "c", .inner, .attributeOf "o" "customer", false, none⟩,
     ⟨some "p", .left, .attributeOf "c" "orders", false, none⟩]⟩]⟩,
    none, some (.isEmpty ⟨"c", ["orders"]⟩ true), none⟩

theorem sales_pair_columns : ∃ m l x p e, sales.metamodel = .ok m ∧
    lowerWith .default m ordersBesideOrders = .ok l ∧ l.PairsColumns m ordersBesideOrders ∧
    l.scope.resolve m ⟨"c", ["orders"]⟩ = .ok x ∧ x.target = .attributeOf (.plural p) ∧
    m.elementEntity p = .ok e ∧ p.element.columns.length = 2 ∧
    e.identifier.columns.length = p.element.columns.length := by
  have hrun : (sales.metamodel.toOption.bind fun m =>
      (lowerWith .default m ordersBesideOrders).toOption.bind fun l =>
      (l.scope.resolve m ⟨"c", ["orders"]⟩).toOption.bind fun x =>
      ((m.find (.entity "Customer") "orders").toOption.bind (·.plural?)).bind fun p =>
      (m.elementEntity p).toOption.map fun e => decide (x.target = .attributeOf (.plural p) ∧
        p.element.kind = .manyToMany ∧ p.element.columns.length = 2)) = some true := by
    decide +kernel
  obtain ⟨m, hm, hrun⟩ := Option.bind_eq_some_iff.1 hrun
  obtain ⟨l, hl, hrun⟩ := Option.bind_eq_some_iff.1 hrun
  obtain ⟨x, hx, hrun⟩ := Option.bind_eq_some_iff.1 hrun
  obtain ⟨p, -, hrun⟩ := Option.bind_eq_some_iff.1 hrun
  obtain ⟨e, he, hrun⟩ := Option.map_eq_some_iff.1 hrun
  obtain ⟨hp, hk, htwo⟩ := of_decide_eq_true hrun
  have hm := Except.toOption_eq_some.1 hm
  have hl := Except.toOption_eq_some.1 hl
  have hx := Except.toOption_eq_some.1 hx
  have he := Except.toOption_eq_some.1 he
  have hpairs := generated_equalities_pair_columns hl
  exact ⟨m, l, x, p, e, hm, hl, hpairs, hx, hp, he, htwo, (hpairs.links _ hm _ x p e hx hp hk he).symm⟩

/-- Customers with their orders, which a link table refers to by the region alone. -/
def regionalSales : List EntityMapping :=
  let text : MappedType := .basic (.standard .string)
  [⟨"Order", none, ["orders"],
      ⟨"key", ["region", "number"], [SqlCode.varchar, SqlCode.varchar],
        .component ⟨"OrderKey", [inColumns "region" ["region"] SqlCode.varchar text,
          inColumns "number" ["number"] SqlCode.varchar text]⟩⟩, []⟩,
   ⟨"Customer", none, ["customer"], ⟨"id", ["id"], [SqlCode.bigint], .basic (.standard .long)⟩,
      [⟨"orders", 0, [], none, [], .collection ⟨"Customer.orders", .bag, some "customer_orders",
        ["customer_id"], [SqlCode.bigint],
        ⟨.entity "Order" true, [some "region"], none, [SqlCode.varchar]⟩, none⟩⟩]⟩]

/-- Customers with their orders. -/
def ordersOfCustomers : Statement :=
  .select ⟨⟨[⟨⟨"Customer", some "c"⟩,
    [⟨some "o", .inner, .attributeOf "c" "orders", false, none⟩]⟩]⟩, none, none, none⟩

/-- A link table may have fewer columns than the identifier behind it. The others are then not
compared, and the statement is lowered all the same. -/
theorem link_compares_region_only : ∃ r m p e l,
    Registration.empty.registerAll regionalSales = .ok r ∧ r.build = .ok m ∧
    m.find (.entity "Customer") "orders" = .ok (.plural p) ∧ m.elementEntity p = .ok e ∧
    p.element.columns.length = 1 ∧ e.identifier.columns.length = 2 ∧
    lowerWith .default m ordersOfCustomers = .ok l ∧
    (groupAt? l.scope.spaces ⟨0, .join 0⟩).map
        (·.tableJoins.map fun j => Sql.Predicate.referencesOf j.predicate) =
      some [[⟨"j2_0", .column "region", SqlCode.varchar, none⟩,
        ⟨"j2_1", .column "region", SqlCode.varchar, none⟩]] := by
  have hrun : ((Registration.empty.registerAll regionalSales).toOption.bind fun r =>
      r.build.toOption.bind fun m => (m.find (.entity "Customer") "orders").toOption.bind fun found =>
      found.plural?.bind fun p => (m.elementEntity p).toOption.bind fun e =>
      (lowerWith .default m ordersOfCustomers).toOption.map fun l =>
      decide (found = .plural p ∧ p.element.columns.length = 1 ∧ e.identifier.columns.length = 2 ∧
        (groupAt? l.scope.spaces ⟨0, .join 0⟩).map
            (·.tableJoins.map fun j => Sql.Predicate.referencesOf j.predicate) =
          some [[⟨"j2_0", .column "region", SqlCode.varchar, none⟩,
            ⟨"j2_1", .column "region", SqlCode.varchar, none⟩]])) = some true := by
    decide +kernel
  obtain ⟨r, hr, hrun⟩ := Option.bind_eq_some_iff.1 hrun
  obtain ⟨m, hm, hrun⟩ := Option.bind_eq_some_iff.1 hrun
  obtain ⟨found, hf, hrun⟩ := Option.bind_eq_some_iff.1 hrun
  obtain ⟨p, -, hrun⟩ := Option.bind_eq_some_iff.1 hrun
  obtain ⟨e, he, hrun⟩ := Option.bind_eq_some_iff.1 hrun
  obtain ⟨l, hl, hrun⟩ := Option.map_eq_some_iff.1 hrun
  obtain ⟨rfl, hone, htwo, hjoins⟩ := of_decide_eq_true hrun
  exact ⟨r, m, p, e, l, Except.toOption_eq_some.1 hr, Except.toOption_eq_some.1 hm,
    Except.toOption_eq_some.1 hf, Except.toOption_eq_some.1 he, hone, htwo,
    Except.toOption_eq_some.1 hl, hjoins⟩

end EntityQuery
