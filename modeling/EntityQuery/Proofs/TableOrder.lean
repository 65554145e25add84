import EntityQuery.Proofs.DeclaringTable
import EntityQuery.Proofs.Lineage
import EntityQuery.Proofs.Origins
import EntityQuery.Proofs.References

/-!
# The tables of groups, from the definition on

`Definition.LineTables d e tables`: the tables that an entity declares, then those of its ancestors
from the nearest on, then those of its descendants, each child before its own children, and every
table at its first place only. The tables of an entity are these (`tableOrder_tables`): the depth to
which descendants are followed is enough, as no chain of ancestors is longer.

`Definition.Fills` says which tables a group has by what it ranges over, under which identification
variables and joined how. `groups_filled` says so of the groups of all from-elements and subqueries
of a lowered statement.
-/

set_option autoImplicit false

namespace EntityQuery

namespace Definition

variable {d : Definition} {e : EntityDefinition}

/-! ## The tables of a line -/

/-- The tables of an entity, its ancestors and its descendants, each at its first place. -/
def LineTables (d : Definition) (e : EntityDefinition) (tables : List String) : Prop :=
  ∃ above below own, d.Ascends e above ∧ d.Descends (d.children e) below ∧
    List.Forall₂ (fun x ts => d.ownTables x = .ok ts) (e :: above ++ below) own ∧
    tables = own.flatten.eraseDups

theorem firstsAfter_eq : ∀ (seen xs : List String),
    firstsAfter seen xs = (xs.filter (· ∉ seen)).eraseDups
  | _, [] => rfl
  | seen, x :: xs => by
    rw [firstsAfter]
    split
    · rename_i hx
      rw [firstsAfter_eq seen xs, List.filter_cons_of_neg (by simpa using hx)]
    · rename_i hx
      rw [firstsAfter_eq (x :: seen) xs, List.filter_cons_of_pos (by simpa using hx),
        List.eraseDups_cons, List.filter_filter]
      congr 2
      refine List.filter_congr fun y _ => ?_
      by_cases hy : y = x <;> simp [hy]

/-- The tables of an entity are those of its line. -/
theorem tableOrder_tables (hv : d.Valid) (he : e ∈ d.entities) {order : List String}
    (h : d.tableOrder e = .ok order) : d.LineTables e order := by
  simp only [tableOrder, line, Except.bind_eq_ok, Except.pure_eq_ok] at h
  obtain ⟨_, ⟨above, habove, rfl⟩, own, hown, rfl⟩ := h
  have ha := ascends_ancestorsFrom habove
  refine ⟨above, d.descendants e, own, ha, ?_, Except.mapM_ok hown, ?_⟩
  · exact descends_descendants hv.rooted he
  · rw [firstsAfter_eq, List.filter_eq_self.2 (by simp)]

end Definition

/-! ## Paths to collections -/

/-- A path leads from a from-element over an entity to an attribute that the line of the entity
declares. -/
def Definition.Reaches (d : Definition) (m : Metamodel) (s : Scope) (path : AttributePath)
    (a : AttributeDefinition) : Prop :=
  ∃ ref offset e D, s.index.find? path.start = some ref ∧
    s.start m ref path.dotted = .ok (.entity e.name, offset) ∧
    e ∈ d.entities ∧ d.InLine e D ∧ a ∈ D.attributes ∧ path.segments = [a.name]

/-- An attribute that is found in an entity is one of its attributes, or the identifier. -/
theorem Metamodel.find_entity_ok {m : Metamodel} {entity name : String} {a : Attribute}
    (h : m.find (.entity entity) name = .ok a) :
    ∃ E, m.entity entity = .ok E ∧
      (a ∈ E.attributes ∧ a.name = name ∨ a = .singular E.identifier) := by
  simp only [find, Except.bind_eq_ok, Except.pure_eq_ok] at h
  obtain ⟨E, hE, _, rfl, h⟩ := h
  refine ⟨E, hE, ?_⟩
  split at h
  · rename_i found ha
    cases h
    unfold Entity.find? at ha
    split at ha
    · rename_i x hf
      have hname : x.name = name := by simpa using List.find?_some hf
      cases ha
      exact .inl ⟨List.mem_reverse.1 (List.mem_of_find?_eq_some hf), hname⟩
    · split at ha
      · cases ha
        exact .inr rfl
      · cases ha
  · cases h

theorem Metamodel.find_plural {m : Metamodel} {entity name : String} {p : PluralAttribute}
    (h : m.find (.entity entity) name = .ok (.plural p)) :
    ∃ E, m.entity entity = .ok E ∧ .plural p ∈ E.attributes ∧ p.name = name := by
  obtain ⟨E, hE, ⟨hmem, hname⟩ | heq⟩ := find_entity_ok h
  · exact ⟨E, hE, hmem, hname⟩
  · cases heq

theorem Metamodel.find_embeddable {m : Metamodel} {role name : String} {a : Attribute}
    (h : m.find (.embeddable role) name = .ok a) :
    ∃ e, m.embeddable role = .ok e ∧ a ∈ e.attributes ∧ a.name = name := by
  simp only [find, Except.bind_eq_ok, Except.pure_eq_ok] at h
  obtain ⟨e, he, _, rfl, h⟩ := h
  split at h
  · rename_i found hf
    cases h
    exact ⟨e, he, List.mem_of_find?_eq_some hf, by simpa using List.find?_some hf⟩
  · cases h

namespace Definition.Builds

variable {d : Definition} {m : Metamodel} {ems : List EntityMapping} {ps : List PendingEntity}
  {bare : List Entity} {r r1 r2 : Registry}

/-- A collection is reached in one step, from an entity: embeddables have none. -/
theorem walk_plural (h : d.Builds m ems ps bare r r1 r2) {path : String} {p : PluralAttribute}
    {segments : List String} : ∀ {type : ManagedType},
      walk m path type segments = .ok (.attributeOf (.plural p)) →
      ∃ entity name, type = .entity entity ∧ segments = [name] ∧
        m.find (.entity entity) name = .ok (.plural p) := by
  induction segments with
  | nil => intro type hw; simp [walk] at hw
  | cons name rest ih =>
    intro type hw
    obtain ⟨_, _, hs, hf, heq⟩ | ⟨_, _, _, hs, -, ⟨_, -, -, hw⟩ | ⟨_, heq⟩⟩ := walk_ok hw
    · cases heq
      cases type with
      | entity entity => exact ⟨entity, _, rfl, hs, hf⟩
      | embeddable role =>
        obtain ⟨e, he, ha, -⟩ := Metamodel.find_embeddable hf
        obtain ⟨s, hs⟩ := h.singular he ha
        cases hs
    · cases hs
      obtain ⟨_, _, htype, -, -⟩ := ih hw
      cases htype
    · cases heq

/-- A path to a collection leads to one that the line of an entity declares. -/
theorem reaches (h : d.Builds m ems ps bare r r1 r2) {s : Scope} {path : AttributePath}
    {x : ResolvedPath} {p : PluralAttribute} (hx : s.resolve m path = .ok x)
    (hp : x.target = .attributeOf (.plural p)) :
    ∃ a D number am c, d.Reaches m s path a ∧
      d.attributeMapping d.component D number a = .ok am ∧ am.mappedType = .collection c ∧
      Build.CollectionOf m.database c p := by
  obtain ⟨type, hr, hs, hw, -⟩ := Scope.resolve_ok hx
  rw [hp] at hw
  obtain ⟨entity, name, rfl, hsegments, hf⟩ := h.walk_plural hw
  obtain ⟨E, hE, hmem, hname⟩ := Metamodel.find_plural hf
  obtain ⟨-, -, -, -, -, -, -, -, -, hEm⟩ := h.entity_of hE
  obtain ⟨e, D, a, am, c, he, hename, hin, hc, hof, hpname⟩ := h.collectionOf hEm hmem
  obtain ⟨order, table, number, -, -, -, hmapping⟩ := hin.mapped
  rw [← Metamodel.entity_name hE, ← hename] at hs
  refine ⟨a, D.name, number, am, c, ⟨x.ref, _, e, D, FromIndex.resolve_ok.1 hr, hs, he, hin.line,
    hin.declared, ?_⟩, hmapping, hc, hof⟩
  rw [hsegments, ← hname, hpname]

end Definition.Builds

/-! ## What groups range over -/

/-- What a group ranges over: an entity, entities behind a link table that refers to them in the
given columns, or the rows of a collection table. -/
inductive Subject
  | entity (name : String)
  | linked (table : String) (columns : List String) (target : String)
  | rows (table : String)

/-- What the group of a collection ranges over. -/
def AttributeDefinition.subject? : AttributeDefinition → Option Subject
  | .oneToMany a => some (.entity a.target)
  | .manyToMany a => some (.linked a.collectionTable a.elementColumns a.target)
  | .elementCollection a =>
    match a.element with
    | .basic .. | .embeddable _ => some (.rows a.collectionTable)
    | .any .. => none
  | _ => none

/-- What a from-element ranges over: the entity it names, the one that a reference leads to, or what
a collection of the definition says. -/
inductive Definition.RangesOver (d : Definition) (m : Metamodel) (s : Scope) :
    JoinSource → Subject → Prop
  | entity (name : String) : RangesOver d m s (.entity name) (.entity name)
  | reference {start dotted name : String} {r : ResolvedPath} {a : SingularAttribute}
      (resolved : s.resolve m ⟨start, splitDots dotted⟩ = .ok r)
      (target : r.target = .attributeOf (.singular a)) (type : a.attributeType = .entity name) :
      RangesOver d m s (.attributeOf start dotted) (.entity name)
  | collection {start dotted : String} {a : AttributeDefinition} {subject : Subject}
      (reaches : d.Reaches m s ⟨start, splitDots dotted⟩ a) (declared : a.subject? = some subject) :
      RangesOver d m s (.attributeOf start dotted) subject

/-- The tables of a group are those of the given expressions, in order, under the identification
variables of their places. -/
structure Lists (g : Sql.TableGroup) (expressions : List String) : Prop where
  shown : g.tables.map (·.reference.expression) = expressions.map Text.trim
  named : g.tables.map (·.variableName) =
    (List.range expressions.length).map (variableAt g.aliasBase)

/-- Columns of the table at a place of a group, by their names and SQL types. -/
def namedColumnsAt (aliasBase : String) (position : Nat) (names : List String)
    (codes : List SqlCode) : List Sql.Expression :=
  (slotReferences (variableAt aliasBase position)
    (List.zipWith (fun name code => ⟨.column name, code⟩) names codes)).map .column

/-- A group has the tables of what it ranges over. An entity has all tables of its line, joined from
the left. Behind a link table the first of them is joined where the columns of the link table equal
the identifier of the entity. A collection table stands alone. -/
def Definition.Fills (d : Definition) (g : Sql.TableGroup) : Subject → Prop
  | .entity name => ∃ e tables, e ∈ d.entities ∧ e.name = name ∧ d.LineTables e tables ∧
      Lists g tables ∧ (∀ j ∈ g.tableJoins, j.joinType = .left ∧ j.predicate = none) ∧
      g.elementOffset = 0
  | .linked table columns name => ∃ e tables id first rest, e ∈ d.entities ∧ e.name = name ∧
      d.LineTables e tables ∧ Lists g (table :: tables) ∧
      d.identifierMapping d.component e = .ok id ∧ columns.length = id.sqlCodes.length ∧
      id.columns.length = id.sqlCodes.length ∧ g.tableJoins = first :: rest ∧
      first.joinType = .inner ∧
      first.predicate = Sql.Predicate.equality (namedColumnsAt g.aliasBase 0 columns id.sqlCodes)
        (namedColumnsAt g.aliasBase 1 id.columns id.sqlCodes) ∧
      (∀ j ∈ rest, j.joinType = .left ∧ j.predicate = none) ∧ g.elementOffset = 1
  | .rows table => Lists g [table] ∧ g.tableJoins = [] ∧ g.elementOffset = 0

theorem Metamodel.Covers.lists {m : Metamodel} {base : String} {ids : List TableId}
    {g : Sql.TableGroup} {expressions : List String} (h : m.Covers base ids g)
    (hs : List.Forall₂ m.database.Shows expressions ids) : Lists g expressions := by
  refine ⟨h.expressions hs, ?_⟩
  rw [h.named, h.aliasBase, hs.length_eq]

/-! ## Groups of a definition -/

namespace Definition.Builds

variable {d : Definition} {m : Metamodel} {ems : List EntityMapping} {ps : List PendingEntity}
  {bare : List Entity} {r r1 r2 : Registry} {base : String} {g : Sql.TableGroup}

/-- An entity that is found by a name has the tables of its line, and the identifier of its
hierarchy on the first of them. -/
theorem entity_tables (h : d.Builds m ems ps bare r r1 r2) {name : String} {E : Entity}
    (hE : m.entity name = .ok E) :
    ∃ e tables id, e ∈ d.entities ∧ e.name = name ∧ d.LineTables e tables ∧
      List.Forall₂ m.database.Shows tables E.tables ∧ d.identifierMapping d.component e = .ok id ∧
      id.columns.length = id.sqlCodes.length ∧
      Build.Stores m.database E.tables 0
        (List.zipWith (fun name code => ⟨.column name, code⟩) id.columns id.sqlCodes)
        E.identifier := by
  obtain ⟨e, em, p, he, hname, hmap, -, hof, hbuilt, -⟩ := h.entity_of hE
  obtain ⟨-, horder, hidentifier, -⟩ := entityMapping_ok hmap
  obtain ⟨r3, r4, hid, hg⟩ := hbuilt.identifier
  have hlength := Build.identifier_length hid
  have hstores := (Build.identifier_stores hid).grows hg
  rw [hof.identifier] at hlength hstores
  rw [← hbuilt.tables] at hstores
  refine ⟨e, em.tables, em.identifier, he, hname, tableOrder_tables h.valid he horder, ?_,
    hidentifier, hlength, hstores⟩
  rw [hbuilt.tables]
  exact hof.tables

theorem entityGroup_fills (h : d.Builds m ems ps bare r r1 r2) {name : String} {E : Entity}
    (hE : m.entity name = .ok E) (hg : m.entityGroup E base = .ok g) :
    d.Fills g (.entity name) := by
  obtain ⟨e, tables, id, he, hname, htables, hshows, -⟩ := h.entity_tables hE
  obtain ⟨hcovers, -, hoffset, hjoins⟩ := Metamodel.entityGroup_ok hg
  exact ⟨e, tables, he, hname, htables, hcovers.lists hshows, hjoins, hoffset⟩

theorem linkGroup_fills (h : d.Builds m ems ps bare r r1 r2) {a : ManyToManyDefinition}
    {context : String} {c : CollectionMapping} {p : PluralAttribute} {link : TableId} {E : Entity}
    (hc : d.MapsCollection d.component context (.manyToMany a) c)
    (hp : Build.CollectionOf m.database c p) (hlink : p.collectionTable = some link)
    (hE : m.entity a.target = .ok E) (hg : m.linkGroup p link E base = .ok g) :
    d.Fills g (.linked a.collectionTable a.elementColumns a.target) := by
  obtain ⟨htable, codes, hcodes, hlength, helement⟩ := hc
  obtain ⟨e, tables, id, he, hname, htables, hshows, hid, hidlength, hstores⟩ := h.entity_tables hE
  obtain ⟨hcovers, -, hoffset, -⟩ := Metamodel.linkGroup_ok hg
  obtain ⟨first, more, references, identifiers, hrs, his, hjoins⟩ := Metamodel.linkGroup_joins hg
  have hbase := hcovers.aliasBase
  -- the link table is the one that the collection declares
  obtain ⟨table, htable', hlinkshows⟩ := hp.table _ htable
  cases hlink.symm.trans htable'
  -- the SQL types of the link are those of the identifier
  have hcodes' : codes = id.sqlCodes := by
    simp only [identifierCodes, Except.bind_eq_ok, Except.pure_eq_ok] at hcodes
    obtain ⟨e', he', ⟨_, codes'⟩, hslots, rfl⟩ := hcodes
    have hentity := entity_ok he'
    rw [← hname, h.valid.entity? he] at hentity
    cases hentity
    obtain ⟨_, _, -, -, hslots', -⟩ := identifierMapping_ok hid
    cases hslots.symm.trans hslots'
    rfl
  subst hcodes'
  -- the columns of the elements are the declared ones
  have hkind : p.element.kind ≠ .oneToMany := by
    rw [hp.kind, helement]
    rintro ⟨⟩
  obtain ⟨table, slots, htable', hdescribes, hholds⟩ := hp.slots hkind
  cases hlink.symm.trans htable'
  rw [helement] at hdescribes
  have hslots := slots_of_names hdescribes.named
  rw [← hdescribes.typed] at hslots
  rw [Metamodel.columnReferences_of_holds _ hholds, ← hslots] at hrs
  obtain ⟨primary, -, hprimary⟩ := hstores.columns
  rw [Metamodel.columnReferences_of_holds _ hprimary] at his
  cases hrs
  cases his
  refine ⟨e, tables, id, _, _, he, hname, htables, hcovers.lists (.cons hlinkshows hshows), hid,
    hlength.symm, hidlength, hjoins, rfl, ?_, ?_, hoffset⟩
  · rw [hbase]
    rfl
  · intro j hj
    obtain ⟨use, -, rfl⟩ := List.mem_map.1 hj
    exact ⟨rfl, rfl⟩

/-- The group of a collection ranges over what the collection declares. -/
theorem collectionGroup_fills (h : d.Builds m ems ps bare r r1 r2) {D : String} {number : Nat}
    {a : AttributeDefinition} {am : AttributeMapping} {c : CollectionMapping} {p : PluralAttribute}
    (hm : d.attributeMapping d.component D number a = .ok am) (hc : am.mappedType = .collection c)
    (hp : Build.CollectionOf m.database c p) (hg : m.collectionGroup p base = .ok g) :
    ∃ subject, a.subject? = some subject ∧ d.Fills g subject := by
  have hmaps := attributeMapping_collection hm hc
  have element {target : String} {viaLinkTable : Bool}
      (ht : c.element.elementType = .entity target viaLinkTable) {E : Entity}
      (hE : m.elementEntity p = .ok E) : m.entity target = .ok E := by
    refine Metamodel.entity_of_elements hE ?_
    rw [hp.type, ht]
    rfl
  have alone {table : TableId} {root : Sql.TableUse} {expression : String}
      (hx : c.collectionTable = some expression) (ht : p.collectionTable = some table)
      (hr : m.tableUse base 0 table = .ok root) :
      d.Fills ⟨base, .collection p.role, root, [], 0⟩ (.rows expression) := by
    obtain ⟨id, hid, hshows⟩ := hp.table expression hx
    cases ht.symm.trans hid
    obtain ⟨huse, hvariable, hrefers⟩ := Metamodel.tableUse_ok hr
    have hcovers : m.Covers base [table] ⟨base, .collection p.role, root, [], 0⟩ :=
      ⟨rfl, by simp [Sql.TableGroupOf.tables, huse], by simp [Sql.TableGroupOf.tables, hvariable],
        by simpa [Sql.TableGroupOf.tables] using hrefers⟩
    exact ⟨hcovers.lists (.cons hshows .nil), rfl, rfl⟩
  have hkind := hp.kind
  cases a with
  | oneToMany a =>
    obtain ⟨-, helement⟩ := hmaps
    rw [helement] at hkind
    obtain ⟨-, E, hE, hgroup⟩ | ⟨hk, -⟩ | ⟨hk, -⟩ := Metamodel.collectionGroup_ok hg
    · exact ⟨_, rfl, h.entityGroup_fills (element (by rw [helement]) hE) hgroup⟩
    · cases hkind.symm.trans hk
    · rcases hk with hk | hk <;> cases hkind.symm.trans hk
  | manyToMany a =>
    have helement := hmaps.2
    obtain ⟨codes, -, -, helement⟩ := helement
    rw [helement] at hkind
    obtain ⟨hk, -⟩ | ⟨-, link, E, hlink, hE, hgroup⟩ | ⟨hk, -⟩ := Metamodel.collectionGroup_ok hg
    · cases hkind.symm.trans hk
    · exact ⟨_, rfl, h.linkGroup_fills hmaps hp hlink (element (by rw [helement]) hE) hgroup⟩
    · rcases hk with hk | hk <;> cases hkind.symm.trans hk
  | elementCollection a =>
    obtain ⟨htable, helement⟩ := hmaps
    have rows {t : ElementType} (ht : c.element.elementType = t)
        (hone : t.elementClass ≠ .oneToMany) (hmany : t.elementClass ≠ .manyToMany) :
        d.Fills g (.rows a.collectionTable) := by
      rw [ht] at hkind
      obtain ⟨hk, -⟩ | ⟨hk, -⟩ | ⟨-, table, root, hcollection, hr, rfl⟩ :=
        Metamodel.collectionGroup_ok hg
      · exact absurd (hkind.symm.trans hk) hone
      · exact absurd (hkind.symm.trans hk) hmany
      · exact alone htable hcollection hr
    cases he : a.element with
    | basic typeName column sqlType enumStorage =>
      rw [he] at helement
      obtain ⟨t, ht⟩ := elementMapping_type helement
      exact ⟨_, by rw [AttributeDefinition.subject?, he], rows ht (by rintro ⟨⟩) (by rintro ⟨⟩)⟩
    | embeddable name =>
      rw [he] at helement
      obtain ⟨t, ht, -⟩ := elementMapping_type helement
      exact ⟨_, by rw [AttributeDefinition.subject?, he], rows ht (by rintro ⟨⟩) (by rintro ⟨⟩)⟩
    | any discriminatorColumn identifierColumn discriminatorType identifierType =>
      rw [he] at helement
      obtain ⟨t, ht⟩ := elementMapping_type helement
      rw [ht] at hkind
      rw [Metamodel.collectionGroup, hkind] at hg
      cases hg
  | basic a | embedded a | any a | manyToOne a | oneToOne a => exact hmaps.elim

end Definition.Builds

/-! ## Statements -/

/-- A joined group ranges over what its from-element names, in every scope that has the
from-elements before it. -/
theorem Definition.Builds.joinedGroup_fills {d : Definition} {m : Metamodel}
    {ems : List EntityMapping} {ps : List PendingEntity} {bare : List Entity} {r r1 r2 : Registry}
    (h : d.Builds m ems ps bare r r1 r2) {s t : Scope} (hgrows : s.Grows t) {source : JoinSource}
    {base : String} {joined : JoinedGroup} (hj : s.joinedGroup m source base = .ok joined) :
    ∃ subject, d.RangesOver m t source subject ∧ d.Fills joined.group subject := by
  cases source with
  | entity name =>
    simp only [Scope.joinedGroup, Except.bind_eq_ok, Except.pure_eq_ok] at hj
    obtain ⟨E, hE, g, hg, rfl⟩ := hj
    exact ⟨_, .entity name, h.entityGroup_fills (lookedUp_ok hE) (lookedUp_ok hg)⟩
  | attributeOf start dotted =>
    simp only [Scope.joinedGroup, Scope.attributeGroup, Except.bind_eq_ok] at hj
    obtain ⟨x, hx, hj⟩ := hj
    have hx := hgrows.resolve hx
    have reference {a : SingularAttribute} (ha : x.target = .attributeOf (.singular a))
        (hj : s.associationGroup m x a base = .ok joined) :
        ∃ subject, d.RangesOver m t (.attributeOf start dotted) subject ∧
          d.Fills joined.group subject := by
      simp only [Scope.associationGroup, Except.bind_eq_ok, Except.pure_eq_ok] at hj
      obtain ⟨name, hname, E, hE, g, hg, _, -, _, -, _, -, _, -, rfl⟩ := hj
      have htype : a.attributeType = .entity name := by
        have hname := lookedUp_ok hname
        unfold SingularAttribute.targetName at hname
        split at hname
        · rename_i found hf
          cases hname
          exact hf
        · cases hname
      exact ⟨_, .reference hx ha htype, h.entityGroup_fills (lookedUp_ok hE) (lookedUp_ok hg)⟩
    split at hj
    · rename_i a ha
      split at hj
      · exact reference ha hj
      · exact reference ha hj
      · cases hj
      · cases hj
      · cases hj
    · rename_i p hp
      simp only [Scope.pluralGroup, Except.bind_eq_ok, Except.pure_eq_ok] at hj
      obtain ⟨g, hg, _, -, _, -, rfl⟩ := hj
      obtain ⟨a, D, number, am, c, hreaches, hmapping, hc, hof⟩ := h.reaches hx hp
      obtain ⟨subject, hsubject, hfills⟩ :=
        h.collectionGroup_fills hmapping hc hof (lookedUp_ok hg)
      exact ⟨subject, .collection hreaches hsubject, hfills⟩
    · cases hj

/-- The group of every from-element of a lowered statement has the tables of what the from-element
ranges over, and so has the group of every subquery over a collection. -/
theorem groups_filled {d : Definition} {m : Metamodel} {settings : Settings} {s : Statement}
    {l : Lowered} (hm : d.metamodel = .ok m) (hl : lowerWith settings m s = .ok l) :
    List.Forall₂ (fun (e : FromElement) g => ∃ subject,
      d.RangesOver m l.scope e.source subject ∧ d.Fills g subject)
      s.fromElements l.statement.fromClause.groups ∧
    List.Forall₂ (fun (t : CollectionTest) (q : Sql.Query) => ∃ g a subject,
      q.fromClause.groups = [g] ∧ d.Reaches m l.scope t.collection a ∧
      a.subject? = some subject ∧ d.Fills g subject)
      s.tests (Sql.Statement.subqueries l.statement) := by
  obtain ⟨ems, ps, bare, r, r1, r2, hb⟩ := Definition.builds hm
  constructor
  · have hplaces : List.Forall₂ (fun k g => groupAt? l.scope.spaces k = some g)
        (places l.scope.spaces) (groupsOf l.scope.spaces) := by
      have hmap := places_map_groupAt l.scope.spaces
      rwa [← List.forall₂_eq_eq_eq, List.forall₂_map_left_iff, List.forall₂_map_right_iff] at hmap
    refine (lowerWith_elements hl).comp ?_ hplaces
    rintro e k g ⟨t, joined, _, _, _, henters, -, -⟩ hg
    cases henters.groupAt.symm.trans hg
    exact hb.joinedGroup_fills henters.grows henters.built
  · obtain ⟨bases, bases', -, -, hanswers⟩ := lowerWith_answers hl
    refine hanswers.forall₂.imp ?_
    rintro t q ⟨base, p, owner, howned, hq⟩
    obtain ⟨g, predicate, value, hg, -, -, rfl⟩ := collectionQuery_parts hq
    simp only [Scope.owned, Except.bind_eq_ok] at howned
    obtain ⟨x, hx, howned⟩ := howned
    split at howned
    · rename_i found hp
      simp only [Except.bind_eq_ok, Except.pure_eq_ok, Prod.mk.injEq] at howned
      obtain ⟨_, -, rfl, -⟩ := howned
      obtain ⟨a, D, number, am, c, hreaches, hmapping, hc, hof⟩ := hb.reaches hx hp
      obtain ⟨subject, hsubject, hfills⟩ := hb.collectionGroup_fills hmapping hc hof hg
      exact ⟨g, a, subject, rfl, hreaches, hsubject, hfills⟩
    · cases howned

/-- People belong to clubs, and members of a club may be its officers. -/
def clubs : Definition :=
  let key : IdentifierDefinition := ⟨"id", [], none, none⟩
  ⟨none,
   [⟨"Person", none, some "person", [], none, some key, none,
      [.manyToMany ⟨"clubs", "Club", "membership", ["person_id"], ["club_id"], .set, none⟩,
       .elementCollection ⟨"names", "nickname", ["person_id"], .basic "string" none none none, .bag,
         none⟩]⟩,
    ⟨"Club", none, some "club", [], none, some key, none,
      [.oneToMany ⟨"officers", "Member", ["club_id"], .set, none⟩]⟩,
    ⟨"Member", some "Person", some " member ", ["badge", "person"], none, none, none, []⟩],
   []⟩

/-- People with their clubs, the officers of these and their own other names, where no officer has
clubs. -/
def officers : Statement :=
  .select ⟨⟨[⟨⟨"Person", some "p"⟩,
    [⟨some "c", .inner, .attributeOf "p" "clubs", false, none⟩,
     ⟨some "o", .left, .attributeOf "c" "officers", false, none⟩,
     ⟨some "n", .left, .attributeOf "p" "names", false, none⟩]⟩]⟩, none,
    some (.isEmpty ⟨"o", ["clubs"]⟩ false), none⟩

theorem officers_filled : ∃ m l, clubs.metamodel = .ok m ∧ lowerWith .default m officers = .ok l ∧
    List.Forall₂ (fun (e : FromElement) g => ∃ subject,
      clubs.RangesOver m l.scope e.source subject ∧ clubs.Fills g subject)
      officers.fromElements l.statement.fromClause.groups ∧
    l.statement.fromClause.groups.map (·.tables.map (·.reference.expression)) =
      [["person", "member", "badge"], ["membership", "club"], ["member", "badge", "person"],
       ["nickname"]] ∧
    List.Forall₂ (fun (t : CollectionTest) (q : Sql.Query) => ∃ g a subject,
      q.fromClause.groups = [g] ∧ clubs.Reaches m l.scope t.collection a ∧
      a.subject? = some subject ∧ clubs.Fills g subject)
      officers.tests (Sql.Statement.subqueries l.statement) := by
  have hrun : (clubs.metamodel.toOption.bind fun m => (lowerWith .default m officers).toOption).map
      (·.statement.fromClause.groups.map (·.tables.map (·.reference.expression))) =
        some [["person", "member", "badge"], ["membership", "club"], ["member", "badge", "person"],
          ["nickname"]] := by
    decide +kernel
  obtain ⟨l, hrun, hgroups⟩ := Option.map_eq_some_iff.1 hrun
  obtain ⟨m, hm, hl⟩ := Option.bind_eq_some_iff.1 hrun
  have hm := Except.toOption_eq_some.1 hm
  have hl := Except.toOption_eq_some.1 hl
  obtain ⟨helements, htests⟩ := groups_filled hm hl
  exact ⟨m, l, hm, hl, helements, hgroups, htests⟩

end EntityQuery
