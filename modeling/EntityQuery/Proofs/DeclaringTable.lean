import EntityQuery.Proofs.Entities
import EntityQuery.Proofs.Registration

/-!
# Attributes are read off the table that declares them

`path_reads_declaring_table`: a path from a from-element that ranges over an entity to an attribute
of its line stands for the slots that the attribute declares, in order, all under the
identification variable of the table that the declaring entity designates for the attribute.

The attribute is found by its name, which is its own within the line (`find_declared`). It is
stored in the declared slots, in the table of its number, and the group of the from-element has the
tables of the entity in that same order (`Metamodel.Covers`).
-/

set_option autoImplicit false

namespace EntityQuery

/-! ## Columns of slots -/

/-- The columns that slots make, under an identification variable. -/
def slotReferences (variableName : String) (slots : List Column) : List Sql.ColumnReference :=
  slots.map fun c => ⟨variableName, c.expression, c.sqlCode, none⟩

theorem Metamodel.columnReferences_of_holds {m : Metamodel} {id : TableId} {slots : List Column}
    {places : List ColumnId} (variableName : String)
    (h : List.Forall₂ (m.database.Holds id) slots places) :
    m.columnReferences variableName places = .ok (slotReferences variableName slots) := by
  refine Except.mapM_of ?_
  rw [slotReferences, List.forall₂_map_right_iff]
  exact h.flip.imp fun place slot hh => by
    rw [columnReference, Database.Holds.column? hh]

theorem Metamodel.find_entity {m : Metamodel} {entity name : String} {e : Entity} {a : Attribute}
    (he : m.entity entity = .ok e) (ha : e.find? name = some a) :
    m.find (.entity entity) name = .ok a := by
  simp only [find, Except.bind_eq_ok, Except.pure_eq_ok]
  exact ⟨e, he, some a, ha, rfl⟩

theorem walk_entity {m : Metamodel} {entity name path : String} {e : Entity} {a : Attribute}
    (he : m.entity entity = .ok e) (ha : e.find? name = some a) :
    walk m path (.entity entity) [name] = .ok (.attributeOf a) := by
  simp only [walk, Except.bind_eq_ok, Except.pure_eq_ok]
  exact ⟨a, by rw [Metamodel.find_entity he ha]; rfl, rfl⟩

/-! ## Attributes of entities -/

/-- The attribute that is found by a name is the one that the line declares under it. -/
theorem Definition.find_declared {d : Definition} {e D : EntityDefinition} {a : AttributeDefinition}
    {em : EntityMapping} {am : AttributeMapping} {db : Database} {bare : List Entity}
    {p : PendingEntity} {E : Entity} (hv : d.Valid) (he : e ∈ d.entities)
    (hmap : d.entityMapping e = .ok em) (hof : p.Of db em) (hbuilt : Build.EntityOf db bare p E)
    (hin : d.Inherits e D a am) (ham : am ∈ em.attributes) :
    ∃ x, E.find? a.name = some x ∧
      Build.AttributeOf db bare (p.owner E.identifier.columns) am x := by
  have hattributes := hbuilt.attributes
  rw [hof.attributes] at hattributes
  have named {am : AttributeMapping} {x : Attribute}
      (hx : Build.AttributeOf db bare (p.owner E.identifier.columns) am x) :
      x.name = am.name := by
    obtain ⟨_, _, hs, -⟩ := hx
    exact Build.stored_name hs
  obtain ⟨x0, hx0, hof0⟩ := hattributes.exists_right ham
  have hsome : (E.attributes.reverse.find? (·.name = a.name)).isSome := by
    rw [List.find?_isSome]
    exact ⟨x0, List.mem_reverse.2 hx0, by simp [named hof0, hin.name]⟩
  obtain ⟨x, hx⟩ := Option.isSome_iff_exists.1 hsome
  have hname : x.name = a.name := by simpa using List.find?_some hx
  -- whichever attribute has the name, it is built from the same mapping
  obtain ⟨am', ham', hx'⟩ :=
    hattributes.exists_left (List.mem_reverse.1 (List.mem_of_find?_eq_some hx))
  obtain ⟨D', a', hin'⟩ := inherits_of_mem hv he hmap ham'
  obtain ⟨-, -, rfl⟩ := hin.unique hv he hin' (by rw [← hin'.name, ← named hx', hname])
  exact ⟨x, by rw [Entity.find?, hx], hx'⟩

/-! ## Paths -/

/-- The tables of a group are shown by the expressions that the tables it covers are shown by. -/
theorem Metamodel.Covers.expressions {m : Metamodel} {base : String} {ids : List TableId}
    {g : Sql.TableGroup} {order : List String} (h : m.Covers base ids g)
    (hs : List.Forall₂ m.database.Shows order ids) :
    g.tables.map (·.reference.expression) = order.map Text.trim := by
  rw [← h.tables, List.forall₂_map_right_iff] at hs
  refine List.Forall₂.map_eq (((List.forall₂_and_left _ _).2 ⟨h.refers, hs.flip⟩).imp ?_)
  rintro use expression ⟨⟨table, ht, hr⟩, found, hf, he⟩
  cases ht.symm.trans hf
  rw [hr, he]

/-- A from-element that ranges over an entity has a group of the tables of the entity. -/
theorem lowerWith_entity_group {settings : Settings} {m : Metamodel} {s : Statement} {l : Lowered}
    {name entity : String} {ref : GroupRef} {E : Entity} (hl : lowerWith settings m s = .ok l)
    (hr : l.index.find? name = some ref) (hs : ref.source = .entity entity)
    (hE : m.entity entity = .ok E) :
    ∃ g, groupAt? l.scope.spaces ref.locator = some g ∧ m.Covers g.aliasBase E.tables g := by
  obtain ⟨g, hgroup, -, hstands⟩ := (lowerWith_registers hl).stands _ (FromIndex.mem_of_find? hr)
  simp only [hs] at hstands
  obtain ⟨E', hE', hgroupE⟩ := hstands
  cases hE.symm.trans hE'
  exact ⟨g, hgroup, (Metamodel.entityGroup_ok hgroupE).1⟩

/-- A path from an entity to an attribute stands for the slots that the attribute is stored in,
under the identification variable of their table. -/
theorem Scope.path_of_stores {s : Scope} {m : Metamodel} {name entity base : String} {ref : GroupRef}
    {g : Sql.TableGroup} {segments : List String} {tables : List TableId} {n : Nat} {slots : List Column}
    {x : SingularAttribute} (hr : s.index.find? name = some ref) (hs : ref.source = .entity entity)
    (hg : groupAt? s.spaces ref.locator = some g) (hc : m.Covers base tables g)
    (hw : walk m (AttributePath.dotted ⟨name, segments⟩) (.entity entity) segments =
      .ok (.attributeOf (.singular x)))
    (hk : x.kind ≠ .any) (hx : Build.Stores m.database tables n slots x) :
    ∃ use, g.table? n = some use ∧ s.path m ⟨name, segments⟩ =
      .ok (.ofColumns (slotReferences use.variableName slots) (some x.attributeType)) := by
  obtain ⟨table, ht, hholds⟩ := hx.columns
  obtain ⟨use, huse, -⟩ := hc.table? ht
  refine ⟨use, huse, ?_⟩
  have hresolve : s.resolve m ⟨name, segments⟩ =
      .ok ⟨AttributePath.dotted ⟨name, segments⟩, ref, .attributeOf (.singular x), 0⟩ := by
    simp only [resolve, Except.bind_eq_ok, Except.pure_eq_ok]
    exact ⟨ref, by rw [FromIndex.resolve, hr], (.entity entity, 0), by rw [start, hs], _, hw, rfl⟩
  have hcolumns : m.columnsAt g (x.tablePosition + 0) x.columns (some x.attributeType) =
      .ok (.ofColumns (slotReferences use.variableName slots) (some x.attributeType)) := by
    simp only [Metamodel.columnsAt, Nat.add_zero, hx.position, huse, Except.bind_eq_ok,
      Except.pure_eq_ok]
    exact ⟨_, Metamodel.columnReferences_of_holds use.variableName hholds, rfl⟩
  simp only [path, pathValue, Except.bind_eq_ok]
  refine ⟨_, hresolve, g, by rw [group, hg], ?_⟩
  simp only [if_neg hk, hcolumns]
  rfl

/-- A path to an attribute with slots of its own stands for the slots that the attribute declares,
in order, under the identification variable of the table that the declaring entity designates for
it, whichever place that table has among those of the entity that the path starts from. -/
theorem path_reads_declaring_table {d : Definition} {m : Metamodel} {settings : Settings}
    {s : Statement} {l : Lowered} {e D : EntityDefinition} {a : AttributeDefinition} {name : String}
    {ref : GroupRef} (hm : d.metamodel = .ok m) (hl : lowerWith settings m s = .ok l)
    (he : e ∈ d.entities) (hD : d.InLine e D) (ha : a ∈ D.attributes) (ho : a.ownsSlots = true)
    (hn : a.isAny = false) (hr : l.index.find? name = some ref) (hs : ref.source = .entity e.name) :
    ∃ slots order table number g use type,
      d.slots a = some slots ∧ d.Designates D a table ∧
      d.tableOrder e = .ok order ∧ order.idxOf? table = some number ∧
      l.statement.group? ref = some g ∧
      g.tables.map (·.reference.expression) = order.map Text.trim ∧
      g.table? number = some use ∧ use.reference.expression = Text.trim table ∧
      l.scope.path m ⟨name, [a.name]⟩ =
        .ok (.ofColumns (slotReferences use.variableName slots) type) := by
  obtain ⟨ems, ps, bare, r, r1, r2, hb⟩ := Definition.builds hm
  obtain ⟨em, p, E, hmap, -, hof, hbuilt, hentity⟩ := hb.entity he
  obtain ⟨am, ham, hin⟩ := Definition.exists_inherits hb.valid he hmap hD ha
  obtain ⟨x, hfind, r, r', hstored, hgrows⟩ :=
    Definition.find_declared hb.valid he hmap hof hbuilt hin ham
  obtain ⟨order, table, number, horder, hdes, hnumber, hmapping⟩ := hin.mapped
  -- the attribute is stored in the slots it declares
  obtain ⟨slots, hmaps⟩ := Definition.attributeMapping_maps (Definition.componentMapper_agrees _)
    (AttributeDefinition.isPlural_of_ownsSlots ho) hmapping
  obtain ⟨x, rfl, hkind, hstores⟩ := Build.stored_stores hmaps.described
    (hmaps.ownsSlots.trans ho) hstored
  -- the group has the tables of the entity
  obtain ⟨g, hgroup, hcovers⟩ := lowerWith_entity_group hl hr hs hentity
  have hexpressions : g.tables.map (·.reference.expression) = order.map Text.trim := by
    refine hcovers.expressions ?_
    cases horder.symm.trans (Definition.entityMapping_ok hmap).2.1
    rw [hbuilt.tables]
    exact hof.tables
  have hkind : x.kind ≠ .any := by
    rw [Ne, hkind, hmaps.isAny, hn]
    simp
  rw [hbuilt.tables] at hcovers
  obtain ⟨use, huse, hpath⟩ := Scope.path_of_stores hr hs hgroup hcovers
    (walk_entity hentity hfind) hkind (hstores.grows hgrows)
  rw [hmaps.tableNumber] at huse
  refine ⟨slots, order, table, number, g, use, _, hmaps.declared, hdes, horder, hnumber, hgroup,
    hexpressions, huse, ?_, hpath⟩
  obtain ⟨hlt, heq, -⟩ := List.idxOf?_eq_some_iff.1 hnumber
  have hat := congrArg (·[number]?) hexpressions
  rw [List.getElem?_map, List.getElem?_map, List.getElem?_eq_getElem hlt, heq,
    show g.tables[number]? = some use from huse] at hat
  exact Option.some.inj hat

theorem booksAndItems_lowered : ∃ l ref, lowerWith .default archived booksAndItems = .ok l ∧
    l.index.find? "i" = some ref ∧ ref.source = .entity "Item" := by
  obtain ⟨l, hl⟩ := Except.exists_ok_of_isSome
    (by decide +kernel : (lowerWith .default archived booksAndItems).toOption.isSome)
  have hsource : (lowerWith .default archived booksAndItems).toOption.map
      (fun l => (l.index.find? "i").map (·.source)) = some (some (.entity "Item")) := by
    decide +kernel
  rw [hl] at hsource
  obtain ⟨ref, hr, hs⟩ := Option.map_eq_some_iff.1 (Option.some.inj hsource)
  exact ⟨l, ref, hl, hr, hs⟩

/-- From an item to the size of a book, which is in the third table of items. -/
theorem path_reads_scan_of_item : ∃ l ref g use type,
    lowerWith .default archived booksAndItems = .ok l ∧ l.index.find? "i" = some ref ∧
    l.statement.group? ref = some g ∧ g.table? 2 = some use ∧ use.reference.expression = "scan" ∧
    l.scope.path archived ⟨"i", ["size"]⟩ = .ok (.ofColumns
      [⟨use.variableName, .column "width", SqlCode.integer, none⟩,
        ⟨use.variableName, .formula "w * h", SqlCode.integer, none⟩] type) := by
  obtain ⟨l, ref, hl, hr, hs⟩ := booksAndItems_lowered
  have hline : archive.InLine archiveItem archiveBook :=
    .inr (.inr ⟨by decide, .single ⟨by decide, rfl⟩⟩)
  obtain ⟨slots, order, table, number, g, use, type, hslots, ⟨_, _, -, -, htable⟩, horder, hnumber,
    hg, -, huse, he, hp⟩ := path_reads_declaring_table (a := bookSize) archive_metamodel hl (by decide)
      hline (by decide) rfl rfl hr hs
  obtain rfl : table = "scan" := htable
  have hslots' : archive.slots bookSize =
      some [⟨.column "width", SqlCode.integer⟩, ⟨.formula "w * h", SqlCode.integer⟩] := by
    decide +kernel
  cases hslots.symm.trans hslots'
  have horder' : archive.tableOrder archiveItem = .ok ["item", " book ", "scan"] := by
    decide +kernel
  cases horder.symm.trans horder'
  cases hnumber
  exact ⟨l, ref, g, use, type, hl, hr, hg, huse, he.trans (by decide +kernel), hp⟩

end EntityQuery
