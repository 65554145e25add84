import EntityQuery.Proofs.CollectionJoins
import EntityQuery.Proofs.CollectionRegistry
import EntityQuery.Proofs.TableIdentity

/-!
# Hierarchies in a single table

An entity of a single-table hierarchy may leave its table to the root. `single_table_shared`: if none
of an entity's line has another table, then the entity has the table of the root alone, and if it does
not rename the identifier either, every group for it is that table, with the identifier of the root.

The identifier of a hierarchy is declared by its root only, and its columns do not depend on the entity
they are looked up for (`identifierSlots_unique`).
-/

set_option autoImplicit false

namespace EntityQuery

/-- An entity does not give the columns of its identifier other names. -/
def EntityDefinition.KeepsKey (e : EntityDefinition) (names : List String) : Prop :=
  e.parent = none ∨ ∀ own, e.keyColumns = some own → own = names

namespace Definition

variable {d : Definition} {e root : EntityDefinition} {table : String}

/-! ## Tables -/

/-- No entity of a line has another table than the given one. -/
def Shares (d : Definition) (e : EntityDefinition) (table : String) : Prop :=
  ∀ D, d.InLine e D → D.table = none ∨ D.table = some table

theorem root_self (h : root.parent = none) : d.root root = .ok root := by
  simp only [Definition.root, ancestors, h, ancestorsFrom]
  rfl

theorem firstsAfter_eq_nil : ∀ {seen xs : List String}, (∀ x ∈ xs, x ∈ seen) →
    firstsAfter seen xs = []
  | _, [], _ => rfl
  | seen, x :: xs, h => by
    obtain ⟨hx, hxs⟩ := List.forall_mem_cons.1 h
    rw [firstsAfter, if_pos hx]
    exact firstsAfter_eq_nil hxs

/-- The first places of expressions are a single one if they are all the same. -/
theorem firstsAfter_eq_singleton_iff {xs : List String} (hxs : xs ≠ []) :
    firstsAfter [] xs = [table] ↔ ∀ x ∈ xs, x = table := by
  constructor
  · intro h x hx
    have hmem : x ∈ firstsAfter [] xs := by
      rw [firstsAfter_eq, List.filter_eq_self.2 (by simp), List.mem_eraseDups]
      exact hx
    rw [h] at hmem
    exact List.mem_singleton.1 hmem
  · intro h
    cases xs with
    | nil => exact absurd rfl hxs
    | cons x xs =>
      obtain ⟨rfl, hrest⟩ := List.forall_mem_cons.1 h
      have hnone : firstsAfter [x] xs = [] := firstsAfter_eq_nil fun y hy => by simp [hrest y hy]
      rw [firstsAfter, if_neg (by simp), hnone]

/-- What the tables of a single-table hierarchy are: those that its entities have, or else that of the
root. -/
structure InOneTable (d : Definition) (root : EntityDefinition) (table : String) : Prop where
  mem : root ∈ d.entities
  parent : root.parent = none
  strategy : root.inheritance = some .singleTable
  table : root.table = some table
  secondary : ∀ e ∈ d.entities, d.root e = .ok root → e.secondaryTables = []

namespace InOneTable

variable (h : d.InOneTable root table)
include h

theorem ownTables (he : e ∈ d.entities) (hr : d.root e = .ok root) :
    d.ownTables e = .ok [e.table.getD table] := by
  have hprimary : primaryTable e root = .ok (e.table.getD table) := by
    unfold primaryTable
    rw [h.strategy, h.table]
    cases e.table <;> rfl
  rw [Definition.ownTables, hr]
  simp only [bind, Except.bind, hprimary, h.secondary e he hr]
  rfl

/-- The tables of an entity are those that its line has. -/
theorem tableOrder (hv : d.Valid) (he : e ∈ d.entities) (hr : d.root e = .ok root)
    {members : List EntityDefinition} (hl : d.line e = .ok members) :
    d.tableOrder e = .ok (firstsAfter [] (members.map fun D => D.table.getD table)) := by
  have hown : members.mapM d.ownTables = .ok (members.map fun D => [D.table.getD table]) := by
    refine Except.mapM_of ?_
    rw [List.forall₂_map_right_iff, List.forall₂_same]
    intro D hD
    have hin := (mem_line_iff hv he hl).1 hD
    exact h.ownTables (hin.mem he) ((hin.root_eq hv he).trans hr)
  simp only [Definition.tableOrder, Except.bind_eq_ok, Except.pure_eq_ok]
  refine ⟨members, hl, _, hown, ?_⟩
  rw [← List.flatMap_def, ← List.map_eq_flatMap]

theorem tableOrder_singleton_iff (hv : d.Valid) (he : e ∈ d.entities) (hr : d.root e = .ok root) :
    d.tableOrder e = .ok [table] ↔ d.Shares e table := by
  obtain ⟨above, habove⟩ := hv.ancestors he
  have hl := line_of_ancestors habove
  rw [h.tableOrder hv he hr hl, Except.ok.injEq, firstsAfter_eq_singleton_iff (by simp),
    List.forall_mem_map]
  unfold Shares
  refine forall_congr' fun D => ?_
  rw [mem_line_iff hv he hl]
  refine imp_congr_right fun _ => ?_
  cases D.table <;> simp

end InOneTable

theorem exists_ownTables (hv : d.Valid) (he : e ∈ d.entities) {order : List String}
    (h : d.tableOrder e = .ok order) : ∃ tables, d.ownTables e = .ok tables := by
  simp only [tableOrder, Except.bind_eq_ok, Except.pure_eq_ok] at h
  obtain ⟨members, hl, own, hown, -⟩ := h
  have hmem : e ∈ members := (mem_line_iff hv he hl).2 (.inl rfl)
  obtain ⟨tables, -, htables⟩ := (Except.mapM_ok hown).exists_right hmem
  exact ⟨tables, htables⟩

/-- A root in a single table names it. -/
theorem inOneTable_of (hmem : root ∈ d.entities) (hparent : root.parent = none)
    (hstrategy : root.inheritance = some .singleTable)
    (hsecondary : ∀ e ∈ d.entities, d.root e = .ok root → e.secondaryTables = [])
    {tables : List String} (ho : d.ownTables root = .ok tables) :
    ∃ table, d.InOneTable root table := by
  simp only [ownTables, root_self hparent, Except.bind_eq_ok, Except.pure_eq_ok] at ho
  obtain ⟨_, heq, primary, hprimary, -⟩ := ho
  cases heq
  cases htable : root.table with
  | some table => exact ⟨table, hmem, hparent, hstrategy, htable, hsecondary⟩
  | none => simp [primaryTable, htable, hstrategy] at hprimary

/-! ## Identifiers -/

/-- The columns of an identifier do not depend on the entity of the hierarchy that has it. -/
theorem identifierSlots_unique {component : ComponentMapper}
    {embeddable : String → Option (List Column)} (hc : Agrees component embeddable)
    {e' : EntityDefinition} {slots slots' : List String × List SqlCode}
    (hroot : d.rootIdentifier e = d.rootIdentifier e')
    (h : d.identifierSlots component e = .ok slots)
    (h' : d.identifierSlots component e' = .ok slots') : slots = slots' := by
  obtain ⟨columns, codes⟩ := slots
  obtain ⟨columns', codes'⟩ := slots'
  obtain ⟨id, hid, hcases⟩ := identifierSlots_ok h
  obtain ⟨id', hid', hcases'⟩ := identifierSlots_ok h'
  cases hid.symm.trans (hroot.trans hid')
  obtain ⟨name, c, own, hname, hcomponent, hown, rfl, rfl⟩ | ⟨type, hnone, htype, rfl, rfl⟩ := hcases
  · obtain ⟨name', c', own', hname', hcomponent', hown', rfl, rfl⟩ | ⟨_, hnone, -⟩ := hcases'
    · cases hname.symm.trans hname'
      -- both mappings of the embeddable describe the slots that it declares
      obtain ⟨slots, hslots, hdescribes⟩ := hc _ _ _ _ hcomponent
      obtain ⟨slots', hslots', hdescribes'⟩ := hc _ _ _ _ hcomponent'
      cases hslots.symm.trans hslots'
      have hsame := hdescribes.zipped.trans hdescribes'.zipped.symm
      rw [hsame] at hown ⊢
      rw [List.map_injective_iff.2 (fun _ _ => Option.some.inj) (hown.symm.trans hown')]
    · cases hname.symm.trans hnone
  · obtain ⟨_, _, _, hname', -⟩ | ⟨type', -, htype', rfl, rfl⟩ := hcases'
    · cases hnone.symm.trans hname'
    · cases htype.symm.trans htype'
      rfl

theorem identifierMapping_keepsKey {component : ComponentMapper} {im : IdentifierMapping}
    {names : List String} {codes : List SqlCode}
    (hs : d.identifierSlots component e = .ok (names, codes)) (hk : e.KeepsKey names)
    (h : d.identifierMapping component e = .ok im) : im.columns = names ∧ im.sqlCodes = codes := by
  obtain ⟨_, columns, -, -, hslots, hcolumns, -⟩ := identifierMapping_ok h
  cases hs.symm.trans hslots
  refine ⟨?_, rfl⟩
  rcases hcolumns with ⟨hcolumns, -⟩ | ⟨hparent, hown, -⟩
  · exact hcolumns
  · rcases hk with hnone | hsame
    · exact absurd hnone hparent
    · exact hsame _ hown

end Definition

/-! ## Entities in one table -/

/-- Named columns with their SQL types. -/
def keySlots (names : List String) (codes : List SqlCode) : List Column :=
  List.zipWith (fun name code => ⟨.column name, code⟩) names codes

namespace Definition.Builds

variable {d : Definition} {m : Metamodel} {ems : List EntityMapping} {ps : List PendingEntity}
  {bare : List Entity} {r r1 r2 : Registry} {e root : EntityDefinition}

/-- An entity that does not rename its identifier has the columns of its hierarchy. -/
theorem identifier_held (h : d.Builds m ems ps bare r r1 r2) (he : e ∈ d.entities) {E : Entity}
    (hE : m.entity e.name = .ok E) :
    ∃ names codes, d.identifierSlots d.component e = .ok (names, codes) ∧
      (e.KeepsKey names → names.length = codes.length ∧ ∃ id, E.tables[0]? = some id ∧
        List.Forall₂ (m.database.Holds id) (keySlots names codes) E.identifier.columns) := by
  obtain ⟨e', _, im, he', hname, -, -, him, hlength, hstores⟩ := h.entity_tables hE
  cases h.valid.eq_of_name he' he hname
  obtain ⟨_, names, -, -, hslots, -⟩ := identifierMapping_ok him
  refine ⟨names, im.sqlCodes, hslots, fun hkeeps => ?_⟩
  obtain ⟨hnames, -⟩ := identifierMapping_keepsKey hslots hkeeps him
  rw [hnames] at hlength hstores
  exact ⟨hlength, hstores.columns⟩

/-- An entity that does not rename its identifier has the columns that its root declares. -/
theorem identifier_of_root (h : d.Builds m ems ps bare r r1 r2) (hparent : root.parent = none)
    {names : List String} {codes : List SqlCode}
    (hslots : d.identifierSlots d.component root = .ok (names, codes)) (he : e ∈ d.entities)
    (hr : d.root e = .ok root) {E : Entity} (hE : m.entity e.name = .ok E)
    (hkeeps : e.KeepsKey names) :
    ∃ id, List.Forall₂ (m.database.Holds id) (keySlots names codes) E.identifier.columns := by
  obtain ⟨names', codes', hslots', hown⟩ := h.identifier_held he hE
  have hidentifier : d.rootIdentifier e = d.rootIdentifier root := by
    simp only [rootIdentifier, hr, root_self hparent]
  cases identifierSlots_unique (componentMapper_agrees _) hidentifier hslots' hslots
  obtain ⟨-, id, -, hheld⟩ := hown hkeeps
  exact ⟨id, hheld⟩

end Definition.Builds

namespace Definition.InOneTable

variable {d : Definition} {m : Metamodel} {e root : EntityDefinition} {table : String}

/-- The first table of the root is the one of the hierarchy. -/
theorem firstTable (h : d.InOneTable root table) (hv : d.Valid) :
    ∃ rest, d.tableOrder root = .ok (table :: rest) := by
  obtain ⟨above, habove⟩ := hv.ancestors h.mem
  have horder := h.tableOrder hv h.mem (root_self h.parent) (line_of_ancestors habove)
  rw [List.cons_append, List.map_cons, h.table, Option.getD_some, firstsAfter,
    if_neg List.not_mem_nil] at horder
  exact ⟨_, horder⟩

/-- An entity whose line has no other table has the first table of the root alone. -/
theorem tables (h : d.InOneTable root table) (hm : d.metamodel = .ok m) {R : Entity}
    (hR : m.entity root.name = .ok R) (he : e ∈ d.entities) (hr : d.root e = .ok root) {E : Entity}
    (hE : m.entity e.name = .ok E) (hshares : d.Shares e table) :
    ∃ id, E.tables = [id] ∧ m.database.Means table id ∧
      (Database.isDerived table = false → id = R.primaryTable) := by
  obtain ⟨_, _, _, _, _, _, hb⟩ := builds hm
  have hv := hb.valid
  obtain ⟨db, hexact, hgrows, hentities⟩ := entity_means hm
  -- the table of the entity
  obtain ⟨e', tables, he', hname, horder, hmeans⟩ := hentities hE
  cases hv.eq_of_name he' he hname
  cases ((h.tableOrder_singleton_iff hv he hr).2 hshares).symm.trans horder
  obtain ⟨id, _, hid, hnil, htables⟩ := List.forall₂_cons_left_iff.1 hmeans
  cases List.forall₂_nil_left_iff.1 hnil
  -- the first one of the root
  obtain ⟨root', tables, hroot', hname, horder, hmeans⟩ := hentities hR
  cases hv.eq_of_name hroot' h.mem hname
  obtain ⟨rest, hfirst⟩ := h.firstTable hv
  cases hfirst.symm.trans horder
  obtain ⟨first, _, hprimary, -, heq⟩ := List.forall₂_cons_left_iff.1 hmeans
  have hfirst : R.primaryTable = first := (List.cons.inj heq).1
  refine ⟨id, htables, hid.grows hgrows, fun hphysical => ?_⟩
  rw [hfirst]
  exact hid.eq_of_reference hexact hprimary hphysical rfl

end Definition.InOneTable

/-- A group of one table, whose rows are known by the given columns of it. -/
structure Metamodel.OnTable (m : Metamodel) (E : Entity) (table : String) (key : List Column)
    (g : Sql.TableGroup) : Prop where
  lists : Lists g [table]
  alone : g.tableJoins = []
  value : m.columnsAt g 0 E.identifier.columns (some (.entity E.name)) =
    .ok (.ofColumns (slotReferences (variableAt g.aliasBase 0) key) (some (.entity E.name)))

theorem Metamodel.onTable_of {m : Metamodel} {E : Entity} {table base : String} {key : List Column}
    {g : Sql.TableGroup} {id place : TableId} (hg : m.entityGroup E base = .ok g)
    (htables : E.tables = [id]) (hmeans : m.database.Means table id)
    (hheld : List.Forall₂ (m.database.Holds place) key E.identifier.columns) :
    m.OnTable E table key g := by
  have hcovers := (entityGroup_ok hg).1
  rw [htables] at hcovers
  obtain ⟨use, huse, -, -, hvariable, -⟩ :=
    hcovers.table? (show ([id] : List TableId)[0]? = some id from rfl)
  refine ⟨hcovers.lists (.cons hmeans.shows .nil), ?_, ?_⟩
  · simpa [Sql.TableGroupOf.tables] using hcovers.length
  · rw [columnsAt_of_holds _ huse hheld, hvariable, hcovers.aliasBase]

/-- In a hierarchy that is kept in a single table and has no secondary tables, an entity has that table
alone when none of its line has another one. When it does not rename the identifier, it has the columns
of the root's; when both hold, every group for it is that table with those columns. -/
theorem single_table_shared {d : Definition} {m : Metamodel} {root : EntityDefinition}
    (hm : d.metamodel = .ok m) (hmem : root ∈ d.entities) (hparent : root.parent = none)
    (hstrategy : root.inheritance = some .singleTable)
    (hsecondary : ∀ e ∈ d.entities, d.root e = .ok root → e.secondaryTables = []) :
    ∃ table R names codes, root.table = some table ∧ m.entity root.name = .ok R ∧
      m.HasColumns R.identifier.columns (keySlots names codes) ∧ names.length = codes.length ∧
      ∀ e ∈ d.entities, d.root e = .ok root → ∃ E, m.entity e.name = .ok E ∧
        (d.tableOrder e = .ok [table] ↔ d.Shares e table) ∧
        (d.Shares e table → ∃ id, E.tables = [id] ∧ m.database.Means table id ∧
          (Database.isDerived table = false → id = R.primaryTable)) ∧
        (e.KeepsKey names → m.HasColumns E.identifier.columns (keySlots names codes)) ∧
        (d.Shares e table → e.KeepsKey names →
          (∀ base, ∃ g, m.entityGroup E base = .ok g ∧
            m.OnTable E table (keySlots names codes) g) ∧
          ∀ settings s l, lowerWith settings m s = .ok l → ∀ name ref,
            (name, ref) ∈ l.index.entries → ref.source = .entity e.name →
            ∃ g, l.scope.group ref = .ok g ∧ m.OnTable E table (keySlots names codes) g) := by
  obtain ⟨_, _, _, _, _, _, hb⟩ := Definition.builds hm
  have hv := hb.valid
  obtain ⟨_, _, R, hmapped, -, -, -, hR⟩ := hb.entity hmem
  obtain ⟨_, hown⟩ := Definition.exists_ownTables hv hmem (Definition.entityMapping_ok hmapped).2.1
  obtain ⟨table, h⟩ := Definition.inOneTable_of hmem hparent hstrategy hsecondary hown
  obtain ⟨names, codes, hslots, hroot⟩ := hb.identifier_held hmem hR
  obtain ⟨hlength, _, -, hheld⟩ := hroot (.inl hparent)
  refine ⟨table, R, names, codes, h.table, hR, Metamodel.hasColumns_of_holds hheld, hlength, ?_⟩
  intro e he hr
  obtain ⟨_, _, E, -, -, -, -, hE⟩ := hb.entity he
  have htables := h.tables hm hR he hr hE
  have hkey := hb.identifier_of_root hparent hslots he hr hE
  refine ⟨E, hE, h.tableOrder_singleton_iff hv he hr, htables, ?_, ?_⟩
  · intro hkeeps
    obtain ⟨_, hheld⟩ := hkey hkeeps
    exact Metamodel.hasColumns_of_holds hheld
  · intro hshares hkeeps
    obtain ⟨id, hone, hmeans, -⟩ := htables hshares
    obtain ⟨_, hheld⟩ := hkey hkeeps
    refine ⟨fun base => ?_, fun settings s l hl name ref hentry hsource => ?_⟩
    · obtain ⟨g, hg⟩ := (Definition.complete hm).entityGroup (Metamodel.mem_of_entity hE) base
      exact ⟨g, hg, Metamodel.onTable_of hg hone hmeans hheld⟩
    · obtain ⟨g, hg, -, hstands⟩ := (lowerWith_registers hl).stands (name, ref) hentry
      rw [hsource] at hstands
      obtain ⟨_, hE', hgroup⟩ := hstands
      cases hE.symm.trans hE'
      exact ⟨g, Scope.group_ok.2 hg, Metamodel.onTable_of hgroup hone hmeans hheld⟩

/-- Animals are known by a column of their one table. -/
def animal : EntityDefinition :=
  ⟨"Animal", none, some "animal", [], some .singleTable, some ⟨"id", ["animal_id"], none, none⟩, none, []⟩

/-- Kittens repeat the table of the animals. -/
def kitten : EntityDefinition :=
  ⟨"Kitten", some "Cat", some "animal", [], none, none, none, []⟩

def animals : Definition :=
  ⟨none, [animal, ⟨"Cat", some "Animal", none, [], none, none, none, []⟩, kitten], []⟩

/-- All kittens. -/
def kittens : Statement :=
  .select ⟨⟨[⟨⟨"Kitten", some "k"⟩, []⟩]⟩, none, none, none⟩

/-- Kittens are looked for in the table of the animals alone, by its key. -/
theorem kittens_among_animals : ∃ m E l ref g, animals.metamodel = .ok m ∧
    m.entity "Kitten" = .ok E ∧ lowerWith .default m kittens = .ok l ∧
    ("k", ref) ∈ l.index.entries ∧ l.scope.group ref = .ok g ∧
    m.OnTable E "animal" [⟨.column "animal_id", SqlCode.bigint⟩] g := by
  have hrun : (animals.metamodel.toOption.bind fun m => (m.entity "Animal").toOption.bind fun R =>
      (lowerWith .default m kittens).toOption.bind fun l => l.index.entries.head?.map fun entry =>
      (decide (R.identifier.columns.map m.database.column? =
        [⟨.column "animal_id", SqlCode.bigint⟩].map some), entry.1, entry.2.source)) =
        some (true, "k", .entity "Kitten") := by
    decide +kernel
  obtain ⟨m, hm, hrun⟩ := Option.bind_eq_some_iff.1 hrun
  obtain ⟨R, hR, hrun⟩ := Option.bind_eq_some_iff.1 hrun
  obtain ⟨l, hl, hrun⟩ := Option.bind_eq_some_iff.1 hrun
  obtain ⟨⟨name, ref⟩, hentry, hrun⟩ := Option.map_eq_some_iff.1 hrun
  simp only [Prod.mk.injEq, decide_eq_true_eq] at hrun
  obtain ⟨hcolumns, rfl, hsource⟩ := hrun
  have hm := Except.toOption_eq_some.1 hm
  have hl := Except.toOption_eq_some.1 hl
  have hentry := List.mem_of_mem_head? hentry
  obtain ⟨table, R', names, codes, htable, hR', hhas, -, hentities⟩ :=
    single_table_shared hm (show animal ∈ animals.entities by decide) rfl rfl (by decide)
  cases (Except.toOption_eq_some.1 hR).symm.trans hR'
  cases htable
  have hkey : keySlots names codes = [⟨.column "animal_id", SqlCode.bigint⟩] :=
    List.map_injective_iff.2 (fun _ _ => Option.some.inj)
      ((List.Forall₂.map_eq hhas).symm.trans hcolumns)
  obtain ⟨E, hE, horder, -, -, hshared⟩ := hentities kitten (by decide) rfl
  obtain ⟨-, hlowered⟩ := hshared (horder.1 rfl) (.inr fun _ h => nomatch h)
  obtain ⟨g, hg, hon⟩ := hlowered _ _ _ hl _ _ hentry hsource
  rw [hkey] at hon
  exact ⟨m, E, l, ref, g, hm, hE, hl, hentry, hg, hon⟩

/-- Animals again, but birds have a table of their own and dogs a column of their own. -/
def strays : Definition :=
  ⟨none, [animal, ⟨"Bird", some "Animal", some "bird", [], none, none, none, []⟩,
    ⟨"Dog", some "Animal", none, [], none, none, some ["dog_id"], []⟩], []⟩

/-- Birds then have two tables, and dogs another column for their identifier. -/
theorem strays_leave_table : ∃ m bird dog, strays.metamodel = .ok m ∧ m.entity "Bird" = .ok bird ∧
    m.entity "Dog" = .ok dog ∧ bird.tables.length = 2 ∧
    dog.identifier.columns.map m.database.column? = [some ⟨.column "dog_id", SqlCode.bigint⟩] := by
  have hrun : (strays.metamodel.toOption.bind fun m => (m.entity "Bird").toOption.bind fun bird =>
      (m.entity "Dog").toOption.map fun dog =>
      decide (bird.tables.length = 2 ∧ dog.identifier.columns.map m.database.column? =
        [some ⟨.column "dog_id", SqlCode.bigint⟩])) = some true := by
    decide +kernel
  obtain ⟨m, hm, hrun⟩ := Option.bind_eq_some_iff.1 hrun
  obtain ⟨bird, hbird, hrun⟩ := Option.bind_eq_some_iff.1 hrun
  obtain ⟨dog, hdog, hrun⟩ := Option.map_eq_some_iff.1 hrun
  exact ⟨m, bird, dog, Except.toOption_eq_some.1 hm, Except.toOption_eq_some.1 hbird,
    Except.toOption_eq_some.1 hdog, of_decide_eq_true hrun⟩

end EntityQuery
