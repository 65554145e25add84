import EntityQuery.Proofs.CollectionTables
import EntityQuery.Proofs.TableOrder
import Mathlib.Data.List.Pairwise

/-!
# Which expressions are the same table

The tables of an entity are taken from expressions, each of them once. A physical table is found again
by its name, without the blanks around it, so that two expressions may come to the same table:
`physical_tables_distinct` says when the tables of an entity are distinct, and how often each of them is
in its group.

`Database.Means` says what the table of an expression is, and `Database.Exact` that no physical table is
there twice; registration keeps both (`Registration.registerAll_placed`).
-/

set_option autoImplicit false

namespace EntityQuery

/-! ## Tables and their names -/

namespace Database

/-- What an expression is in the `from` clause of SQL. -/
def referenceFor (expression : String) : TableReference :=
  if isDerived expression then .derived (Text.trim expression) else .physical (Text.trim expression)

/-- Every physical table is where its name leads. -/
def Exact (db : Database) : Prop :=
  ∀ id table name, db.table? id = some table → table.reference = .physical name →
    db.names.lookup name = some id

/-- The table at a place is the one that an expression stands for. -/
def Means (db : Database) (expression : String) (id : TableId) : Prop :=
  ∃ table, db.table? id = some table ∧ table.reference = referenceFor expression

/-- Whether there is a physical table at a place. -/
def isPhysical (db : Database) (id : TableId) : Bool :=
  (db.table? id).any (·.reference.isPhysical)

variable {db db' : Database} {expression other : String} {id id' : TableId}

theorem Means.grows (h : db.Means expression id) (hg : db.Grows db') :
    db'.Means expression id := by
  obtain ⟨table, ht, hr⟩ := h
  obtain ⟨more, ht⟩ := hg _ _ ht
  exact ⟨_, ht, hr⟩

theorem Means.shows (h : db.Means expression id) : db.Shows expression id := by
  obtain ⟨table, ht, hr⟩ := h
  refine ⟨table, ht, ?_⟩
  rw [hr, referenceFor]
  split <;> rfl

theorem Means.isPhysical (h : db.Means expression id) :
    db.isPhysical id = !isDerived expression := by
  obtain ⟨table, ht, hr⟩ := h
  rw [Database.isPhysical, ht, Option.any_some, hr, referenceFor]
  cases isDerived expression <;> rfl

/-- A table is the only one with its name. -/
theorem Means.eq_of_reference (hdb : db.Exact) (h : db.Means expression id)
    (h' : db.Means other id') (hp : isDerived expression = false)
    (heq : referenceFor expression = referenceFor other) : id = id' := by
  obtain ⟨table, ht, hr⟩ := h
  obtain ⟨table', ht', hr'⟩ := h'
  have hname : referenceFor expression = .physical (Text.trim expression) := by
    simp [referenceFor, hp]
  have hfirst := hdb id table _ ht (hr.trans hname)
  have hsecond := hdb id' table' _ ht' (hr'.trans (heq.symm.trans hname))
  exact Option.some.inj (hfirst.symm.trans hsecond)

theorem Means.reference_eq (h : db.Means expression id) (h' : db.Means other id) :
    referenceFor expression = referenceFor other := by
  obtain ⟨table, ht, hr⟩ := h
  obtain ⟨table', ht', hr'⟩ := h'
  cases ht.symm.trans ht'
  exact hr.symm.trans hr'

/-! ## Tables are found again -/

/-- A table that is added keeps names exact if its own leads to it. -/
theorem Exact.add {reference : TableReference} {names : List (String × TableId)} (h : db.Exact)
    (hold : ∀ name id, db.names.lookup name = some id → names.lookup name = some id)
    (hnew : ∀ name, reference = .physical name →
      names.lookup name = some ⟨db.tables.length⟩) :
    Exact ⟨db.tables ++ [⟨reference, []⟩], names⟩ := by
  intro id table name ht hr
  rcases List.getElem?_concat_cases ht with hbefore | ⟨hid, rfl⟩
  · exact hold name id (h id table name hbefore hr)
  · rw [hnew name hr, ← hid]

theorem physical_exact (name : String) (h : db.Exact) : (db.physical name).2.Exact := by
  unfold physical
  split
  · exact h
  · rename_i hnone
    refine h.add (fun other id hother => ?_) fun other heq => ?_
    · have hne : (other == name) = false := by
        rw [beq_eq_false_iff_ne]
        rintro rfl
        cases hnone.symm.trans hother
      rw [List.lookup_cons, hne]
      exact hother
    · cases heq
      simp [Database.add]

theorem tableFor_means (expression : String) (hn : db.Named) (h : db.Exact) :
    (db.tableFor expression).2.Exact ∧
      (db.tableFor expression).2.Means expression (db.tableFor expression).1 := by
  unfold tableFor
  by_cases hd : isDerived expression
  · rw [if_pos hd]
    refine ⟨h.add (fun _ _ hl => hl) nofun, _, add_table? _ db, ?_⟩
    simp [referenceFor, hd]
  · rw [if_neg hd]
    obtain ⟨-, table, ht, hr⟩ := physical_named (Text.trim expression) hn
    refine ⟨physical_exact _ h, table, ht, ?_⟩
    simp [referenceFor, hd, hr]

theorem tablesFor_mean : ∀ (expressions : List String) {db : Database}, db.Named → db.Exact →
    (tablesFor expressions db).2.Exact ∧
      List.Forall₂ (tablesFor expressions db).2.Means expressions (tablesFor expressions db).1
  | [], _, _, h => ⟨h, .nil⟩
  | expression :: rest, db, hn, h => by
    have hnamed := (tableFor_shows expression hn).1
    obtain ⟨hexact, hmeans⟩ := tableFor_means expression hn h
    obtain ⟨hexact', hrest⟩ := tablesFor_mean rest hnamed hexact
    exact ⟨hexact', .cons (hmeans.grows (tablesFor_show rest hnamed).1) hrest⟩

end Database

/-! ## Registration -/

namespace Registration

/-- The tables of the entities registered are those of their mappings. -/
structure Placed (r : Registration) (ms : List EntityMapping) : Prop where
  named : r.database.Named
  exact : r.database.Exact
  tables : List.Forall₂ (fun m p => p.name = m.name ∧
    List.Forall₂ r.database.Means m.tables p.tables) ms r.pending

theorem placed_empty : empty.Placed [] := by
  refine ⟨?_, ?_, .nil⟩
  · intro _ _ hl
    cases hl
  · intro id table _ ht _
    simp [empty, Database.empty, Database.table?] at ht

theorem register_placed {r r' : Registration} {m : EntityMapping} {ms : List EntityMapping}
    (hr : r.Placed ms) (h : r.register m = .ok r') : r'.Placed (ms ++ [m]) := by
  obtain ⟨_, -, hgrows, hnamed, -⟩ := register_ok hr.named h
  unfold register at h
  split at h
  · cases h
  · split at h
    · cases h
    · rename_i first rest htables
      cases h
      have hfirst := (Database.tableFor_shows first hr.named).1
      obtain ⟨hexact, hmeans⟩ := Database.tableFor_means first hr.named hr.exact
      obtain ⟨hexact', hrest⟩ := Database.tablesFor_mean rest hfirst hexact
      refine ⟨hnamed, hexact', List.rel_append ?_ (.cons ?_ .nil)⟩
      · exact hr.tables.imp fun _ _ hp => ⟨hp.1, hp.2.imp fun _ _ hx => hx.grows hgrows⟩
      · rw [htables]
        refine ⟨rfl, ?_⟩
        exact .cons (hmeans.grows (Database.tablesFor_show rest hfirst).1) hrest

theorem registerAll_placed : ∀ {ms done : List EntityMapping} {r r' : Registration}, r.Placed done →
    r.registerAll ms = .ok r' → r'.Placed (done ++ ms)
  | [], _, _, _, hr, h => by
    cases h
    simpa using hr
  | m :: ms, _, _, _, hr, h => by
    simp only [registerAll, Except.bind_eq_ok] at h
    obtain ⟨r1, h1, h⟩ := h
    simpa using registerAll_placed (register_placed hr h1) h

/-- The tables of the entities that are built are those of their mappings, and each physical one of
them is there once. -/
theorem build_means {ms : List EntityMapping} {r : Registration} {m : Metamodel}
    (hr : empty.registerAll ms = .ok r) (hb : r.build = .ok m) :
    r.database.Exact ∧ r.database.Grows m.database ∧
      List.Forall₂ (fun em E => E.name = em.name ∧
        List.Forall₂ r.database.Means em.tables E.tables) ms m.entities := by
  have hplaced := registerAll_placed placed_empty hr
  obtain ⟨bare, hbuilt⟩ := build_entities hb
  refine ⟨hplaced.exact, build_grows hb, hplaced.tables.comp (fun hp hE => ?_) hbuilt⟩
  rw [hE.tables, hE.name]
  exact hp

end Registration

/-! ## Definitions -/

namespace Definition

variable {d : Definition}

theorem firstsAfter_nodup : ∀ (seen xs : List String),
    (firstsAfter seen xs).Nodup ∧ ∀ x ∈ firstsAfter seen xs, x ∉ seen
  | _, [] => ⟨.nil, by simp [firstsAfter]⟩
  | seen, x :: xs => by
    rw [firstsAfter]
    split
    · exact firstsAfter_nodup seen xs
    · rename_i hx
      obtain ⟨hnodup, hnew⟩ := firstsAfter_nodup (x :: seen) xs
      refine ⟨List.nodup_cons.2 ⟨fun hmem => hnew x hmem List.mem_cons_self, hnodup⟩, ?_⟩
      refine List.forall_mem_cons.2 ⟨hx, fun y hy hseen => ?_⟩
      exact hnew y hy (List.mem_cons_of_mem x hseen)

/-- No expression is there twice among those of the tables of an entity. -/
theorem tableOrder_nodup {e : EntityDefinition} {order : List String}
    (h : d.tableOrder e = .ok order) : order.Nodup := by
  simp only [tableOrder, Except.bind_eq_ok, Except.pure_eq_ok] at h
  obtain ⟨_, -, _, -, rfl⟩ := h
  exact (firstsAfter_nodup [] _).1

/-- The tables of the entities of a metamodel are those of their definitions, and each physical one of
them is there once. -/
theorem entity_means {m : Metamodel} (hm : d.metamodel = .ok m) :
    ∃ db : Database, db.Exact ∧ db.Grows m.database ∧ ∀ {name E}, m.entity name = .ok E →
      ∃ e tables, e ∈ d.entities ∧ e.name = name ∧ d.tableOrder e = .ok tables ∧
        List.Forall₂ db.Means tables E.tables := by
  simp only [metamodel, entityMappings, Except.bind_eq_ok] at hm
  obtain ⟨ems, ⟨_, -, hems⟩, r, hr, hb⟩ := hm
  obtain ⟨hexact, hgrows, hmeans⟩ := Registration.build_means hr hb
  refine ⟨r.database, hexact, hgrows, fun {name E} hE => ?_⟩
  obtain ⟨em, hem, hname, htables⟩ := hmeans.exists_left (Metamodel.mem_of_entity hE)
  obtain ⟨e, he, hmapping⟩ := (Except.mapM_ok hems).exists_left hem
  obtain ⟨hemname, horder, -⟩ := entityMapping_ok hmapping
  exact ⟨e, em.tables, he, by rw [← hemname, ← hname, Metamodel.entity_name hE], horder, htables⟩

end Definition

/-! ## Groups -/

/-- Two expressions name the same physical table. -/
def SameTable (x y : String) : Prop :=
  Database.isDerived x = false ∧ Database.isDerived y = false ∧ Text.trim x = Text.trim y

theorem SameTable.symm {x y : String} (h : SameTable x y) : SameTable y x :=
  ⟨h.2.1, h.1, h.2.2.symm⟩

instance : Std.Symm fun x y => ¬ SameTable x y := ⟨fun _ _ hne h => hne h.symm⟩

theorem sameTable_iff {x y : String} : SameTable x y ↔
    Database.isDerived x = false ∧ Database.referenceFor x = Database.referenceFor y := by
  unfold SameTable Database.referenceFor
  cases hx : Database.isDerived x <;> cases hy : Database.isDerived y <;> simp

theorem Database.Means.same_iff {db : Database} {x y : String} {id id' : TableId} (hdb : db.Exact)
    (hx : db.Means x id) (hy : db.Means y id') :
    SameTable x y ↔ db.isPhysical id ∧ db.isPhysical id' ∧ id = id' := by
  rw [sameTable_iff, hx.isPhysical, hy.isPhysical]
  constructor
  · rintro ⟨hphysical, heq⟩
    have hid := hx.eq_of_reference hdb hy hphysical heq
    subst hid
    have hboth := hx.isPhysical.symm.trans hy.isPhysical
    rw [← hboth, hphysical]
    exact ⟨rfl, rfl, rfl⟩
  · rintro ⟨hphysical, -, rfl⟩
    exact ⟨by simpa using hphysical, hx.reference_eq hy⟩

/-- The physical tables among those of expressions are distinct when no two expressions name the same
one. -/
theorem Database.Exact.physical_nodup_iff {db : Database} {tables : List String}
    {ids : List TableId} (hdb : db.Exact) (h : List.Forall₂ db.Means tables ids)
    (hnodup : tables.Nodup) :
    (ids.filter db.isPhysical).Nodup ↔ ∀ x ∈ tables, ∀ y ∈ tables, SameTable x y → y = x := by
  have hpairs : (ids.filter db.isPhysical).Nodup ↔ tables.Pairwise fun x y => ¬ SameTable x y := by
    rw [List.Nodup, List.pairwise_filter]
    refine (h.pairwise_iff fun hx hy => ?_).symm
    rw [hx.same_iff hdb hy]
    simp only [not_and, ne_eq]
  rw [hpairs]
  constructor
  · intro hdifferent x hx y hy hsame
    by_contra hne
    exact hdifferent.forall hx hy (Ne.symm hne) hsame
  · intro hsingle
    exact hnodup.imp_of_mem fun hx hy hne hsame => hne (hsingle _ hx _ hy hsame).symm

/-- The tables in use in a group: at each place that of its expression, under the variable of the
place. -/
theorem Metamodel.Covers.mem_uses_iff {m : Metamodel} {base : String} {ids : List TableId}
    {g : Sql.TableGroup} {tables : List String} (hc : m.Covers base ids g)
    (h : List.Forall₂ m.database.Means tables ids) {variableName : String}
    {reference : TableReference} :
    (∃ use ∈ g.tables, use.variableName = variableName ∧ use.reference = reference) ↔
      ∃ i x, tables[i]? = some x ∧ variableAt base i = variableName ∧
        Database.referenceFor x = reference := by
  have refers {use : Sql.TableUse} {x : String} (hmeans : m.database.Means x use.id)
      (hrefers : m.Refers use) : Database.referenceFor x = use.reference := by
    obtain ⟨table, ht, hr⟩ := hmeans
    obtain ⟨table', ht', hr'⟩ := hrefers
    cases ht.symm.trans ht'
    exact hr.symm.trans hr'.symm
  constructor
  · rintro ⟨use, huse, rfl, rfl⟩
    obtain ⟨i, hi⟩ := List.getElem?_of_mem huse
    have hid : ids[i]? = some use.id := by
      rw [← hc.tables, List.getElem?_map, hi, Option.map_some]
    obtain ⟨x, hx, hmeans⟩ := h.flip.exists_getElem? hid
    obtain ⟨use', huse', -, -, hname, hrefers⟩ := hc.table? hid
    cases hi.symm.trans huse'
    exact ⟨i, x, hx, hname.symm, refers hmeans hrefers⟩
  · rintro ⟨i, x, hx, rfl, rfl⟩
    obtain ⟨id, hid, hmeans⟩ := h.exists_getElem? hx
    obtain ⟨use, -, huse, rfl, hname, hrefers⟩ := hc.table? hid
    exact ⟨use, huse, hname, (refers hmeans hrefers).symm⟩

theorem variableAt_position_inj {base : String} {i j : Nat}
    (h : variableAt base i = variableAt base j) : i = j := by
  have hlist := congrArg String.toList h
  rw [toList_variableAt, toList_variableAt, List.append_cancel_left_eq, List.cons.injEq] at hlist
  exact toDigits_inj hlist.2

/-- A physical table is under a single identification variable of a group when no other expression
names it. -/
theorem Metamodel.Covers.single_iff {m : Metamodel} {base : String} {ids : List TableId}
    {g : Sql.TableGroup} {tables : List String} (hc : m.Covers base ids g)
    (h : List.Forall₂ m.database.Means tables ids) (hnodup : tables.Nodup) {x : String}
    (hx : x ∈ tables) (hp : Database.isDerived x = false) :
    (∃! variableName, ∃ use ∈ g.tables, use.variableName = variableName ∧
        use.reference = .physical (Text.trim x)) ↔
      ∀ y ∈ tables, SameTable x y → y = x := by
  have hreference : Database.referenceFor x = .physical (Text.trim x) := by
    simp [Database.referenceFor, hp]
  rw [← hreference]
  obtain ⟨i, hi⟩ := List.getElem?_of_mem hx
  constructor
  · rintro ⟨_, -, hunique⟩ y hy hsame
    obtain ⟨j, hj⟩ := List.getElem?_of_mem hy
    have hfirst := hunique _ ((hc.mem_uses_iff h).2 ⟨i, x, hi, rfl, rfl⟩)
    have hsecond := hunique _ ((hc.mem_uses_iff h).2 ⟨j, y, hj, rfl, (sameTable_iff.1 hsame).2.symm⟩)
    cases variableAt_position_inj (hfirst.trans hsecond.symm)
    exact Option.some.inj (hj.symm.trans hi)
  · intro hsingle
    refine ⟨variableAt base i, (hc.mem_uses_iff h).2 ⟨i, x, hi, rfl, rfl⟩, fun variableName huse => ?_⟩
    obtain ⟨j, y, hj, rfl, hother⟩ := (hc.mem_uses_iff h).1 huse
    have hy := hsingle y (List.mem_of_getElem? hj) (sameTable_iff.2 ⟨hp, hother.symm⟩)
    subst hy
    have hlt := (List.getElem?_eq_some_iff.1 hj).1
    rw [(List.getElem?_inj hlt hnodup).1 (hj.trans hi.symm)]

/-- The physical tables of an entity are distinct when no two expressions of its line name the same one.
In its groups a physical table is under a single identification variable when no other expression
names it. -/
theorem physical_tables_distinct {d : Definition} {m : Metamodel} {name : String} {E : Entity}
    (hm : d.metamodel = .ok m) (hE : m.entity name = .ok E) :
    ∃ e tables, e ∈ d.entities ∧ e.name = name ∧ d.LineTables e tables ∧
      ((E.tables.filter m.database.isPhysical).Nodup ↔
        ∀ x ∈ tables, ∀ y ∈ tables, SameTable x y → y = x) ∧
      ∀ base, ∃ g, m.entityGroup E base = .ok g ∧
        ∀ x ∈ tables, Database.isDerived x = false →
          ((∃! variableName, ∃ use ∈ g.tables, use.variableName = variableName ∧
              use.reference = .physical (Text.trim x)) ↔
            ∀ y ∈ tables, SameTable x y → y = x) := by
  obtain ⟨db, hexact, hgrows, hentities⟩ := Definition.entity_means hm
  obtain ⟨e, tables, he, hname, horder, hmeans⟩ := hentities hE
  have hmeans' := hmeans.imp fun _ _ hx => hx.grows hgrows
  -- what is built later leaves the kinds of the tables alone
  have hphysical : E.tables.filter m.database.isPhysical = E.tables.filter db.isPhysical := by
    refine List.filter_congr fun id hid => ?_
    obtain ⟨x, -, hx⟩ := hmeans.exists_left hid
    rw [(hx.grows hgrows).isPhysical, hx.isPhysical]
  obtain ⟨ems, ps, bare, r, r1, r2, hb⟩ := Definition.builds hm
  refine ⟨e, tables, he, hname, Definition.tableOrder_tables hb.valid he horder, ?_, fun base => ?_⟩
  · rw [hphysical]
    exact hexact.physical_nodup_iff hmeans (Definition.tableOrder_nodup horder)
  · obtain ⟨g, hg⟩ := (Definition.complete hm).entityGroup (Metamodel.mem_of_entity hE) base
    have hcovers := (Metamodel.entityGroup_ok hg).1
    exact ⟨g, hg, fun x hx hp =>
      hcovers.single_iff hmeans' (Definition.tableOrder_nodup horder) hx hp⟩

/-- The tables of members are distinct, and each is under a single variable, though one is written
with blanks around it. -/
theorem member_tables_distinct : ∃ m E, clubs.metamodel = .ok m ∧ m.entity "Member" = .ok E ∧
    (E.tables.filter m.database.isPhysical).Nodup ∧
    ∃ e tables, e ∈ clubs.entities ∧ e.name = "Member" ∧ clubs.LineTables e tables ∧
      ∀ base, ∃ g, m.entityGroup E base = .ok g ∧
        ∀ x ∈ tables, Database.isDerived x = false →
          ∃! variableName, ∃ use ∈ g.tables, use.variableName = variableName ∧
            use.reference = .physical (Text.trim x) := by
  have hrun : (clubs.metamodel.toOption.bind fun m => (m.entity "Member").toOption.map fun E =>
      decide (E.tables.filter m.database.isPhysical).Nodup) = some true := by
    decide +kernel
  obtain ⟨m, hm, hrun⟩ := Option.bind_eq_some_iff.1 hrun
  obtain ⟨E, hE, hrun⟩ := Option.map_eq_some_iff.1 hrun
  have hm := Except.toOption_eq_some.1 hm
  have hE := Except.toOption_eq_some.1 hE
  have hnodup := of_decide_eq_true hrun
  obtain ⟨e, tables, he, hname, htables, hiff, hgroups⟩ := physical_tables_distinct hm hE
  refine ⟨m, E, hm, hE, hnodup, e, tables, he, hname, htables, fun base => ?_⟩
  obtain ⟨g, hg, hsingle⟩ := hgroups base
  exact ⟨g, hg, fun x hx hp => (hsingle x hx hp).2 (hiff.1 hnodup x hx)⟩

/-- Visitors, whose badges are in a table of their own and whose own table is written twice. -/
def visitors : Definition :=
  ⟨none, [⟨"Visitor", none, some "visitor", ["badge", " visitor"], none, some ⟨"id", [], none, none⟩,
    none, []⟩], []⟩

/-- The table of visitors is joined twice. -/
theorem visitors_joined_twice : ∃ m E g, visitors.metamodel = .ok m ∧ m.entity "Visitor" = .ok E ∧
    m.entityGroup E "v" = .ok g ∧ ¬ (E.tables.filter m.database.isPhysical).Nodup ∧
    g.tables.map (fun use => (use.variableName, use.reference)) =
      [("v_0", .physical "visitor"), ("v_1", .physical "badge"), ("v_2", .physical "visitor")] := by
  have hrun : (visitors.metamodel.toOption.bind fun m => (m.entity "Visitor").toOption.bind fun E =>
      (m.entityGroup E "v").toOption.map fun g =>
      decide (¬ (E.tables.filter m.database.isPhysical).Nodup ∧
        g.tables.map (fun use => (use.variableName, use.reference)) =
          [("v_0", .physical "visitor"), ("v_1", .physical "badge"),
            ("v_2", .physical "visitor")])) = some true := by
    decide +kernel
  obtain ⟨m, hm, hrun⟩ := Option.bind_eq_some_iff.1 hrun
  obtain ⟨E, hE, hrun⟩ := Option.bind_eq_some_iff.1 hrun
  obtain ⟨g, hg, hrun⟩ := Option.map_eq_some_iff.1 hrun
  obtain ⟨htwice, huses⟩ := of_decide_eq_true hrun
  exact ⟨m, E, g, Except.toOption_eq_some.1 hm, Except.toOption_eq_some.1 hE,
    Except.toOption_eq_some.1 hg, htwice, huses⟩

end EntityQuery
