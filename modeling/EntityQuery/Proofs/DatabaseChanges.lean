import EntityQuery.Proofs.Rebuilding
import EntityQuery.Proofs.TableIdentity
import Mathlib.Logic.Relation

/-!
# Changes of a database

Whatever is done to a database, it comes to changes of three kinds, one after the other
(`Database.Change`): a physical table is found or added, a derived table is added, a slot is found or
added. This holds of a row of slots as well, also of one that fails part of the way
(`Database.values_changes`).

Every change lets tables and slots stay where they are (`Changes.grows`) and keeps a database
consistent (`Changes.consistent`). `values_enforce_slots` says exactly which rows of slots are filled,
and with what.
-/

set_option autoImplicit false

namespace EntityQuery

namespace Database

variable {db db' : Database} {id : TableId} {slot : Column} {place : ColumnId}

/-! ## Kinds of changes -/

inductive Change : Database → Database → Prop
  | physical (name : String) (db : Database) : Change db (db.physical name).2
  | derived (expression : String) (db : Database) : Change db (db.derived expression).2
  | slot {id : TableId} {slot : Column} {place : ColumnId} {db db' : Database}
      (h : db.slot? id slot = some (place, db')) : Change db db'

/-- Any number of changes. -/
abbrev Changes : Database → Database → Prop := Relation.ReflTransGen Change

theorem tableFor_changes (expression : String) (db : Database) :
    db.Changes (db.tableFor expression).2 := by
  unfold tableFor
  split
  · exact .single (.derived expression db)
  · exact .single (.physical (Text.trim expression) db)

theorem fillSlot_changes (role : String) (id : TableId) (n : Nat) (column formula : Option String)
    (code : SqlCode) (db : Database) :
    db.Changes (fillSlot role id n column formula code db).state := by
  unfold fillSlot
  split
  · exact .refl
  · split
    · exact .refl
    · rename_i h
      exact .single (.slot h)

theorem fillSlots_changes (role : String) (id : TableId)
    (row : List (Option String × Option String × SqlCode)) (n : Nat) (db : Database) :
    db.Changes (fillSlots role id n row db).state := by
  induction row generalizing n db with
  | nil => exact .refl
  | cons slot row ih =>
    obtain ⟨column, formula, code⟩ := slot
    have hfirst := fillSlot_changes role id n column formula code db
    rw [fillSlots]
    refine EStateM.state_bind (fun herror => ?_) fun {place db1} hok => ?_
    · rwa [herror] at hfirst
    · rw [hok] at hfirst
      have hrest := ih (n + 1) db1
      refine hfirst.trans (EStateM.state_bind (fun herror => ?_) fun hok => ?_)
      · rwa [herror] at hrest
      · rwa [hok] at hrest

/-- A row of slots is filled slot by slot, as far as that goes. -/
theorem values_changes (role : String) (id : TableId) (columns : List (Option String))
    (formulas : Option (List (Option String))) (codes : List SqlCode) (db : Database) :
    db.Changes (values role id columns formulas codes db).state := by
  unfold values
  refine EStateM.state_bind nofun fun hget => ?_
  obtain ⟨rfl, rfl⟩ := EStateM.get_eq_ok.1 hget
  split
  · exact .refl
  · split
    · exact .refl
    · exact fillSlots_changes role id _ 0 db

/-! ## Tables and slots stay -/

theorem Change.grows (h : Change db db') : db.Grows db' := by
  cases h with
  | physical name => exact physical_grows name db
  | derived expression => exact add_grows _ db
  | slot h => exact slot?_grows h

theorem Changes.grows (h : db.Changes db') : db.Grows db' := by
  induction h with
  | refl => exact .refl db
  | tail _ hlast ih => exact ih.trans hlast.grows

/-- What the table at a place is in the `from` clause of SQL. -/
def reference? (db : Database) (id : TableId) : Option TableReference :=
  (db.table? id).map (·.reference)

theorem reference?_eq_some {reference : TableReference} :
    db.reference? id = some reference ↔
      ∃ table, db.table? id = some table ∧ table.reference = reference :=
  Option.map_eq_some_iff

theorem Grows.reference? {reference : TableReference} (h : db.Grows db')
    (hid : db.reference? id = some reference) : db'.reference? id = some reference := by
  obtain ⟨table, ht, hr⟩ := reference?_eq_some.1 hid
  obtain ⟨more, ht'⟩ := h id table ht
  exact reference?_eq_some.2 ⟨_, ht', hr⟩

/-! ## Consistency -/

/-- The names are those of the physical tables, and each leads to its table. No table has the same slot
twice. -/
structure Consistent (db : Database) : Prop where
  names : ∀ name id, db.names.lookup name = some id ↔ db.reference? id = some (.physical name)
  keys : (db.names.map (·.1)).Nodup
  slots : ∀ table ∈ db.tables, table.columns.Nodup

theorem names_iff :
    (∀ name id, db.names.lookup name = some id ↔ db.reference? id = some (.physical name)) ↔
      db.Named ∧ db.Exact := by
  simp only [reference?_eq_some]
  constructor
  · intro h
    exact ⟨fun name id => (h name id).1, fun id table name ht hr => (h name id).2 ⟨table, ht, hr⟩⟩
  · rintro ⟨hnamed, hexact⟩ name id
    exact ⟨hnamed name id, fun ⟨table, ht, hr⟩ => hexact id table name ht hr⟩

theorem Consistent.named (h : db.Consistent) : db.Named := (names_iff.1 h.names).1

theorem Consistent.exact (h : db.Consistent) : db.Exact := (names_iff.1 h.names).2

/-- A name is that of a single table. -/
theorem Consistent.single (h : db.Consistent) {id id' : TableId} {name : String}
    (hid : db.reference? id = some (.physical name))
    (hid' : db.reference? id' = some (.physical name)) : id = id' := by
  have hlookup := (h.names name id).2 hid
  have hlookup' := (h.names name id').2 hid'
  exact Option.some.inj (hlookup.symm.trans hlookup')

theorem empty_consistent : empty.Consistent := by
  refine ⟨fun name id => ?_, .nil, by simp [empty]⟩
  simp [empty, reference?, table?]

theorem add_slots (reference : TableReference) (h : ∀ table ∈ db.tables, table.columns.Nodup) :
    ∀ table ∈ (db.add reference).2.tables, table.columns.Nodup := by
  intro table ht
  rcases List.mem_append.1 ht with ht | ht
  · exact h table ht
  · rw [List.mem_singleton.1 ht]
    exact .nil

theorem physical_consistent (name : String) (h : db.Consistent) :
    (db.physical name).2.Consistent := by
  refine ⟨names_iff.2 ⟨(physical_named name h.named).1, physical_exact name h.exact⟩, ?_, ?_⟩
  · unfold physical
    split
    · exact h.keys
    · rename_i hnone
      refine List.nodup_cons.2 ⟨fun hmem => ?_, h.keys⟩
      obtain ⟨entry, hentry, hname⟩ := List.mem_map.1 hmem
      have hne := List.lookup_eq_none_iff.1 hnone entry hentry
      simp [hname] at hne
  · unfold physical
    split
    · exact h.slots
    · exact add_slots (.physical name) h.slots

theorem derived_consistent (expression : String) (h : db.Consistent) :
    (db.derived expression).2.Consistent := by
  have hgrows : db.Grows (db.derived expression).2 := add_grows _ db
  refine ⟨names_iff.2 ⟨h.named.grows hgrows rfl, ?_⟩, h.keys, add_slots _ h.slots⟩
  exact h.exact.add (fun _ _ hl => hl) nofun

/-- Slots leave the kinds and the names of tables alone. -/
theorem slot?_reference (h : db.slot? id slot = some (place, db')) (other : TableId) :
    db'.reference? other = db.reference? other := by
  obtain ⟨table, ht, -, ⟨-, rfl⟩ | ⟨-, -, rfl⟩⟩ := slot?_cases h
  · rfl
  · by_cases ho : id.index = other.index
    · have hlt := (List.getElem?_eq_some_iff.1 ht).1
      have hother : db.table? other = some table := by rw [← ht, table?, table?, ho]
      rw [reference?, reference?, hother, table?, ← ho, List.getElem?_set_self hlt]
      rfl
    · rw [reference?, reference?, table?, table?, List.getElem?_set_ne ho]

theorem slot?_consistent (hdb : db.Consistent) (h : db.slot? id slot = some (place, db')) :
    db'.Consistent := by
  refine ⟨fun name other => ?_, ?_, ?_⟩
  · rw [slot?_names h, slot?_reference h]
    exact hdb.names name other
  · rw [slot?_names h]
    exact hdb.keys
  · obtain ⟨table, ht, -, ⟨-, rfl⟩ | ⟨hnew, -, rfl⟩⟩ := slot?_cases h
    · exact hdb.slots
    · intro changed hchanged
      rcases List.mem_or_eq_of_mem_set hchanged with hold | rfl
      · exact hdb.slots changed hold
      · have hnodup := hdb.slots table (List.mem_of_getElem? ht)
        exact List.nodup_append.2 ⟨hnodup, List.nodup_singleton slot, by
          rintro x hx y hy rfl
          rw [List.mem_singleton.1 hy] at hx
          exact hnew hx⟩

theorem Change.consistent (h : Change db db') (hdb : db.Consistent) : db'.Consistent := by
  cases h with
  | physical name => exact physical_consistent name hdb
  | derived expression => exact derived_consistent expression hdb
  | slot h => exact slot?_consistent hdb h

theorem Changes.consistent (h : db.Changes db') (hdb : db.Consistent) : db'.Consistent := by
  induction h with
  | refl => exact hdb
  | tail _ hlast ih => exact hlast.consistent ih

end Database

/-! ## Rows of slots -/

/-- The formula that is given for a slot, if there is one. -/
def formulaAt (formulas : Option (List (Option String))) (i : Nat) : Option String :=
  (formulas.bind (·[i]?)).join

/-- There are as many codes as columns, and as many formulas if there are any. Every slot has exactly
one of a column and a formula. -/
structure Exclusive (columns : List (Option String)) (formulas : Option (List (Option String)))
    (codes : List SqlCode) : Prop where
  codeCount : columns.length = codes.length
  formulaCount : ∀ given, formulas = some given → given.length = columns.length
  one : ∀ i column, columns[i]? = some column → column.isSome ≠ (formulaAt formulas i).isSome

section

variable {columns : List (Option String)} {formulas : Option (List (Option String))}
  {codes : List SqlCode} {slots : List Column}

theorem formulaAt_eq {i : Nat} {formula : Option String}
    (h : (formulas.getD (columns.map fun _ => none))[i]? = some formula) :
    formulaAt formulas i = formula := by
  cases formulas with
  | none =>
    rw [Option.getD_none, List.getElem?_map, Option.map_eq_some_iff] at h
    obtain ⟨_, -, rfl⟩ := h
    rfl
  | some given =>
    rw [formulaAt, Option.bind_some, show given[i]? = some formula from h, Option.join_some]

theorem Describes.formulaAt_eq {i : Nat} {slot : Column} (hd : Describes columns formulas codes slots)
    (h : slots[i]? = some slot) : formulaAt formulas i = slot.expression.formula? := by
  have hformula : (formulas.getD (columns.map fun _ => none))[i]? = some slot.expression.formula? := by
    rw [hd.computed, List.getElem?_map, h, Option.map_some]
  exact EntityQuery.formulaAt_eq hformula

theorem Describes.columns_eq {i : Nat} {slot : Column} (hd : Describes columns formulas codes slots)
    (h : slots[i]? = some slot) : columns[i]? = some slot.expression.column? := by
  rw [hd.named, List.getElem?_map, h, Option.map_some]

theorem Describes.codes_eq {i : Nat} {slot : Column} (hd : Describes columns formulas codes slots)
    (h : slots[i]? = some slot) : codes[i]? = some slot.sqlCode := by
  rw [hd.typed, List.getElem?_map, h, Option.map_some]

theorem Describes.exclusive (hd : Describes columns formulas codes slots) :
    Exclusive columns formulas codes := by
  have hlength : columns.length = slots.length := by rw [hd.named, List.length_map]
  refine ⟨?_, fun given hgiven => ?_, fun i column hcolumn => ?_⟩
  · rw [hlength, hd.typed, List.length_map]
  · have hcomputed := congrArg List.length hd.computed
    rw [hgiven, Option.getD_some, List.length_map] at hcomputed
    rw [hcomputed, hlength]
  · have hlt := (List.getElem?_eq_some_iff.1 hcolumn).1
    have hslot := List.getElem?_eq_getElem (hlength ▸ hlt)
    rw [hd.columns_eq hslot, Option.some.injEq] at hcolumn
    rw [hd.formulaAt_eq hslot, ← hcolumn]
    cases (slots[i]).expression <;> exact nofun

theorem exists_slots : ∀ {columns formulas : List (Option String)} {codes : List SqlCode},
    columns.length = codes.length → formulas.length = columns.length →
    (∀ (i : Nat) (column formula : Option String), columns[i]? = some column →
      formulas[i]? = some formula → column.isSome ≠ formula.isSome) →
    ∃ slots : List Column, columns = slots.map (·.expression.column?) ∧
      formulas = slots.map (·.expression.formula?) ∧ codes = slots.map (·.sqlCode)
  | [], [], [], _, _, _ => ⟨[], rfl, rfl, rfl⟩
  | column :: columns, formula :: formulas, code :: codes, hcodes, hformulas, hone => by
    obtain ⟨slots, rfl, rfl, rfl⟩ := exists_slots (Nat.succ.inj hcodes) (Nat.succ.inj hformulas)
      fun i column formula hc hf => hone (i + 1) column formula hc hf
    have hfirst := hone 0 column formula rfl rfl
    match column, formula, hfirst with
    | some name, none, _ => exact ⟨⟨.column name, code⟩ :: slots, rfl, rfl, rfl⟩
    | none, some text, _ => exact ⟨⟨.formula text, code⟩ :: slots, rfl, rfl, rfl⟩
    | some _, some _, hne | none, none, hne => exact absurd rfl hne

/-- Lists with exactly one of a column and a formula for each slot describe a row of slots. -/
theorem Exclusive.describes (h : Exclusive columns formulas codes) :
    ∃ slots, Describes columns formulas codes slots := by
  have hformulas : (formulas.getD (columns.map fun _ => none)).length = columns.length := by
    cases hf : formulas with
    | none => simp
    | some given => exact h.formulaCount given hf
  obtain ⟨slots, hcolumns, hcomputed, hcodes⟩ := exists_slots h.codeCount hformulas
    fun i column formula hcolumn hformula => by
      rw [← formulaAt_eq hformula]
      exact h.one i column hcolumn
  exact ⟨slots, hcolumns, hcomputed, hcodes⟩

end

namespace Database

variable {db db' : Database} {role : String} {id : TableId} {columns : List (Option String)}
  {formulas : Option (List (Option String))} {codes : List SqlCode} {places : List ColumnId}

theorem values_has (h : values role id columns formulas codes db = .ok places db') : db.Has id := by
  unfold values at h
  obtain ⟨_, _, hget, h⟩ := EStateM.bind_eq_ok.1 h
  obtain ⟨rfl, rfl⟩ := EStateM.get_eq_ok.1 hget
  obtain ⟨htable, -⟩ := EStateM.guard_eq_ok.1 h
  exact Option.ne_none_iff_exists'.1 (by simpa using htable)

/-- A slot of a row that is filled has its own column or formula, with its own code. -/
theorem values_slot (h : values role id columns formulas codes db = .ok places db') {i : Nat}
    (hi : i < columns.length) :
    ∃ place code, places[i]? = some place ∧ codes[i]? = some code ∧ place.table = id ∧
      ((∃ name, columns[i]? = some (some name) ∧ db'.column? place = some ⟨.column name, code⟩) ∨
        ∃ text, formulaAt formulas i = some text ∧
          db'.column? place = some ⟨.formula text, code⟩) := by
  obtain ⟨slots, hd⟩ := values_describes h
  have hlength : columns.length = slots.length := by rw [hd.named, List.length_map]
  have hslot := List.getElem?_eq_getElem (hlength ▸ hi)
  obtain ⟨place, hplace, hholds⟩ := (values_hold hd h).exists_getElem? hslot
  refine ⟨place, _, hplace, hd.codes_eq hslot, hholds.1, ?_⟩
  have hcolumn := hholds.column?
  have hname := hd.columns_eq hslot
  have hformula := hd.formulaAt_eq hslot
  generalize slots[i] = slot at hcolumn hname hformula
  obtain ⟨expression, code⟩ := slot
  cases expression with
  | column name => exact .inl ⟨name, hname, hcolumn⟩
  | formula text => exact .inr ⟨text, hformula, hcolumn⟩

end Database

/-- A row of slots is filled exactly if its table is there and each of its slots has one of a column and
a formula, and a code. It gives one place for each slot, in order, all of the one table. Otherwise the
attribute is malformed. In either case what was in the database stays where it was. -/
theorem values_enforce_slots (db : Database) (role : String) (id : TableId)
    (columns : List (Option String)) (formulas : Option (List (Option String)))
    (codes : List SqlCode) :
    ((∃ places db', Database.values role id columns formulas codes db = .ok places db') ↔
      (∃ table, db.table? id = some table) ∧ Exclusive columns formulas codes) ∧
    (∀ places db', Database.values role id columns formulas codes db = .ok places db' →
      places.length = columns.length ∧ ∀ i < columns.length, ∃ place code,
        places[i]? = some place ∧ codes[i]? = some code ∧ place.table = id ∧
        ((∃ name, columns[i]? = some (some name) ∧
            db'.column? place = some ⟨.column name, code⟩) ∨
          ∃ text, formulaAt formulas i = some text ∧
            db'.column? place = some ⟨.formula text, code⟩)) ∧
    (∀ e db', Database.values role id columns formulas codes db = .error e db' →
      ∃ reason, e = .malformed role reason) ∧
    ∀ place slot, db.column? place = some slot →
      (Database.values role id columns formulas codes db).state.column? place = some slot := by
  refine ⟨⟨?_, ?_⟩, fun places db' h => ⟨?_, fun i hi => Database.values_slot h hi⟩, ?_, ?_⟩
  · rintro ⟨places, db', h⟩
    obtain ⟨slots, hd⟩ := Database.values_describes h
    exact ⟨Database.values_has h, hd.exclusive⟩
  · rintro ⟨htable, hexclusive⟩
    obtain ⟨slots, hd⟩ := hexclusive.describes
    exact (Database.values_of hd htable).exists_ok
  · obtain ⟨slots, hd⟩ := Database.values_describes h
    rw [hd.named, List.length_map, (Database.values_hold hd h).length_eq]
  · intro e db' h
    have hfails : (Database.values role id columns formulas codes db).FailsWith
        fun e => ∃ reason, e = .malformed role reason :=
      Database.values_fails fun reason => ⟨reason, rfl⟩
    exact hfails.error h
  · intro place slot hslot
    exact (Database.values_changes role id columns formulas codes db).grows.column? hslot

end EntityQuery
