import EntityQuery.Database.Values
import EntityQuery.Proofs.Run
import Mathlib.Data.List.Basic

/-!
# Databases grow

Tables and columns are only added (`Database.Grows`). The table that an expression stands for is
shown by it, without blanks around it (`tableFor_shows`, `tablesFor_show`), and a slot keeps the
place it was given (`Database.Holds`), which is the same for every attribute stored in it
(`holds_rightUnique`). `values_hold` says that the columns of an attribute are the places of its slots.
-/

set_option autoImplicit false

namespace EntityQuery

namespace Database

/-! ## Growth -/

/-- Every table stays at its place, and keeps its columns at theirs. -/
def Grows (db db' : Database) : Prop :=
  ∀ id table, db.table? id = some table →
    ∃ more, db'.table? id = some ⟨table.reference, table.columns ++ more⟩

theorem Grows.refl (db : Database) : db.Grows db := fun _ _ h => ⟨[], by simpa using h⟩

theorem Grows.trans {db1 db2 db3 : Database} (h : db1.Grows db2) (h' : db2.Grows db3) :
    db1.Grows db3 := by
  intro id table ht
  obtain ⟨more, ht⟩ := h id table ht
  obtain ⟨more', ht⟩ := h' id _ ht
  exact ⟨more ++ more', by simpa using ht⟩

theorem add_grows (reference : TableReference) (db : Database) :
    db.Grows (db.add reference).2 := by
  intro id table ht
  refine ⟨[], ?_⟩
  rw [List.append_nil]
  exact (List.getElem?_append_left (List.getElem?_eq_some_iff.1 ht).1).trans ht

theorem physical_grows (name : String) (db : Database) : db.Grows (db.physical name).2 := by
  unfold physical
  split
  · exact .refl db
  · exact add_grows (.physical name) db

theorem tableFor_grows (expression : String) (db : Database) :
    db.Grows (db.tableFor expression).2 := by
  unfold tableFor
  split
  · exact add_grows _ db
  · exact physical_grows _ db

/-- A slot is found at the first place that has it, or it is added as the last one of its table. -/
theorem slot?_cases {id : TableId} {slot : Column} {place : ColumnId} {db db' : Database}
    (h : db.slot? id slot = some (place, db')) :
    ∃ table, db.table? id = some table ∧ place.table = id ∧
      (table.columns.idxOf? slot = some place.index ∧ db' = db ∨
        slot ∉ table.columns ∧ place.index = table.columns.length ∧ db' = { db with
          tables := db.tables.set id.index { table with columns := table.columns ++ [slot] } }) := by
  unfold slot? at h
  split at h
  · cases h
  · rename_i table ht
    split at h
    · rename_i hfound
      cases h
      exact ⟨table, ht, rfl, .inl ⟨hfound, rfl⟩⟩
    · rename_i hnone
      cases h
      exact ⟨table, ht, rfl, .inr ⟨List.idxOf?_eq_none_iff.1 hnone, rfl, rfl⟩⟩

theorem slot?_grows {id : TableId} {column : Column} {place : ColumnId} {db db' : Database}
    (h : db.slot? id column = some (place, db')) : db.Grows db' := by
  obtain ⟨table, ht, -, ⟨-, rfl⟩ | ⟨-, -, rfl⟩⟩ := slot?_cases h
  · exact .refl _
  intro other found hf
  by_cases ho : other.index = id.index
  · have hlt := (List.getElem?_eq_some_iff.1 hf).1
    have hfound : found = table := by
      have : db.tables[other.index]? = some table := by rw [ho]; exact ht
      exact Option.some.inj (hf.symm.trans this)
    subst hfound
    exact ⟨[column], by simp [table?, ← ho, List.getElem?_set_self hlt]⟩
  · refine ⟨[], ?_⟩
    rw [List.append_nil]
    exact (List.getElem?_set_ne (Ne.symm ho)).trans hf

theorem Grows.column? {place : ColumnId} {slot : Column} {db db' : Database} (h : db.Grows db')
    (hplace : db.column? place = some slot) : db'.column? place = some slot := by
  obtain ⟨table, ht, hslot⟩ := Option.bind_eq_some_iff.1 hplace
  obtain ⟨more, ht'⟩ := h place.table table ht
  have hlt := (List.getElem?_eq_some_iff.1 hslot).1
  refine Option.bind_eq_some_iff.2 ⟨_, ht', ?_⟩
  exact (List.getElem?_append_left hlt).trans hslot

/-! ## Tables and the expressions that name them -/

/-- The table at a place is the one that an expression stands for. -/
def Shows (db : Database) (expression : String) (id : TableId) : Prop :=
  ∃ table, db.table? id = some table ∧ table.reference.expression = Text.trim expression

theorem Shows.grows {db db' : Database} {expression : String} {id : TableId}
    (h : db.Shows expression id) (hg : db.Grows db') : db'.Shows expression id := by
  obtain ⟨table, ht, he⟩ := h
  obtain ⟨more, ht⟩ := hg _ _ ht
  exact ⟨_, ht, he⟩

/-- Physical tables are where their names lead. -/
def Named (db : Database) : Prop :=
  ∀ name id, db.names.lookup name = some id →
    ∃ table, db.table? id = some table ∧ table.reference = .physical name

theorem add_table? (reference : TableReference) (db : Database) :
    (db.add reference).2.table? (db.add reference).1 = some ⟨reference, []⟩ := by
  simp [add, table?]

theorem Named.grows {db db' : Database} (h : db.Named) (hg : db.Grows db')
    (hn : db'.names = db.names) : db'.Named := by
  intro name id hl
  rw [hn] at hl
  obtain ⟨table, ht, hr⟩ := h name id hl
  obtain ⟨more, ht⟩ := hg _ _ ht
  exact ⟨_, ht, hr⟩

theorem physical_named (name : String) {db : Database} (h : db.Named) :
    (db.physical name).2.Named ∧ ∃ table,
      (db.physical name).2.table? (db.physical name).1 = some table ∧
        table.reference = .physical name := by
  unfold physical
  split
  · rename_i id hl
    exact ⟨h, h name id hl⟩
  · have hnew := add_table? (.physical name) db
    refine ⟨fun other id hl => ?_, _, hnew, rfl⟩
    by_cases ho : other = name
    · subst ho
      simp only [List.lookup_cons, BEq.rfl, Option.some.injEq] at hl
      subst hl
      exact ⟨_, hnew, rfl⟩
    · have hb : (other == name) = false := by simpa using ho
      simp only [List.lookup_cons, hb] at hl
      exact h.grows (add_grows (.physical name) db) rfl other id hl

theorem tableFor_shows (expression : String) {db : Database} (h : db.Named) :
    (db.tableFor expression).2.Named ∧
      (db.tableFor expression).2.Shows expression (db.tableFor expression).1 := by
  unfold tableFor
  split
  · refine ⟨h.grows (add_grows _ db) rfl, _, add_table? _ db, rfl⟩
  · obtain ⟨hn, table, ht, hr⟩ := physical_named (Text.trim expression) h
    exact ⟨hn, table, ht, by rw [hr]; rfl⟩

/-- The tables that expressions stand for are shown by them, in order. -/
theorem tablesFor_show : ∀ (expressions : List String) {db : Database}, db.Named →
    db.Grows (tablesFor expressions db).2 ∧ (tablesFor expressions db).2.Named ∧
      List.Forall₂ (tablesFor expressions db).2.Shows expressions (tablesFor expressions db).1
  | [], db, h => ⟨.refl db, h, .nil⟩
  | expression :: rest, db, h => by
    obtain ⟨hn, hs⟩ := tableFor_shows expression h
    obtain ⟨hg, hn', hrest⟩ := tablesFor_show rest hn
    exact ⟨(tableFor_grows expression db).trans hg, hn', .cons (hs.grows hg) hrest⟩

/-! ## Places of slots -/

/-- The place of a slot of a table: that of the first column which is equal to it. -/
def Holds (db : Database) (id : TableId) (slot : Column) (place : ColumnId) : Prop :=
  place.table = id ∧ ∃ table, db.table? id = some table ∧
    table.columns.idxOf? slot = some place.index

section

variable {db db' : Database} {id : TableId} {slot : Column} {place : ColumnId}

theorem Holds.grows (h : db.Holds id slot place) (hg : db.Grows db') : db'.Holds id slot place := by
  obtain ⟨ht, table, hat, hi⟩ := h
  obtain ⟨more, hat⟩ := hg _ _ hat
  refine ⟨ht, _, hat, ?_⟩
  rw [List.idxOf?, List.findIdx?_append, ← List.idxOf?, hi, Option.some_or]

theorem holds_rightUnique (db : Database) (id : TableId) : Relator.RightUnique (db.Holds id) := by
  rintro slot ⟨_, i⟩ ⟨_, j⟩ ⟨rfl, table, hat, hi⟩ ⟨rfl, table', hat', hj⟩
  cases hat.symm.trans hat'
  have hindex : i = j := Option.some.inj (hi.symm.trans hj)
  rw [hindex]

theorem Holds.column? (h : db.Holds id slot place) : db.column? place = some slot := by
  obtain ⟨ht, table, hat, hi⟩ := h
  obtain ⟨hlt, hslot, -⟩ := List.idxOf?_eq_some_iff.1 hi
  simp [Database.column?, ht, hat, List.getElem?_eq_getElem hlt, hslot]

theorem slot?_holds (h : db.slot? id slot = some (place, db')) : db'.Holds id slot place := by
  obtain ⟨table, ht, hplace, ⟨hfound, rfl⟩ | ⟨hnew, hindex, rfl⟩⟩ := slot?_cases h
  · exact ⟨hplace, table, ht, hfound⟩
  · have hlt := (List.getElem?_eq_some_iff.1 ht).1
    have hnone := List.idxOf?_eq_none_iff.2 hnew
    refine ⟨hplace, _, List.getElem?_set_self hlt, ?_⟩
    rw [List.idxOf?, List.findIdx?_append, ← List.idxOf?, hnone, hindex]
    simp

end

end Database

/-! ## Rows of slots -/

namespace ColumnExpression

/-- The name of a column. -/
def column? : ColumnExpression → Option String
  | .column name => some name
  | .formula _ => none

/-- The text of a formula. -/
def formula? : ColumnExpression → Option String
  | .column _ => none
  | .formula text => some text

end ColumnExpression

/-- Parallel lists describe a row of slots. -/
structure Describes (columns : List (Option String)) (formulas : Option (List (Option String)))
    (codes : List SqlCode) (slots : List Column) : Prop where
  named : columns = slots.map (·.expression.column?)
  computed : formulas.getD (columns.map fun _ => none) = slots.map (·.expression.formula?)
  typed : codes = slots.map (·.sqlCode)

theorem Describes.slotRow {columns : List (Option String)} {formulas : Option (List (Option String))}
    {codes : List SqlCode} {slots : List Column} (h : Describes columns formulas codes slots) :
    Database.slotRow columns formulas codes =
      slots.map fun c => (c.expression.column?, c.expression.formula?, c.sqlCode) := by
  rw [Database.slotRow, h.computed, h.typed, h.named, List.zip_map', List.zip_map']

/-- Names of columns alone describe slots without formulas. -/
theorem describes_columns : ∀ {names : List String} {codes : List SqlCode},
    names.length = codes.length →
    Describes (names.map some) none codes
      (List.zipWith (fun name code => ⟨.column name, code⟩) names codes)
  | [], [], _ => ⟨rfl, rfl, rfl⟩
  | _ :: _, _ :: _, h => by
    obtain ⟨hn, hc, ht⟩ := describes_columns (Nat.succ.inj h)
    refine ⟨?_, ?_, ?_⟩
    · simpa [ColumnExpression.column?] using hn
    · simpa [ColumnExpression.formula?] using hc
    · simpa using ht

theorem slots_of_names : ∀ {names : List String} {slots : List Column},
    names.map some = slots.map (·.expression.column?) →
    List.zipWith (fun name code => ⟨.column name, code⟩) names (slots.map (·.sqlCode)) = slots
  | [], [], _ => rfl
  | name :: names, ⟨.column _, code⟩ :: slots, h => by
    simp only [List.map_cons, List.cons.injEq, ColumnExpression.column?, Option.some.injEq] at h
    obtain ⟨rfl, h⟩ := h
    rw [List.map_cons, List.zipWith_cons_cons, slots_of_names h]
  | _ :: _, ⟨.formula _, _⟩ :: _, h => by simp [ColumnExpression.column?] at h

namespace Database

variable {db db' : Database} {id : TableId} {role : String}

theorem slotExpression_of (n : Nat) (e : ColumnExpression) :
    slotExpression n e.column? e.formula? = .ok e := by
  cases e <;> rfl

theorem slotExpression_ok {n : Nat} {column formula : Option String} {e : ColumnExpression}
    (h : slotExpression n column formula = .ok e) : column = e.column? ∧ formula = e.formula? := by
  cases column <;> cases formula <;> cases h <;> exact ⟨rfl, rfl⟩

theorem fillSlot_ok {n : Nat} {column formula : Option String} {code : SqlCode} {place : ColumnId}
    (h : fillSlot role id n column formula code db = .ok place db') :
    ∃ e, slotExpression n column formula = .ok e ∧ db.slot? id ⟨e, code⟩ = some (place, db') := by
  unfold fillSlot at h
  split at h
  · cases h
  · rename_i e he
    split at h
    · cases h
    · rename_i hs
      cases h
      exact ⟨e, he, hs⟩

theorem fillSlots_grows : ∀ {n : Nat} {row : List (Option String × Option String × SqlCode)}
    {db db' : Database} {places : List ColumnId},
    fillSlots role id n row db = .ok places db' → db.Grows db'
  | _, [], _, _, _, h => by
    obtain ⟨-, rfl⟩ := EStateM.pure_eq_ok.1 h
    exact .refl _
  | n, _ :: _, _, _, _, h => by
    simp only [fillSlots, EStateM.bind_eq_ok, EStateM.pure_eq_ok] at h
    obtain ⟨_, _, hf, _, _, hr, -, rfl⟩ := h
    obtain ⟨e, -, hs⟩ := fillSlot_ok hf
    exact (slot?_grows hs).trans (fillSlots_grows hr)

theorem fillSlots_hold : ∀ {n : Nat} {slots : List Column} {db db' : Database}
    {places : List ColumnId},
    fillSlots role id n (slots.map fun c => (c.expression.column?, c.expression.formula?, c.sqlCode))
      db = .ok places db' →
    List.Forall₂ (db'.Holds id) slots places
  | _, [], _, _, _, h => by
    obtain ⟨rfl, -⟩ := EStateM.pure_eq_ok.1 h
    exact .nil
  | n, slot :: slots, _, _, _, h => by
    simp only [List.map_cons, fillSlots, EStateM.bind_eq_ok, EStateM.pure_eq_ok] at h
    obtain ⟨place, _, hf, _, _, hr, rfl, rfl⟩ := h
    obtain ⟨e, he, hs⟩ := fillSlot_ok hf
    cases (slotExpression_of n slot.expression).symm.trans he
    exact .cons ((slot?_holds hs).grows (fillSlots_grows hr)) (fillSlots_hold hr)

theorem values_ok {columns : List (Option String)} {formulas : Option (List (Option String))}
    {codes : List SqlCode} {places : List ColumnId}
    (h : values role id columns formulas codes db = .ok places db') :
    rowFault? columns formulas codes = none ∧
      fillSlots role id 0 (slotRow columns formulas codes) db = .ok places db' := by
  unfold values at h
  obtain ⟨_, _, hg, h⟩ := EStateM.bind_eq_ok.1 h
  obtain ⟨rfl, rfl⟩ := EStateM.get_eq_ok.1 hg
  obtain ⟨-, h⟩ := EStateM.guard_eq_ok.1 h
  cases hf : rowFault? columns formulas codes with
  | some reason =>
    rw [hf] at h
    exact absurd h EStateM.throw_ne_ok
  | none =>
    rw [hf] at h
    exact ⟨rfl, h⟩

/-- The lists that describe a row are of one length. -/
theorem rowFault?_eq_none {columns : List (Option String)} {formulas : Option (List (Option String))}
    {codes : List SqlCode} (h : rowFault? columns formulas codes = none) :
    columns.length = codes.length ∧
      (formulas.getD (columns.map fun _ => none)).length = columns.length := by
  unfold rowFault? at h
  split at h
  · cases h
  · rename_i hcodes
    refine ⟨not_not.1 hcodes, ?_⟩
    cases formulas with
    | none => simp
    | some formulas =>
      simp only at h
      split at h
      · cases h
      · rename_i hformulas
        exact not_not.1 hformulas

theorem values_grows {columns : List (Option String)} {formulas : Option (List (Option String))}
    {codes : List SqlCode} {places : List ColumnId}
    (h : values role id columns formulas codes db = .ok places db') : db.Grows db' :=
  fillSlots_grows (values_ok h).2

theorem slot?_names {slot : Column} {place : ColumnId} (h : db.slot? id slot = some (place, db')) :
    db'.names = db.names := by
  obtain ⟨_, -, -, ⟨-, rfl⟩ | ⟨-, -, rfl⟩⟩ := slot?_cases h <;> rfl

theorem fillSlots_names : ∀ {n : Nat} {row : List (Option String × Option String × SqlCode)}
    {db db' : Database} {places : List ColumnId},
    fillSlots role id n row db = .ok places db' → db'.names = db.names
  | _, [], _, _, _, h => by
    obtain ⟨-, rfl⟩ := EStateM.pure_eq_ok.1 h
    rfl
  | n, _ :: _, _, _, _, h => by
    simp only [fillSlots, EStateM.bind_eq_ok, EStateM.pure_eq_ok] at h
    obtain ⟨_, _, hf, _, _, hr, -, rfl⟩ := h
    obtain ⟨e, -, hs⟩ := fillSlot_ok hf
    rw [fillSlots_names hr, slot?_names hs]

/-- Columns leave the names of tables alone. -/
theorem values_named {columns : List (Option String)} {formulas : Option (List (Option String))}
    {codes : List SqlCode} {places : List ColumnId}
    (h : values role id columns formulas codes db = .ok places db') (hn : db.Named) : db'.Named :=
  hn.grows (values_grows h) (fillSlots_names (values_ok h).2)

/-- The columns of an attribute are the places of the slots it is stored in. -/
theorem values_hold {columns : List (Option String)} {formulas : Option (List (Option String))}
    {codes : List SqlCode} {places : List ColumnId} {slots : List Column}
    (hd : Describes columns formulas codes slots)
    (h : values role id columns formulas codes db = .ok places db') :
    List.Forall₂ (db'.Holds id) slots places := by
  have hf := (values_ok h).2
  rw [hd.slotRow] at hf
  exact fillSlots_hold hf

theorem fillSlots_row : ∀ {n : Nat} {row : List (Option String × Option String × SqlCode)}
    {db db' : Database} {places : List ColumnId}, fillSlots role id n row db = .ok places db' →
    ∃ slots : List Column,
      row = slots.map fun c => (c.expression.column?, c.expression.formula?, c.sqlCode)
  | _, [], _, _, _, _ => ⟨[], rfl⟩
  | n, (column, formula, code) :: row, _, _, _, h => by
    simp only [fillSlots, EStateM.bind_eq_ok, EStateM.pure_eq_ok] at h
    obtain ⟨_, _, hf, _, _, hr, -, rfl⟩ := h
    obtain ⟨e, he, -⟩ := fillSlot_ok hf
    obtain ⟨rfl, rfl⟩ := slotExpression_ok he
    obtain ⟨slots, rfl⟩ := fillSlots_row hr
    exact ⟨⟨e, code⟩ :: slots, rfl⟩

/-- Lists whose columns are found describe a row of slots. -/
theorem values_describes {columns : List (Option String)} {formulas : Option (List (Option String))}
    {codes : List SqlCode} {places : List ColumnId}
    (h : values role id columns formulas codes db = .ok places db') :
    ∃ slots, Describes columns formulas codes slots := by
  obtain ⟨hfault, hf⟩ := values_ok h
  obtain ⟨hcodes, hformulas⟩ := rowFault?_eq_none hfault
  obtain ⟨slots, hrow⟩ := fillSlots_row hf
  rw [slotRow] at hrow
  have hcolumns := congrArg (List.map (·.1)) hrow
  have hrest := congrArg (List.map (·.2)) hrow
  rw [List.map_fst_zip (by rw [List.length_zip]; omega), List.map_map] at hcolumns
  rw [List.map_snd_zip (by rw [List.length_zip]; omega), List.map_map] at hrest
  have hcomputed := congrArg (List.map (·.1)) hrest
  have htyped := congrArg (List.map (·.2)) hrest
  rw [List.map_fst_zip (by omega), List.map_map] at hcomputed
  rw [List.map_snd_zip (by omega), List.map_map] at htyped
  exact ⟨slots, hcolumns, hcomputed, htyped⟩

end Database

end EntityQuery
