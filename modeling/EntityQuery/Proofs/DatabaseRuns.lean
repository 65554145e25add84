import EntityQuery.Proofs.DatabaseChanges

/-!
# Calls on a database

A database is used by calls that ask for tables and slots, in any order; some of them fail. A call
changes the database and hands out places (`Database.Call.run`), and what later calls do is known from
`Database.Changes`: `run_changes` for a whole run, `run_call` for what becomes of a single call in it.

`places_lasting` says of every run that starts without tables that the database stays consistent, that
places keep their meaning, and that equal places mean equal requests.
-/

set_option autoImplicit false

namespace EntityQuery

namespace Database

/-! ## Calls and runs -/

/-- What may be asked of a database. -/
inductive Call
  | tableFor (expression : String)
  | physical (name : String)
  | derived (expression : String)
  | column (id : TableId) (name : String) (code : SqlCode)
  | formula (id : TableId) (text : String) (code : SqlCode)
  | values (role : String) (id : TableId) (columns : List (Option String))
      (formulas : Option (List (Option String))) (codes : List SqlCode)

/-- What a call gives. A slot of a table that is not there is refused. -/
inductive Answer
  | table (id : TableId)
  | column (place : ColumnId)
  | columns (places : List ColumnId)
  | failed (error : MetamodelError)
  | refused

/-- The tables that an answer hands out. -/
def Answer.tableIds : Answer → List TableId
  | .table id => [id]
  | _ => []

/-- The slots that an answer hands out. -/
def Answer.columnIds : Answer → List ColumnId
  | .column place => [place]
  | .columns places => places
  | _ => []

namespace Call

/-- The answer to a call for a single slot. -/
def answered (db : Database) : Option (ColumnId × Database) → Answer × Database
  | some (place, db') => (.column place, db')
  | none => (.refused, db)

/-- The answer to a call, and the database after it. -/
def run (db : Database) : Call → Answer × Database
  | .tableFor expression => (.table (db.tableFor expression).1, (db.tableFor expression).2)
  | .physical name => (.table (db.physical name).1, (db.physical name).2)
  | .derived expression => (.table (db.derived expression).1, (db.derived expression).2)
  | .column id name code => answered db (db.column id name code)
  | .formula id text code => answered db (db.formula id text code)
  | .values role id columns formulas codes =>
    match Database.values role id columns formulas codes db with
    | .ok places db' => (.columns places, db')
    | .error e db' => (.failed e, db')

/-- The slot that a call for a single one asks for, with its table. -/
def slot? : Call → Option (TableId × Column)
  | .column id name code => some (id, ⟨.column name, code⟩)
  | .formula id text code => some (id, ⟨.formula text, code⟩)
  | _ => none

end Call

/-- The answers to calls made one after the other, and the database after the last one. -/
def run (db : Database) : List Call → List Answer × Database
  | [] => ([], db)
  | call :: calls =>
    let (answer, db) := call.run db
    let (answers, db) := db.run calls
    (answer :: answers, db)

/-- The answers to calls that start without tables. -/
def answers (calls : List Call) : List Answer := (empty.run calls).1

/-- The database after calls that start without tables. -/
def after (calls : List Call) : Database := (empty.run calls).2

/-! ## What a call does -/

variable {db db' : Database} {call : Call} {calls : List Call}

theorem Call.answered_changes {id : TableId} {slot : Column} :
    db.Changes (answered db (db.slot? id slot)).2 := by
  cases h : db.slot? id slot with
  | none => exact .refl
  | some found => exact .single (.slot h)

theorem Call.run_changes (call : Call) (db : Database) : db.Changes (call.run db).2 := by
  cases call with
  | tableFor expression => exact tableFor_changes expression db
  | physical name => exact .single (.physical name db)
  | derived expression => exact .single (.derived expression db)
  | column id name code => exact answered_changes
  | formula id text code => exact answered_changes
  | values role id columns formulas codes =>
    have hchanges := values_changes role id columns formulas codes db
    rw [Call.run]
    split <;> (rename_i h; rwa [h] at hchanges)

/-- What an answer hands out is there. -/
structure Answer.Placed (db : Database) (answer : Answer) : Prop where
  tables : ∀ id ∈ answer.tableIds, ∃ reference, db.reference? id = some reference
  columns : ∀ place ∈ answer.columnIds, ∃ slot, db.column? place = some slot

theorem Answer.Placed.grows {answer : Answer} (h : answer.Placed db) (hg : db.Grows db') :
    answer.Placed db' := by
  refine ⟨fun id hid => ?_, fun place hplace => ?_⟩
  · obtain ⟨reference, hr⟩ := h.tables id hid
    exact ⟨reference, hg.reference? hr⟩
  · obtain ⟨slot, hs⟩ := h.columns place hplace
    exact ⟨slot, hg.column? hs⟩

theorem Answer.Placed.table {id : TableId} {reference : TableReference}
    (h : db.reference? id = some reference) : (Answer.table id).Placed db := by
  refine ⟨fun other hother => ?_, by simp [columnIds]⟩
  cases List.mem_singleton.1 hother
  exact ⟨reference, h⟩

theorem Call.answered_placed {id : TableId} {slot : Column} :
    (answered db (db.slot? id slot)).1.Placed (answered db (db.slot? id slot)).2 := by
  cases h : db.slot? id slot with
  | none => exact ⟨by simp [answered, Answer.tableIds], by simp [answered, Answer.columnIds]⟩
  | some found =>
    obtain ⟨place, db'⟩ := found
    refine ⟨by simp [answered, Answer.tableIds], fun other hother => ?_⟩
    cases List.mem_singleton.1 hother
    exact ⟨slot, (slot?_holds h).column?⟩

theorem Call.run_placed (call : Call) (hdb : db.Consistent) :
    (call.run db).1.Placed (call.run db).2 := by
  cases call with
  | tableFor expression =>
    obtain ⟨-, hmeans⟩ := tableFor_means expression hdb.named hdb.exact
    exact .table (reference?_eq_some.2 hmeans)
  | physical name =>
    obtain ⟨-, htable⟩ := physical_named name hdb.named
    exact .table (reference?_eq_some.2 htable)
  | derived expression => exact .table (reference?_eq_some.2 ⟨_, add_table? _ db, rfl⟩)
  | column id name code => exact answered_placed
  | formula id text code => exact answered_placed
  | values role id columns formulas codes =>
    rw [Call.run]
    split
    · rename_i places db' h
      obtain ⟨slots, hd⟩ := values_describes h
      refine ⟨by simp [Answer.tableIds], fun place hplace => ?_⟩
      obtain ⟨slot, -, hholds⟩ := (values_hold hd h).exists_left hplace
      exact ⟨slot, hholds.column?⟩
    · exact ⟨by simp [Answer.tableIds], by simp [Answer.columnIds]⟩

/-- A call for a single slot of a table that is there gives the place of the slot. -/
theorem Call.run_slot {id : TableId} {slot : Column} (hcall : call.slot? = some (id, slot))
    (hid : db.Has id) :
    ∃ place, (call.run db).1 = .column place ∧ (call.run db).2.Holds id slot place := by
  have hrun : call.run db = answered db (db.slot? id slot) := by
    cases call with
    | column | formula =>
      cases hcall
      rfl
    | tableFor | physical | derived | values => cases hcall
  obtain ⟨place, db', hslot⟩ := slot?_of_has hid slot
  rw [hrun, hslot]
  exact ⟨place, rfl, slot?_holds hslot⟩

/-! ## What a run does -/

theorem run_cons (db : Database) (call : Call) (calls : List Call) :
    db.run (call :: calls) =
      ((call.run db).1 :: ((call.run db).2.run calls).1, ((call.run db).2.run calls).2) := rfl

theorem run_changes (calls : List Call) (db : Database) : db.Changes (db.run calls).2 := by
  induction calls generalizing db with
  | nil => exact .refl
  | cons call calls ih => exact (call.run_changes db).trans (ih (call.run db).2)

theorem run_append (earlier later : List Call) (db : Database) :
    (db.run (earlier ++ later)).2 = ((db.run earlier).2.run later).2 := by
  induction earlier generalizing db with
  | nil => rfl
  | cons call earlier ih => exact ih (call.run db).2

/-- A call in a run is answered in the database after the calls before it, which the rest of the run
changes further. -/
theorem run_call {i : Nat} (hcall : calls[i]? = some call) (db : Database) :
    (db.run calls).1[i]? = some (call.run (db.run (calls.take i)).2).1 ∧
      (call.run (db.run (calls.take i)).2).2.Changes (db.run calls).2 := by
  induction calls generalizing i db with
  | nil => simp at hcall
  | cons first calls ih =>
    cases i with
    | zero =>
      cases hcall
      exact ⟨rfl, run_changes calls _⟩
    | succ i => exact ih hcall (first.run db).2

theorem answer_of_mem {answer : Answer} (h : answer ∈ (db.run calls).1) :
    ∃ (i : Nat) (call : Call), calls[i]? = some call ∧
      answer = (call.run (db.run (calls.take i)).2).1 := by
  induction calls generalizing db with
  | nil => cases h
  | cons first calls ih =>
    rw [run_cons] at h
    rcases List.mem_cons.1 h with rfl | h
    · exact ⟨0, first, rfl, rfl⟩
    · obtain ⟨i, call, hcall, hanswer⟩ := ih h
      exact ⟨i + 1, call, hcall, hanswer⟩

theorem after_consistent (calls : List Call) : (after calls).Consistent :=
  Changes.consistent (run_changes calls empty) empty_consistent

theorem after_grows (earlier later : List Call) :
    (after earlier).Grows (after (earlier ++ later)) := by
  rw [after, after, run_append]
  exact Changes.grows (run_changes later _)

/-- All that has been handed out is there. -/
theorem answers_placed {answer : Answer} (h : answer ∈ answers calls) :
    answer.Placed (after calls) := by
  obtain ⟨i, call, hcall, rfl⟩ := answer_of_mem h
  have hplaced := call.run_placed (after_consistent (calls.take i))
  exact hplaced.grows (Changes.grows (run_call hcall empty).2)

/-! ## Equal places -/

/-- A call for a single slot in a run gives the place that the slot has at the end. -/
theorem answers_slot {i : Nat} {id : TableId} {slot : Column} (hcall : calls[i]? = some call)
    (hslot : call.slot? = some (id, slot)) (hid : (after (calls.take i)).Has id) :
    ∃ place, (answers calls)[i]? = some (.column place) ∧ (after calls).Holds id slot place := by
  obtain ⟨hanswer, hchanges⟩ := run_call hcall empty
  obtain ⟨place, hplace, hholds⟩ := Call.run_slot hslot hid
  refine ⟨place, ?_, hholds.grows (Changes.grows hchanges)⟩
  rw [← hplace]
  exact hanswer

theorem Holds.place_eq_iff {id id' : TableId} {slot slot' : Column} {place place' : ColumnId}
    (h : db.Holds id slot place) (h' : db.Holds id' slot' place') :
    place = place' ↔ (id, slot) = (id', slot') := by
  constructor
  · rintro rfl
    have hslots := h.column?.symm.trans h'.column?
    rw [← h.1, ← h'.1, Option.some.inj hslots]
  · intro heq
    cases heq
    exact holds_rightUnique db id h h'

/-- A call for the table of an expression in a run gives a table that is, at the end, the one that the
expression means. -/
theorem answers_tableFor {i : Nat} {expression : String}
    (hcall : calls[i]? = some (.tableFor expression)) :
    (answers calls)[i]? = some (.table ((after (calls.take i)).tableFor expression).1) ∧
      (after calls).Means expression ((after (calls.take i)).tableFor expression).1 := by
  obtain ⟨hanswer, hchanges⟩ := run_call hcall empty
  have hbefore := after_consistent (calls.take i)
  obtain ⟨-, hmeans⟩ := tableFor_means expression hbefore.named hbefore.exact
  exact ⟨hanswer, hmeans.grows (Changes.grows hchanges)⟩

theorem tables_eq_iff_of_lt {i j : Nat} (hij : i < j) {x y : String}
    (hx : calls[i]? = some (.tableFor x)) (hy : calls[j]? = some (.tableFor y)) :
    ((after (calls.take i)).tableFor x).1 = ((after (calls.take j)).tableFor y).1 ↔
      SameTable x y := by
  have hmeans := (answers_tableFor hx).2
  have hmeans' := (answers_tableFor hy).2
  have hsame := hmeans.same_iff (after_consistent calls).exact hmeans'
  refine ⟨fun heq => ?_, fun h => (hsame.1 h).2.2⟩
  -- a derived table is new where it is made, and the first table is there before
  have hphysical : isDerived y = false := by
    by_contra hderived
    rw [Bool.not_eq_false] at hderived
    have hbefore : (calls.take j)[i]? = some (.tableFor x) := by
      rw [List.getElem?_take_of_lt hij]
      exact hx
    obtain ⟨table, ht, -⟩ := (answers_tableFor hbefore).2
    rw [List.take_take, Nat.min_eq_left (Nat.le_of_lt hij), heq] at ht
    have hlt := (List.getElem?_eq_some_iff.1 ht).1
    rw [tableFor, if_pos hderived] at hlt
    exact Nat.lt_irrefl _ hlt
  have hid : (after calls).isPhysical ((after (calls.take j)).tableFor y).1 = true := by
    rw [hmeans'.isPhysical, hphysical]
    rfl
  exact hsame.2 ⟨heq ▸ hid, hid, heq⟩

theorem tables_eq_iff {i j : Nat} (hij : i ≠ j) {x y : String}
    (hx : calls[i]? = some (.tableFor x)) (hy : calls[j]? = some (.tableFor y)) :
    ((after (calls.take i)).tableFor x).1 = ((after (calls.take j)).tableFor y).1 ↔
      SameTable x y := by
  rcases Nat.lt_or_gt_of_ne hij with hlt | hgt
  · exact tables_eq_iff_of_lt hlt hx hy
  · rw [eq_comm, tables_eq_iff_of_lt hgt hy hx]
    exact ⟨.symm, .symm⟩

end Database

open Database in
/-- Every run of calls that starts without tables. The database is consistent at its end, and no two
physical tables have the same name. It has only grown, so that every place that was handed out still
means what it meant. Calls for single slots of tables that are there give the same place exactly if they
ask for the same slot of the same table; two calls for the tables of expressions give the same table
exactly if both expressions name the same physical one. -/
theorem places_lasting (calls : List Call) :
    (after calls).Consistent ∧
    (∀ id id' name, (after calls).reference? id = some (.physical name) →
      (after calls).reference? id' = some (.physical name) → id = id') ∧
    (∀ earlier later, calls = earlier ++ later → (after earlier).Grows (after calls) ∧
      ∀ answer ∈ answers earlier,
        (∀ id ∈ answer.tableIds, ∃ reference, (after earlier).reference? id = some reference ∧
          (after calls).reference? id = some reference) ∧
        ∀ place ∈ answer.columnIds, ∃ slot, (after earlier).column? place = some slot ∧
          (after calls).column? place = some slot) ∧
    (∀ (i j : Nat) call call' slot slot', calls[i]? = some call → calls[j]? = some call' →
      call.slot? = some slot → call'.slot? = some slot' →
      (∃ table, (after (calls.take i)).table? slot.1 = some table) →
      (∃ table, (after (calls.take j)).table? slot'.1 = some table) →
      ∃ place place', (answers calls)[i]? = some (.column place) ∧
        (answers calls)[j]? = some (.column place') ∧ (place = place' ↔ slot = slot')) ∧
    ∀ (i j : Nat) x y, i ≠ j → calls[i]? = some (.tableFor x) → calls[j]? = some (.tableFor y) →
      ∃ id id', (answers calls)[i]? = some (.table id) ∧ (answers calls)[j]? = some (.table id') ∧
        (id = id' ↔ isDerived x = false ∧ isDerived y = false ∧ Text.trim x = Text.trim y) := by
  refine ⟨after_consistent calls, fun _ _ _ => (after_consistent calls).single, ?_, ?_, ?_⟩
  · rintro earlier later rfl
    have hgrows := after_grows earlier later
    refine ⟨hgrows, fun answer hanswer => ⟨fun id hid => ?_, fun place hplace => ?_⟩⟩
    · obtain ⟨reference, hr⟩ := (answers_placed hanswer).tables id hid
      exact ⟨reference, hr, hgrows.reference? hr⟩
    · obtain ⟨slot, hs⟩ := (answers_placed hanswer).columns place hplace
      exact ⟨slot, hs, hgrows.column? hs⟩
  · intro i j call call' slot slot' hcall hcall' hslot hslot' hid hid'
    obtain ⟨place, hanswer, hholds⟩ := answers_slot hcall hslot hid
    obtain ⟨place', hanswer', hholds'⟩ := answers_slot hcall' hslot' hid'
    exact ⟨place, place', hanswer, hanswer', hholds.place_eq_iff hholds'⟩
  · intro i j x y hij hx hy
    exact ⟨_, _, (answers_tableFor hx).1, (answers_tableFor hy).1, tables_eq_iff hij hx hy⟩

end EntityQuery
