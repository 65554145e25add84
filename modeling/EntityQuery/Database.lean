import EntityQuery.Text.Blank
import EntityQuery.Text.Word
import EntityQuery.ValueType

/-!
# Tables and their columns

A database is a list of tables, each with the columns and formulas that are read from it. Tables
and columns are only ever added, and are named by their places: `TableId` and `ColumnId`.

A physical table is found again by its name. A derived table is a `select` used in place of a
table; every mention of one is a table of its own.
-/

set_option autoImplicit false

namespace EntityQuery

/-- The place of a table in its database. -/
structure TableId where
  index : Nat
deriving DecidableEq

/-- The place of a column in its table. -/
structure ColumnId where
  table : TableId
  index : Nat
deriving DecidableEq

/-- How messages show the place of a table. -/
def TableId.display (id : TableId) : String := s!"TableId({id.index})"

/-- How messages show the place of a column. -/
def ColumnId.display (id : ColumnId) : String :=
  "ColumnId \x7b table: " ++ id.table.display ++ ", index: " ++ toString id.index ++ " \x7d"

/-- What a table is in the `from` clause of SQL. -/
inductive TableReference
  | physical (name : String)
  | derived (expression : String)
deriving DecidableEq

namespace TableReference

/-- The name or the `select` that SQL would show. -/
def expression : TableReference → String
  | .physical name => name
  | .derived expression => expression

def isPhysical : TableReference → Bool
  | .physical _ => true
  | .derived _ => false

end TableReference

/-- What is read from a table: a column, or a formula over its columns. -/
inductive ColumnExpression
  | column (name : String)
  | formula (text : String)
deriving DecidableEq

/-- The name of the column or the text of the formula. -/
def ColumnExpression.text : ColumnExpression → String
  | .column name => name
  | .formula text => text

/-- A column or formula with the SQL type it is read as. -/
structure Column where
  expression : ColumnExpression
  sqlCode : SqlCode
deriving DecidableEq

structure Table where
  reference : TableReference
  columns : List Column
deriving DecidableEq

/-- All tables, and the places of the physical ones by their names. -/
structure Database where
  tables : List Table
  names : List (String × TableId)
deriving DecidableEq

namespace Database

/-- The database without tables. -/
def empty : Database := ⟨[], []⟩

/-- The table at a place. -/
def table? (db : Database) (id : TableId) : Option Table := db.tables[id.index]?

/-- The column at a place. -/
def column? (db : Database) (id : ColumnId) : Option Column := do
  (← db.table? id.table).columns[id.index]?

/-! ## Tables -/

/-- Whether `c` is the letter `letter`, of either case. The long s is a form of `s`. -/
def isLetter (letter c : Char) : Bool :=
  c.toLower = letter || (letter = 's' && c = 'ſ')

/-- What follows the word `select` when `cs` begins with it. -/
def afterSelect? : List Char → Option (List Char)
  | a :: b :: c :: d :: e :: f :: rest =>
    if isLetter 's' a && isLetter 'e' b && isLetter 'l' c && isLetter 'e' d && isLetter 'c' e
        && isLetter 't' f then some rest else none
  | _ => none

/-- Whether a table expression is a `select`: the word stands first, after blanks, and ends
there. -/
def isDerived (expression : String) : Bool :=
  match afterSelect? (expression.toList.dropWhile Text.isBlank) with
  | some [] => true
  | some (c :: _) => !Text.isWord c
  | none => false

/-- The database with one more table, and its place. -/
def add (reference : TableReference) (db : Database) : TableId × Database :=
  (⟨db.tables.length⟩, { db with tables := db.tables ++ [⟨reference, []⟩] })

/-- The physical table of the given name, added when it is not there. -/
def physical (name : String) (db : Database) : TableId × Database :=
  match db.names.lookup name with
  | some id => (id, db)
  | none =>
    let (id, db) := db.add (.physical name)
    (id, { db with names := (name, id) :: db.names })

/-- A new derived table. -/
def derived (expression : String) (db : Database) : TableId × Database :=
  db.add (.derived (Text.trim expression))

/-- The table that an expression stands for: a new derived table for a `select`, and otherwise
the physical table it names. -/
def tableFor (expression : String) (db : Database) : TableId × Database :=
  if isDerived expression then db.derived expression else db.physical (Text.trim expression)

/-- The tables that several expressions stand for, taken in order. -/
def tablesFor : List String → Database → List TableId × Database
  | [], db => ([], db)
  | expression :: rest, db =>
    let (id, db) := db.tableFor expression
    let (ids, db) := tablesFor rest db
    (id :: ids, db)

/-! ## Columns -/

/-- The place of a column of a table, which is added unless an equal one is there; `none` when
there is no such table. -/
def slot? (id : TableId) (column : Column) (db : Database) : Option (ColumnId × Database) :=
  match db.table? id with
  | none => none
  | some table =>
    match table.columns.idxOf? column with
    | some index => some (⟨id, index⟩, db)
    | none =>
      let grown := { table with columns := table.columns ++ [column] }
      some (⟨id, table.columns.length⟩, { db with tables := db.tables.set id.index grown })

/-- The place of a column by name and SQL type. -/
def column (id : TableId) (name : String) (code : SqlCode) (db : Database) :
    Option (ColumnId × Database) :=
  db.slot? id ⟨.column name, code⟩

/-- The place of a formula by text and SQL type. -/
def formula (id : TableId) (text : String) (code : SqlCode) (db : Database) :
    Option (ColumnId × Database) :=
  db.slot? id ⟨.formula text, code⟩

end Database

end EntityQuery
