/-!
# Kinds of values

The kinds of values that attributes and literals have, the SQL type code that each is stored
under, and the order in which arithmetic prefers numeric kinds.
-/

set_option autoImplicit false

namespace EntityQuery

/-- The code of a SQL type, as every column carries it. -/
abbrev SqlCode := Int32

namespace SqlCode

def tinyint : SqlCode := -6
def bigint : SqlCode := -5
def varbinary : SqlCode := -3
def nvarchar : SqlCode := -9
def char : SqlCode := 1
def numeric : SqlCode := 2
def integer : SqlCode := 4
def smallint : SqlCode := 5
def float : SqlCode := 6
def double : SqlCode := 8
def varchar : SqlCode := 12
def boolean : SqlCode := 16
def date : SqlCode := 91
def time : SqlCode := 92
def timestamp : SqlCode := 93

end SqlCode

/-- How a value of an enumeration is stored: by its position or by its name. -/
inductive EnumStorage
  | ordinal
  | string (nationalized : Bool)
deriving DecidableEq

/-- The kind of a value. -/
inductive ValueType
  | string | character | boolean
  | byte | short | integer | long | float | double | bigInteger | bigDecimal
  | date | time | timestamp
  | binary
  | enum (name : String) (storage : EnumStorage)
deriving DecidableEq

namespace ValueType

/-- The SQL type that values of the kind are stored under unless another one is asked for. -/
def recommendedCode : ValueType → SqlCode
  | .string => SqlCode.varchar
  | .character => SqlCode.char
  | .boolean => SqlCode.boolean
  | .byte => SqlCode.tinyint
  | .short => SqlCode.smallint
  | .integer => SqlCode.integer
  | .long => SqlCode.bigint
  | .float => SqlCode.float
  | .double => SqlCode.double
  | .bigInteger => SqlCode.numeric
  | .bigDecimal => SqlCode.numeric
  | .date => SqlCode.date
  | .time => SqlCode.time
  | .timestamp => SqlCode.timestamp
  | .binary => SqlCode.varbinary
  | .enum _ .ordinal => SqlCode.integer
  | .enum _ (.string true) => SqlCode.nvarchar
  | .enum _ (.string false) => SqlCode.varchar

/-- The place of a numeric kind in the order of arithmetic; other kinds have none. -/
def rank : ValueType → Option Nat
  | .byte => some 1
  | .short => some 2
  | .integer => some 3
  | .long => some 4
  | .bigInteger => some 5
  | .float => some 6
  | .double => some 7
  | .bigDecimal => some 8
  | _ => none

/-- Whether arithmetic ranks the kind. -/
def isNumeric (t : ValueType) : Bool := t.rank.isSome

/-- The names under which a definition may ask for a kind. -/
def named : List (String × ValueType) :=
  [("string", .string), ("text", .string),
   ("character", .character), ("char", .character),
   ("boolean", .boolean), ("bool", .boolean),
   ("byte", .byte), ("short", .short),
   ("integer", .integer), ("int", .integer),
   ("long", .long), ("float", .float), ("double", .double),
   ("big_integer", .bigInteger), ("biginteger", .bigInteger),
   ("big_decimal", .bigDecimal), ("bigdecimal", .bigDecimal),
   ("date", .date), ("time", .time), ("timestamp", .timestamp),
   ("binary", .binary), ("bytes", .binary)]

/-- The kind that a definition names; letters may be of either case. -/
def ofName? (name : String) : Option ValueType := named.lookup (name.map Char.toLower)

/-- The name that messages use for the kind. -/
def name : ValueType → String
  | .string => "string"
  | .character => "character"
  | .boolean => "boolean"
  | .byte => "byte"
  | .short => "short"
  | .integer => "integer"
  | .long => "long"
  | .float => "float"
  | .double => "double"
  | .bigInteger => "biginteger"
  | .bigDecimal => "bigdecimal"
  | .date => "date"
  | .time => "time"
  | .timestamp => "timestamp"
  | .binary => "binary"
  | .enum name _ => name

end ValueType

end EntityQuery
