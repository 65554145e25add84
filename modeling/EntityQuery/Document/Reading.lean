import EntityQuery.Document.Scalar

/-!
# Values read from documents

A record is read from an object by the names of its fields, or from a list that holds the fields
in their order. `Document.slots` gives what each field finds there, and the readers of `Slot` say
what a missing field means: an error, nothing, or a default. A sum is read from the name of a
variant, or from an object whose only key is that name. In a document whose types have been settled
a number may stand for a name: that of the field or variant at this place.

Every reader answers `none` when the document does not have the form asked for.
-/

set_option autoImplicit false

namespace EntityQuery

/-- A way to read a value of type `α`. -/
abbrev Reader (α : Type) := Document → Option α

/-- What a field of a record finds in a document: a value, no member of its name in an object,
or the end of a list. -/
inductive Slot
  | given (document : Document)
  | absent
  | beyond

/-- What the fields of a record find in a document, by the names of the fields. -/
abbrev Layout := List String → Document → Option (List Slot)

namespace Document

/-! ## Scalars -/

/-- A text. -/
def text? : Reader String
  | .text s => some s
  | .bare s => some s
  | _ => none

/-- A truth value. -/
def bool? : Reader Bool
  | .bool b => some b
  | .bare s => truth? s
  | _ => none

/-- Whether the document says that there is nothing. -/
def isNull : Document → Bool
  | .null => true
  | .bare s => isNothing s
  | _ => false

/-- A whole number. -/
def int? : Reader Int
  | .number (.whole negative n) => some (if negative then -n else n)
  | _ => none

/-- A natural number. -/
def nat? : Reader Nat := fun d => do
  let n ← d.int?
  if 0 ≤ n then some n.toNat else none

/-- A whole number of 32 bits with a sign. -/
def int32? : Reader Int32 := fun d => do
  let n ← d.int?
  if -0x80000000 ≤ n ∧ n < 0x80000000 then some (Int32.ofInt n) else none

/-- A natural number of 32 bits. -/
def uint32? : Reader UInt32 := fun d => do
  let n ← d.int?
  if 0 ≤ n ∧ n < 0x100000000 then some (UInt32.ofNat n.toNat) else none

/-- A whole number of 64 bits with a sign. -/
def int64? : Reader Int64 := fun d => do
  let n ← d.int?
  if -0x8000000000000000 ≤ n ∧ n < 0x8000000000000000 then some (Int64.ofInt n) else none

/-- A binary fraction of double precision. A number too large for it is refused. -/
def binary64? : Reader Binary64
  | .number (.real x) => if x.isFinite then some x else none
  | d => d.int?.map Binary64.ofInt

/-- A binary fraction of single precision, infinite when the number is too large for it. -/
def binary32? : Reader Binary32
  | .number (.real x) => if x.isFinite then some x.narrow else none
  | d => d.int?.map Binary32.ofInt

/-- A single character. -/
def char? : Reader Char := fun d => do
  match (← d.text?).toList with
  | [c] => some c
  | _ => none

/-! ## Lists and values that may be missing -/

/-- The values that `f` reads from all items of a list. -/
def readAll {α : Type} (f : Reader α) : List Document → Option (List α)
  | [] => some []
  | d :: ds => do return (← f d) :: (← readAll f ds)

/-- A list. -/
def list? {α : Type} (f : Reader α) : Reader (List α)
  | .list items => readAll f items
  | .bare "" => some []
  | _ => none

/-- A value, or nothing. -/
def option? {α : Type} (f : Reader α) : Reader (Option α) := fun d =>
  if d.isNull then some none else (f d).map some

/-! ## Records -/

/-- The keys of an object's members. -/
def keys (members : List (String × Document)) : List String := members.map Prod.fst

/-- Whether one of `names` is the key of several members. -/
def repeats (names : List String) (members : List (String × Document)) : Bool :=
  names.any fun name => 1 < (keys members).count name

/-- What the field `name` finds among the members of an object. -/
def slotOf (members : List (String × Document)) (name : String) : Slot :=
  match members.lookup name with
  | some d => .given d
  | none => .absent

/-- What the fields of a record find among the members of an object, each at most once. -/
def slotsOf (names : List String) (members : List (String × Document)) : Option (List Slot) :=
  if repeats names members then none else some (names.map (slotOf members))

/-- The name that a key stands for, which is one of `names` when the key is a number. A number
beyond them stands for none. -/
def keyName? (names : List String) : Document → Option (Option String)
  | .text s => some (some s)
  | .bare s => some (some s)
  | .number (.whole false n) => some names[n]?
  | _ => none

/-- The members of a mapping by their names. -/
def namedMembers? (names : List String) :
    List (Document × Document) → Option (List (String × Document))
  | [] => some []
  | (key, d) :: rest => do
    let rest ← namedMembers? names rest
    match ← keyName? names key with
    | some name => return (name, d) :: rest
    | none => return rest

/-- What the fields of a record find in an object. -/
def namedSlots (names : List String) : Document → Option (List Slot)
  | .fields members => slotsOf names members
  | .mapping members => namedMembers? names members >>= slotsOf names
  | .bare "" => some (names.map fun _ => .absent)
  | _ => none

/-- What the fields of a record find in an object or in a list. -/
def slots (names : List String) : Document → Option (List Slot)
  | .list items =>
    if items.length ≤ names.length then
      some (items.map .given ++ List.replicate (names.length - items.length) .beyond)
    else none
  | d => namedSlots names d

/-! ## Sums -/

/-- Nothing, when the document is an empty object. -/
def emptyAsNull : Document → Document
  | .fields [] => .null
  | .mapping [] => .null
  | d => d

/-- A sum of a settled document in its plain form: the variant by its name, and nothing for an
empty object. `names` are the names of the variants. -/
def plain (names : List String) : Document → Document
  | .fields [(name, d)] => .fields [(name, d.emptyAsNull)]
  | .mapping [(key, d)] =>
    match keyName? names key with
    | some (some name) => .fields [(name, d.emptyAsNull)]
    | _ => .unreadable
  | d => d

/-- The name of a variant with the document it carries. -/
def variant? : Document → Option (String × Option Document)
  | .text name => some (name, none)
  | .bare name => some (name, none)
  | .fields [(name, d)] => some (name, some d)
  | _ => none

/-- The name of a variant that carries nothing. -/
def plainVariant? (d : Document) : Option String := do
  match ← d.variant? with
  | (name, none) => some name
  | (name, some .null) => some name
  | _ => none

/-- A value of an enumeration, by the names of its values. -/
def enum? {α : Type} (values : List (String × α)) : Reader α := fun d => do
  values.lookup (← d.plainVariant?)

end Document

namespace Slot

/-- A field that must be there. -/
def required {α : Type} (f : Reader α) : Slot → Option α
  | .given d => f d
  | _ => none

/-- A field that has the value `default` when it is not there. -/
def orElse {α : Type} (default : α) (f : Reader α) : Slot → Option α
  | .given d => f d
  | _ => some default

/-- A field that may hold nothing, and holds nothing when it is not there. -/
def optional {α : Type} (f : Reader α) : Slot → Option (Option α) :=
  orElse none (Document.option? f)

/-- A field that may hold nothing. Only an object may leave it out. -/
def nullable {α : Type} (f : Reader α) : Slot → Option (Option α)
  | .given d => Document.option? f d
  | .absent => some none
  | .beyond => none

end Slot

end EntityQuery
