import EntityQuery.Lowering.Error
import EntityQuery.Sql.Query

/-!
# The from-index

Which table group stands for which from-element. Entries are kept in the order of their aliases,
each alias once.

`insertEntry_sorted` says that an added entry goes to its place.
-/

set_option autoImplicit false

namespace EntityQuery

/-- The place of a group within its space. -/
inductive GroupPosition
  | root
  | join (index : Nat)
deriving DecidableEq

structure GroupLocator where
  space : Nat
  position : GroupPosition
deriving DecidableEq

/-- What a from-element ranges over. -/
inductive GroupSource
  | entity (name : String)
  | collection (role : String)
deriving DecidableEq

/-- A reference to the table group of a from-element. -/
structure GroupRef where
  locator : GroupLocator
  aliasBase : String
  source : GroupSource
deriving DecidableEq

/-- `entries` with an entry in its place; an entry of the same alias is replaced. -/
def insertEntry (name : String) (ref : GroupRef) :
    List (String × GroupRef) → List (String × GroupRef)
  | [] => [(name, ref)]
  | entry :: rest =>
    if name < entry.1 then (name, ref) :: entry :: rest
    else if name = entry.1 then (name, ref) :: rest
    else entry :: insertEntry name ref rest

/-- The aliases of entries. -/
def aliases (entries : List (String × GroupRef)) : List String := entries.map Prod.fst

theorem mem_aliases_insertEntry {x name : String} {ref : GroupRef}
    {entries : List (String × GroupRef)} (h : x ∈ aliases (insertEntry name ref entries)) :
    x = name ∨ x ∈ aliases entries := by
  induction entries with
  | nil => simpa [insertEntry, aliases] using h
  | cons entry rest ih =>
    simp only [aliases, List.map_cons, List.mem_cons] at ih ⊢
    rw [insertEntry] at h
    split at h
    · simpa [aliases] using h
    · split at h <;> simp only [aliases, List.map_cons, List.mem_cons] at h
      · rcases h with h | h
        · exact .inl h
        · exact .inr (.inr h)
      · rcases h with h | h
        · exact .inr (.inl h)
        · exact (ih h).imp id .inr

theorem insertEntry_sorted (name : String) (ref : GroupRef) {entries : List (String × GroupRef)}
    (h : (aliases entries).Pairwise (· < ·)) :
    (aliases (insertEntry name ref entries)).Pairwise (· < ·) := by
  induction entries with
  | nil => simp [insertEntry, aliases]
  | cons entry rest ih =>
    have ⟨first, others⟩ := List.pairwise_cons.1 h
    rw [insertEntry]
    split
    · rename_i lt
      refine List.pairwise_cons.2 ⟨fun x hx => ?_, h⟩
      rcases List.mem_cons.1 hx with rfl | hx
      · exact lt
      · exact String.lt_trans lt (first x hx)
    · split
      · rename_i eq
        subst eq
        exact List.pairwise_cons.2 ⟨first, others⟩
      · rename_i notLt ne
        refine List.pairwise_cons.2 ⟨fun x hx => ?_, ih others⟩
        rcases mem_aliases_insertEntry hx with rfl | hx
        · exact Std.lt_of_le_of_ne (Std.not_lt.1 notLt) (Ne.symm ne)
        · exact first x hx

/-- The table groups of from-elements, by alias. -/
structure FromIndex where
  entries : List (String × GroupRef)
  sorted : (aliases entries).Pairwise (· < ·)

namespace FromIndex

def empty : FromIndex := ⟨[], .nil⟩

/-- The index with an entry added; an entry of the same alias is replaced. -/
def insert (index : FromIndex) (name : String) (ref : GroupRef) : FromIndex :=
  ⟨insertEntry name ref index.entries, insertEntry_sorted name ref index.sorted⟩

/-- The index of given entries, of which the last of an alias stays. -/
def ofEntries (entries : List (String × GroupRef)) : FromIndex :=
  entries.foldl (fun index entry => index.insert entry.1 entry.2) empty

def find? (index : FromIndex) (name : String) : Option GroupRef := index.entries.lookup name

/-- The entry of a from-element, or the error that there is none. -/
def resolve (index : FromIndex) (name : String) : Except LoweringError GroupRef :=
  match index.find? name with
  | some ref => .ok ref
  | none => .error (.unknownFromElement name)

/-- The index with a new entry, whose alias must not be in use. -/
def add (index : FromIndex) (name : String) (ref : GroupRef) : Except LoweringError FromIndex :=
  match index.find? name with
  | some _ => .error (.duplicateAlias name)
  | none => .ok (index.insert name ref)

def size (index : FromIndex) : Nat := index.entries.length

/-- The first entry whose group has an alias base. -/
def findByBase? (index : FromIndex) (aliasBase : String) : Option (String × GroupRef) :=
  index.entries.find? (·.2.aliasBase = aliasBase)

end FromIndex

/-- The group at a place of a list of spaces. -/
def groupAt? (spaces : List Sql.TableSpace) (locator : GroupLocator) : Option Sql.TableGroup := do
  let space ← spaces[locator.space]?
  match locator.position with
  | .root => some space.root
  | .join index => (space.joins[index]?).map (·.group)

/-- The group that a reference points at. -/
def Sql.Statement.group? (s : Sql.Statement) (ref : GroupRef) : Option Sql.TableGroup :=
  groupAt? s.fromClause.spaces ref.locator

end EntityQuery
