import EntityQuery.Document.Reading
import EntityQuery.Settings

/-!
# Documents of settings

How settings and overrides are written and read. A record of overrides may hold no other members
than those it knows.
-/

set_option autoImplicit false

namespace EntityQuery

namespace Settings

/-- The names of the settings in documents. -/
def names : List String := ["alias_prefix", "expand_all_subclass_tables"]

def toDocument (s : Settings) : Document :=
  .fields [("alias_prefix", .text s.aliasStem),
    ("expand_all_subclass_tables", .bool s.expandSubclassTables)]

/-- The settings in a document whose records are laid out as `layout` says. -/
def read? (layout : Layout) : Reader Settings := fun d => do
  match ← layout names d with
  | [aliasStem, expand] =>
    return ⟨← aliasStem.orElse default.aliasStem Document.text?,
      ← expand.orElse default.expandSubclassTables Document.bool?⟩
  | _ => none

/-- The settings in a JSON document. -/
def ofDocument? : Document → Option Settings := read? Document.slots

end Settings

namespace Overrides

/-- Whether a document holds members that are no settings. -/
def hasStranger : Document → Bool
  | .fields members => members.any fun m => m.1 ∉ Settings.names
  | .mapping members => members.any fun m => m.1.text?.all (· ∉ Settings.names)
  | _ => false

/-- The overrides in a document whose records are laid out as `layout` says. -/
def read? (layout : Layout) : Reader Overrides := fun d => do
  if hasStranger d then none
  else
    match ← layout Settings.names d with
    | [aliasStem, expand] =>
      return ⟨← aliasStem.optional Document.text?, ← expand.optional Document.bool?⟩
    | _ => none

/-- The overrides in a JSON document. -/
def ofDocument? : Document → Option Overrides := read? Document.slots

end Overrides

end EntityQuery
