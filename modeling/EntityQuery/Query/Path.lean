/-!
# Attribute paths

A path starts at a from-element and names attributes one after the other. It is written with dots
between its parts. `AttributePath.parse` takes a dotted text apart and `AttributePath.dotted` puts
it together.
-/

set_option autoImplicit false

namespace EntityQuery

/-- The characters up to the first dot, and the parts between the dots after it. -/
def splitChars : List Char → List Char × List (List Char)
  | [] => ([], [])
  | c :: cs =>
    let (first, rest) := splitChars cs
    if c = '.' then ([], first :: rest) else (c :: first, rest)

/-- The parts of a text between its dots. -/
def splitDots (s : String) : List String :=
  let (first, rest) := splitChars s.toList
  String.ofList first :: rest.map String.ofList

/-- A path that starts at the from-element called `start`. -/
structure AttributePath where
  start : String
  segments : List String
deriving DecidableEq

namespace AttributePath

/-- The path that a dotted text stands for: its first part is the from-element. -/
def parse (dotted : String) : AttributePath :=
  let (first, rest) := splitChars dotted.toList
  ⟨String.ofList first, rest.map String.ofList⟩

/-- The parts of the path, with dots between them. -/
def dotted (p : AttributePath) : String :=
  p.segments.foldl (fun text segment => text ++ "." ++ segment) p.start

end AttributePath

end EntityQuery
