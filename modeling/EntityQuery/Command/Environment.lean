import EntityQuery.Text.Alphanumeric
import EntityQuery.Text.Blank

/-!
# Environment files

A file of lines `NAME=value` adds variables to the environment; those that are set already stay.
Values may stand in quotes, may go on over lines within them, and may refer to variables. The first
line that cannot be read ends the file.
-/

set_option autoImplicit false

namespace EntityQuery.Environment

/-! ## Lines -/

/-- Where a reader stands between the quotes of an entry. -/
inductive Quoting
  | complete
  | blank
  | escape
  | single
  | singleEscape
  | double
  | doubleEscape
  | comment
deriving DecidableEq

/-- The next state after a character. A comment lasts to the end of the line. -/
def Quoting.next (q : Quoting) (c : Char) : Quoting :=
  let opened :=
    match c with
    | '\\' => Quoting.escape
    | '"' => .double
    | '\x27' => .single
    | _ => .complete
  match q with
  | .blank => if c = '#' then .comment else opened
  | .complete => if Text.isBlank c ∧ c ≠ '\n' ∧ c ≠ '\r' then .blank else opened
  | .escape => .complete
  | .single => if c = '\\' then .singleEscape else if c = '\x27' then .complete else .single
  | .singleEscape => .single
  | .double => if c = '\\' then .doubleEscape else if c = '"' then .complete else .double
  | .doubleEscape => .double
  | .comment => .comment

/-- The characters of a line before a comment, and the state after them. -/
def quoting (q : Quoting) : List Char → List Char × Quoting
  | [] => ([], q)
  | c :: cs =>
    match q.next c with
    | .comment => ([], .comment)
    | q =>
      let (rest, q) := quoting q cs
      (c :: rest, q)

/-- The lines of a text, each with the line feed that ends it. -/
def lines : List Char → List (List Char)
  | [] => []
  | c :: cs =>
    match lines cs with
    | line :: rest => if c = '\n' then [c] :: line :: rest else (c :: line) :: rest
    | [] => [[c]]

/-- Whether a line holds a comment only. -/
def isComment (line : List Char) : Bool := (line.dropWhile Text.isBlank).head? = some '#'

/-- A line without the end of the line. -/
def chomp (line : List Char) : List Char :=
  match line.reverse with
  | '\n' :: '\r' :: rest => rest.reverse
  | '\n' :: rest => rest.reverse
  | _ => line

/-- The entries of a file, each of one line or of several that quotes hold together. The last one
is missing when its quotes stay open. `held` is what the lines before have left open. -/
def entriesFrom (held : List Char) (q : Quoting) : List (List Char) → List (Option (List Char))
  | [] => if q = .complete then [] else [none]
  | line :: rest =>
    if isComment (held ++ line) then entriesFrom [] .complete rest
    else
      match quoting q line with
      | (_, .complete) => some (chomp (held ++ line)) :: entriesFrom [] .complete rest
      | (before, .comment) => some (held ++ before) :: entriesFrom [] .complete rest
      | (_, q) => entriesFrom (held ++ line) q rest

/-! ## Values -/

/-- Whether a reader stands in the name of a variable, and whether braces hold it. -/
inductive Naming
  | outside
  | plain
  | braced
deriving DecidableEq

/-- Where a reader stands in a value. -/
structure ValueState where
  single : Bool := false
  double : Bool := false
  escaped : Bool := false
  ended : Bool := false
  naming : Naming := .outside
  name : List Char := []
  output : List Char := []

namespace ValueState

/-- The state with a further character of the value. -/
def push (s : ValueState) (c : Char) : ValueState := { s with output := s.output ++ [c] }

/-- The state with the value of the variable that has been named. -/
def substitute (value : String → String) (s : ValueState) : ValueState :=
  { s with name := [], naming := .outside,
           output := s.output ++ (value (String.ofList s.name)).toList }

/-- The state after a character of a variable's name, or after the one that ends it. -/
def nameChar (value : String → String) (s : ValueState) (c : Char) : ValueState :=
  if Text.isAlphanumeric c then { s with name := s.name ++ [c] }
  else if s.naming = .braced then
    if c = '\x7d' then s.substitute value else { s with name := s.name ++ [c] }
  else if c = '\x7b' ∧ s.name.isEmpty then { s with naming := .braced }
  else
    let s := s.substitute value
    if c = '$' then { s with naming := .plain } else s.push c

/-- The state after a character, unless it cannot stand there. `false` in the second place says
that the value is over. -/
def next (value : String → String) (s : ValueState) (c : Char) : Option (ValueState × Bool) :=
  if s.ended then
    if c = ' ' ∨ c = '\t' then some (s, true) else if c = '#' then some (s, false) else none
  else if s.escaped then
    if c ∈ ['\\', '\x27', '"', '$', ' '] then some ({ s.push c with escaped := false }, true)
    else if c = 'n' then some ({ s.push '\n' with escaped := false }, true)
    else none
  else if s.single then
    if c = '\x27' then some ({ s with single := false }, true) else some (s.push c, true)
  else if s.naming ≠ .outside then some (s.nameChar value c, true)
  else if c = '$' then some ({ s with naming := .plain }, true)
  else if s.double then
    if c = '"' then some ({ s with double := false }, true)
    else if c = '\\' then some ({ s with escaped := true }, true)
    else some (s.push c, true)
  else if c = '\x27' then some ({ s with single := true }, true)
  else if c = '"' then some ({ s with double := true }, true)
  else if c = '\\' then some ({ s with escaped := true }, true)
  else if c = ' ' ∨ c = '\t' then some ({ s with ended := true }, true)
  else some (s.push c, true)

/-- The value of an entry, given the values of variables. -/
def read (value : String → String) (s : ValueState) : List Char → Option String
  | [] =>
    if s.naming = .braced ∨ s.single ∨ s.double then none
    else some (String.ofList (s.substitute value).output)
  | c :: cs => do
    match ← s.next value c with
    | (s, true) => read value s cs
    | (s, false) => read value s []

end ValueState

/-! ## Entries -/

/-- The name of a variable, and what comes after it. -/
def key? (cs : List Char) : Option (String × List Char) :=
  match cs with
  | c :: _ =>
    if c.isAlpha ∨ c = '_' then
      let isKey := fun (c : Char) => c.isAlphanum || c = '_' || c = '.'
      some (String.ofList (cs.takeWhile isKey), (cs.dropWhile isKey).dropWhile Text.isBlank)
    else none
  | [] => none

/-- What comes after an equals sign. -/
def afterEquals? : List Char → Option (List Char)
  | '=' :: cs => some (cs.dropWhile Text.isBlank)
  | _ => none

/-- The name of an entry and the characters of its value. The name may stand after `export`. -/
def split? (cs : List Char) : Option (String × List Char) := do
  let (key, rest) ← key? cs
  match afterEquals? rest with
  | some value => return (key, value)
  | none =>
    if key = "export" then
      let (key, rest) ← key? rest
      return (key, ← afterEquals? rest)
    else none

/-- A variable with its value, or nothing for an empty line. Blanks at the end do not count, even
behind a backslash. -/
def entry? (value : String → String) (cs : List Char) : Option (Option (String × String)) :=
  match Text.trimChars cs with
  | [] => some none
  | '#' :: _ => some none
  | cs => do
    let (key, rest) ← split? cs
    match rest with
    | [] => return some (key, "")
    | '#' :: _ => return some (key, "")
    | _ => return some (key, ← ValueState.read value {} rest)

/-! ## Files -/

/-- A way to look up variables. -/
abbrev Variables := String → Option String

/-- The variables with one more, unless it is set already. -/
def define (env : Variables) (key value : String) : Variables := fun name =>
  match env name with
  | some set => some set
  | none => if name = key then some value else none

/-- The variables with the entries of a file. Within the file, a variable also has the value that
its last entry gives it. -/
def load (env : Variables) (stored : List (String × String)) :
    List (Option (List Char)) → Variables
  | [] => env
  | none :: _ => env
  | some line :: rest =>
    let value := fun name => (env name <|> stored.lookup name).getD ""
    match entry? value line with
    | none => env
    | some none => load env stored rest
    | some (some (key, value)) => load (define env key value) ((key, value) :: stored) rest

/-- The names that the values in a text may refer to: what stands behind a dollar sign or in
braces. -/
def references : List Char → List String
  | [] => []
  | '$' :: cs => String.ofList (cs.takeWhile Text.isAlphanumeric) :: references cs
  | '\x7b' :: cs => String.ofList (cs.takeWhile (· ≠ '\x7d')) :: references cs
  | _ :: cs => references cs

/-- A text without a mark of the byte order at its beginning. -/
def withoutMark : List Char → List Char
  | '\ufeff' :: cs => cs
  | cs => cs

/-- The variables with those of an environment file. -/
def withFile (env : Variables) (text : String) : Variables :=
  load env [] (entriesFrom [] .complete (lines (withoutMark text.toList)))

end EntityQuery.Environment
