/-!
# Files

The files of a directory and what a path names among them. `Files.read` gives the text at a path,
or why there is none.
-/

set_option autoImplicit false

namespace EntityQuery

/-- Why the text of a file cannot be read. -/
inductive FileError
  | missing
  | denied
  | notDirectory
  | isDirectory
  | nameTooLong
deriving DecidableEq

def FileError.message : FileError → String
  | .missing => "No such file or directory (os error 2)"
  | .denied => "Permission denied (os error 13)"
  | .notDirectory => "Not a directory (os error 20)"
  | .isDirectory => "Is a directory (os error 21)"
  | .nameTooLong => "File name too long (os error 36)"

/-- The files of a directory by their names. A file of a further directory has slashes in its
name. -/
abbrev Files := List (String × String)

namespace Files

/-- The parts of a path between its slashes. -/
def parts (path : List Char) : List (List Char) :=
  match path with
  | [] => [[]]
  | '/' :: cs => [] :: parts cs
  | c :: cs =>
    match parts cs with
    | [] => [[c]]
    | part :: rest => (c :: part) :: rest

/-- What part of a path names. A directory has the parts of its own path; what is outside of the
files is not known. -/
inductive Place
  | directory (path : List (List Char))
  | file (text : String)
  | outside

/-- The place of a name in a directory. -/
def lookup (files : Files) (path : List (List Char)) : Except FileError Place :=
  match files.find? fun entry => parts entry.1.toList = path with
  | some (_, text) => .ok (.file text)
  | none =>
    if files.any fun entry => path.isPrefixOf (parts entry.1.toList) then .ok (.directory path)
    else .error .missing

/-- The number of bytes that a part of a path may have. -/
def maxPartSize : Nat := 255

/-- The number of bytes that a path may have. -/
def maxPathSize : Nat := 4095

/-- The place behind one more part of a path. -/
def step (files : Files) (place : Place) (part : List Char) : Except FileError Place :=
  match place with
  | .file _ => .error .notDirectory
  | .outside =>
    if part = [] ∨ part = ['.'] ∨ part = ['.', '.'] then .ok .outside
    else if maxPartSize < (String.ofList part).utf8ByteSize then .error .nameTooLong
    else .error .missing
  | .directory path =>
    if part = [] ∨ part = ['.'] then .ok place
    else if part = ['.', '.'] then
      .ok (if path.isEmpty then .outside else .directory path.dropLast)
    else if maxPartSize < (String.ofList part).utf8ByteSize then .error .nameTooLong
    else files.lookup (path ++ [part])

/-- The text at a path, which begins outside of the files when it begins with a slash. -/
def read (files : Files) (path : String) : Except FileError String :=
  if maxPathSize < path.utf8ByteSize then .error .nameTooLong
  else if path.isEmpty then .error .missing
  else do
    let first := if path.startsWith "/" then .outside else .directory []
    match ← (parts path.toList).foldlM files.step first with
    | .file text => return text
    | _ => .error .isDirectory

end Files

end EntityQuery
