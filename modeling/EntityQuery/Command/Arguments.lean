/-!
# Arguments of the command

The command takes the paths of a definition and of a statement, and options. Every option is given
at most once; its value follows it, or stands behind an equals sign. Instead, the command may be
asked about itself; the first such argument counts if nothing before it is wrong.
-/

set_option autoImplicit false

namespace EntityQuery

/-- What the command is asked to do. -/
structure Invocation where
  metamodel : String
  statement : String
  config : Option String
  aliasStem : Option String
  compact : Bool
deriving DecidableEq

/-- Arguments that do not stand for an invocation: they are wrong, or ask for the help or the
version. -/
inductive Refusal
  | invalid
  | help
  | version
deriving DecidableEq

/-- The options met so far. -/
structure Options where
  metamodel : Option String
  statement : Option String
  config : Option String
  aliasStem : Option String
  compact : Bool
deriving DecidableEq

namespace Options

def empty : Options := ⟨none, none, none, none, false⟩

/-- A value for an option that has none yet. -/
def once (old : Option String) (value : String) : Except Refusal (Option String) :=
  match old with
  | none => .ok (some value)
  | some _ => .error .invalid

/-- A path for an option that has none yet. -/
def path (old : Option String) (value : String) : Except Refusal (Option String) :=
  if value.isEmpty then .error .invalid else once old value

/-- The options with a value for one of them. -/
def put (o : Options) (name value : String) : Except Refusal Options :=
  match name with
  | "--metamodel" => do return { o with metamodel := ← path o.metamodel value }
  | "--statement" => do return { o with statement := ← path o.statement value }
  | "--config" => do return { o with config := ← path o.config value }
  | "--alias-prefix" => do return { o with aliasStem := ← once o.aliasStem value }
  | _ => .error .invalid

/-- Whether an argument can be the value of the option before it. -/
def isValue (argument : String) : Bool := !argument.startsWith "-" || argument = "-"

/-- The characters before the first equals sign, and those after it if there is one. -/
def splitEquals (cs : List Char) : List Char × Option (List Char) :=
  match cs.dropWhile (· ≠ '=') with
  | [] => (cs, none)
  | _ :: value => (cs.takeWhile (· ≠ '='), some value)

/-- What an argument asks about the command. Further letters behind the first one do not count. -/
def question? (argument : String) : Option Refusal :=
  match argument.toList with
  | '-' :: 'h' :: _ => some .help
  | '-' :: 'V' :: _ => some .version
  | _ =>
    if argument = "--help" then some .help
    else if argument = "--version" then some .version
    else none

/-- Whether an option takes a value. -/
def takesValue (name : String) : Bool :=
  name ∈ ["--metamodel", "--statement", "--config", "--alias-prefix"]

/-- The options that arguments give. `waiting` is an option that waits for its value. -/
def read (o : Options) (waiting : Option String) : List String → Except Refusal Options
  | [] => if waiting.isSome then .error .invalid else .ok o
  | argument :: rest =>
    match waiting, question? argument with
    | some name, _ => do
      if isValue argument then read (← o.put name argument) none rest else .error .invalid
    | none, some refusal => .error refusal
    | none, none =>
      if argument = "--" then if rest.isEmpty then .ok o else .error .invalid
      else if argument = "--compact" then
        if o.compact then .error .invalid else read { o with compact := true } none rest
      else
        match splitEquals argument.toList with
        | (_, none) =>
          if takesValue argument then read o (some argument) rest else .error .invalid
        | (name, some value) => do
          read (← o.put (String.ofList name) (String.ofList value)) none rest

/-- The invocation that complete options stand for. -/
def invocation (o : Options) : Except Refusal Invocation :=
  match o.metamodel, o.statement with
  | some metamodel, some statement => .ok ⟨metamodel, statement, o.config, o.aliasStem, o.compact⟩
  | _, _ => .error .invalid

end Options

/-- The invocation that arguments stand for. -/
def Invocation.ofArguments (arguments : List String) : Except Refusal Invocation := do
  (← Options.empty.read none arguments).invocation

end EntityQuery
