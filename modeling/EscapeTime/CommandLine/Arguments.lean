/-
The command line: what a list of arguments asks for.

  [options] compile EQUATION [--ast | --json | --shader] [--strict]
  [options] validate EQUATION [--json]

The options `--log-level TEXT` and `--config PATH` stand in front of the command or behind it; given in both places, the
one behind counts. An option's value follows it as the next argument or behind an equals sign. An argument that begins
with a dash is an option, the dash alone excepted; behind `--` every argument is the equation. No option or flag is
given twice in one place.
-/
namespace EscapeTime.CommandLine

/-- what is printed of a compiled equation -/
inductive Output where
  | code
  | tree
  | json
  | shader
  deriving DecidableEq

inductive Action where
  | compile (equation : String) (output : Output) (strict : Bool)
  | validate (equation : String) (json : Bool)
  deriving DecidableEq

/-- a complete request -/
structure Invocation where
  logLevel : Option String
  settingsPath : Option String
  action : Action
  deriving DecidableEq

/-- why arguments make no request -/
inductive UsageError where
  | unexpectedArgument (text : String)
  | missingValue (option : String)
  | superfluousValue (option : String)
  | repeated (option : String)
  | conflicting (flag other : String)
  | unknownCommand (text : String)
  | missingCommand
  | missingEquation
  deriving DecidableEq

def UsageError.message : UsageError → String
  | unexpectedArgument text => "unexpected argument '" ++ text ++ "'"
  | missingValue option => "a value is required for '--" ++ option ++ "'"
  | superfluousValue option => "no value is allowed for '--" ++ option ++ "'"
  | repeated option => "'--" ++ option ++ "' cannot be used multiple times"
  | conflicting flag other => "'--" ++ flag ++ "' cannot be used with '--" ++ other ++ "'"
  | unknownCommand text => "unrecognized command '" ++ text ++ "'"
  | missingCommand => "a command is required: compile or validate"
  | missingEquation => "an equation is required"

/-- an end without a request to run -/
inductive Halt where
  | usage (error : UsageError)
  | version
  | help
  deriving DecidableEq

/-- the form of an argument -/
inductive Form where
  | long (name : String) (value : Option String)
  | short (letters : List Char)
  | separator
  | value

/-- an argument's form, by its dashes -/
def form (argument : String) : Form :=
  match argument.toList with
  | ['-', '-'] => .separator
  | '-' :: '-' :: rest =>
    let name := String.ofList (rest.takeWhile (· != '='))
    match rest.dropWhile (· != '=') with
    | [] => .long name none
    | _ :: value => .long name (some (String.ofList value))
  | ['-'] => .value
  | '-' :: letters => .short letters
  | _ => .value

/-- what stands in one place of the command line, in front of the command or behind it -/
structure Place where
  logLevel : Option String := none
  settingsPath : Option String := none
  flags : List String := []
  equation : Option String := none

namespace Place

/-- an option's value: given with it, or the next argument if that is no option -/
def valueOf (option : String) (given : Option String) (rest : List String) : Except Halt (String × List String) :=
  match given, rest with
  | some value, _ => .ok (value, rest)
  | none, next :: more =>
    match form next with
    | .value => .ok (next, more)
    | _ => .error (.usage (.missingValue option))
  | none, [] => .error (.usage (.missingValue option))

/-- the place with an option; no option is given twice, and a path is not empty -/
def withOption (p : Place) (option value : String) : Except Halt Place :=
  if option = "log-level" then
    if p.logLevel.isSome then .error (.usage (.repeated option)) else .ok { p with logLevel := some value }
  else if p.settingsPath.isSome then .error (.usage (.repeated option))
  else if value.isEmpty then .error (.usage (.missingValue option))
  else .ok { p with settingsPath := some value }

/-- the place with a flag -/
def withFlag (p : Place) (flag : String) (given : Option String) : Except Halt Place :=
  if given.isSome then .error (.usage (.superfluousValue flag))
  else if p.flags.contains flag then .error (.usage (.repeated flag))
  else .ok { p with flags := p.flags ++ [flag] }

/-- the place with its equation; there is one only -/
def withEquation (p : Place) (text : String) : Except Halt Place :=
  if p.equation.isSome then .error (.usage (.unexpectedArgument text)) else .ok { p with equation := some text }

/-- the first two flags that exclude each other -/
def conflict? (p : Place) : Option (String × String) :=
  [("ast", "json"), ("ast", "shader"), ("json", "shader")].find? fun (a, b) =>
    p.flags.contains a && p.flags.contains b

end Place

def isOption (name : String) : Bool :=
  name == "log-level" || name == "config"

theorem length_valueOf {option : String} {given : Option String} {rest more : List String} {value : String}
    (h : Place.valueOf option given rest = .ok (value, more)) : more.length ≤ rest.length := by
  unfold Place.valueOf at h
  split at h
  · simp at h
    simp [h.2]
  · split at h
    · simp at h
      simp [← h.2]
    · simp at h
  · simp at h

/-- the arguments behind a command with the given flags -/
def behindCommand (flags : List String) (p : Place) (arguments : List String) : Except Halt Place :=
  match arguments with
  | [] => .ok p
  | a :: rest =>
    match form a with
    | .separator => rest.foldlM Place.withEquation p
    | .value => do
      let p ← p.withEquation a
      behindCommand flags p rest
    | .short letters => .error (if letters.head? = some 'h' then .help else .usage (.unexpectedArgument a))
    | .long name given =>
      if isOption name then
        match h : Place.valueOf name given rest with
        | .ok (value, more) =>
          have := length_valueOf h
          match p.withOption name value with
          | .ok p => behindCommand flags p more
          | .error halt => .error halt
        | .error halt => .error halt
      else if flags.contains name then
        match p.withFlag name given with
        | .ok p => behindCommand flags p rest
        | .error halt => .error halt
      else if name = "help" then .error (if given.isNone then .help else .usage (.superfluousValue name))
      else .error (.usage (.unexpectedArgument a))
termination_by arguments.length

/-- the request of a command, with the options in front of it -/
def command (front : Place) (name : String) (rest : List String) : Except Halt Invocation := do
  let flags ← match name with
    | "compile" => .ok ["ast", "json", "shader", "strict"]
    | "validate" => .ok ["json"]
    | "help" => .error .help
    | _ => .error (.usage (.unknownCommand name))
  let behind ← behindCommand flags {} rest
  if let some (a, b) := behind.conflict? then .error (.usage (.conflicting a b))
  let some equation := behind.equation | .error (.usage .missingEquation)
  let given := behind.flags.contains
  let output := if given "ast" then .tree else if given "json" then .json else if given "shader" then .shader else .code
  return { logLevel := behind.logLevel.or front.logLevel
           settingsPath := behind.settingsPath.or front.settingsPath
           action := if name = "compile" then .compile equation output (given "strict")
             else .validate equation (given "json") }

/-- the arguments in front of a command, and the command -/
def inFront (p : Place) (arguments : List String) : Except Halt Invocation :=
  match arguments with
  | [] => .error (.usage .missingCommand)
  | a :: rest =>
    match form a with
    | .separator => .error (.usage .missingCommand)
    | .value => command p a rest
    | .short letters =>
      match letters.head? with
      | some 'V' => .error .version
      | some 'h' => .error .help
      | _ => .error (.usage (.unexpectedArgument a))
    | .long name given =>
      if isOption name then
        match h : Place.valueOf name given rest with
        | .ok (value, more) =>
          have := length_valueOf h
          match p.withOption name value with
          | .ok p => inFront p more
          | .error halt => .error halt
        | .error halt => .error halt
      else if name = "version" then .error (if given.isNone then .version else .usage (.superfluousValue name))
      else if name = "help" then .error (if given.isNone then .help else .usage (.superfluousValue name))
      else .error (.usage (.unexpectedArgument a))
termination_by arguments.length

/-- what a list of arguments asks for -/
def Invocation.ofArguments (arguments : List String) : Except Halt Invocation :=
  inFront {} arguments

end EscapeTime.CommandLine
