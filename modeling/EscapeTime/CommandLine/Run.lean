/-
Running a request of the command line.

A run is a pure function of the request, the log filter of the environment and the content of the settings file that the
request names (the one in the home directory if it names none). It yields an exit status, the text for standard output,
and the lines for standard error, log lines among them.
-/
import EscapeTime.CommandLine.Arguments
import EscapeTime.Log.Event
import EscapeTime.Settings.File
import EscapeTime.Shader.Template
import EscapeTime.Text.Json
import EscapeTime.Warning

namespace EscapeTime

open Text (Json)

/-- emitted code as a document: code, helpers, and the reason if it stands in for something else -/
def Emitted.toJson (e : Emitted) : Json :=
  .object [
    ("code", .string e.code),
    ("helpers", .array (e.helpers.map fun h => .string h.tag)),
    ("fallback", match e.fallback with
      | none => .null
      | some error =>
        let r := error.report
        .object [("message", .string r.message), ("position", .nat r.position), ("kind", .string r.kind.name)])]

/-- the verdict about a text as a document, keys in alphabetical order -/
def Validation.toJson : Option Warning → Json
  | none => .object [("ok", .bool true)]
  | some w => .object [
      ("kind", .string w.kind.name),
      ("message", .string w.kind.message),
      ("ok", .bool false),
      ("position", match w.position with
        | some i => .nat i
        | none => .null)]

namespace CommandLine

/-- a line for standard error -/
inductive Line where
  | notice (text : String)
  | log (text : String)
  deriving DecidableEq

def Line.text : Line → String
  | notice text => text
  | log text => text

/-- what a run leaves behind -/
structure Run where
  exit : Nat
  output : String := ""
  errors : List Line := []
  deriving DecidableEq

/-- the environment variable that holds a log filter -/
def filterVariable : String :=
  "FRACTALEQ_LOG"

def versionText : String :=
  "fractaleq 0.1.0\n"

def helpText : String :=
  "Compile complex equations into escape-time fractal shader code\n\n" ++
  "Usage: fractaleq [OPTIONS] compile EQUATION [--ast | --json | --shader] [--strict]\n" ++
  "       fractaleq [OPTIONS] validate EQUATION [--json]\n\n" ++
  "Options:\n" ++
  "  --log-level TEXT  Log filter, e.g. \"debug\" or \"fractaleq=trace\"\n" ++
  "  --config PATH     Configuration file (default: ~/" ++ Settings.homePath ++ ")\n"

/-- one line of text -/
def printed (text : String) : String :=
  text ++ "\n"

/-- the run of an end without a request -/
def Halt.run : Halt → Run
  | usage error => { exit := 2, errors := [.notice ("error: " ++ error.message)] }
  | version => { exit := 0, output := versionText }
  | help => { exit := 0, output := helpText }

/-- a rejection that ends the run -/
def refusal (error : Rejection) : Run :=
  { exit := 1, errors := [.notice ("error: " ++ error.display)] }

/-- print an equation as a tree -/
def printTree (source : String) : Run :=
  match parse source with
  | .ok e => { exit := 0, output := printed e.render }
  | .error error => refusal error

/-- print emitted code -/
def printEmitted (output : Output) (e : Emitted) : Run :=
  match output with
  | .json => { exit := 0, output := printed e.toJson.pretty }
  | _ =>
    { exit := 0
      output := if output = .shader then e.fragment else printed e.code
      errors := match e.fallback with
        | some error => [.notice ("warning: " ++ error.display ++ "; showing default equation")]
        | none => [] }

/-- compile and print -/
def compile (k : Compiler) (source : String) (output : Output) (strict : Bool) : Run :=
  if output = .tree then printTree source
  else if strict then
    match k.compileStrict source with
    | .ok e => printEmitted output e
    | .error error => refusal error
  else printEmitted output (k.compile source)

/-- the events that compiling logs -/
def compileEvents (k : Compiler) (source : String) (output : Output) (strict : Bool) : List Log.Event :=
  if output = .tree then Log.parseEvents source
  else if strict then Log.strictEvents k source
  else Log.compileEvents k source

/-- print the verdict about a text; a warning shows in the exit status -/
def check (source : String) (json : Bool) : Run :=
  let found := validate source
  { exit := if found.isSome then 1 else 0
    output := printed (if json then (Validation.toJson found).compact
      else match found with
        | some w => w.display
        | none => "ok") }

namespace Invocation

/-- the settings of a run, and a notice if a file that was asked for cannot be used -/
def settings (i : Invocation) (file : Option ByteArray) : Settings × List Line :=
  match i.settingsPath, file.bind Settings.ofFile? with
  | _, some s => (s, [])
  | none, none => ({}, [])
  | some path, none => ({}, [.notice ("could not load config from " ++ path ++ ", using defaults")])

/-- the log filter of a run: asked for, from the environment, or from the settings -/
def filter (i : Invocation) (environment : Option String) (s : Settings) : Log.Filter :=
  .choose (i.logLevel.toList ++ environment.toList ++ [s.logLevel])

/-- run a request, given the log filter of the environment and the content of the settings file -/
def run (i : Invocation) (environment : Option String) (file : Option ByteArray) : Run :=
  let (s, notices) := i.settings file
  let (events, done) := match i.action with
    | .compile equation output strict =>
      (compileEvents s.compiler equation output strict, compile s.compiler equation output strict)
    | .validate equation json => ([], check equation json)
  let shown := events.filter (Log.Event.passes (i.filter environment s))
  { done with errors := notices ++ shown.map (fun e => .log e.line) ++ done.errors }

end Invocation

end CommandLine

end EscapeTime
