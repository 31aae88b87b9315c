/-
Templates: shader text with places for code.

A place is marked by `marker`. `segments` cuts a template at its markers, found from left to right and without overlap;
`splice` joins the segments with the code. Code that happens to hold a marker is not searched again. `fragment` is the
complete shader of an equation: the helpers its code calls, then the iteration with the code in place.
-/
import EscapeTime.Compiler

namespace EscapeTime

/-- why code cannot be put into a template -/
inductive TemplateError where
  | missingPlaceholder
  deriving DecidableEq

namespace Template

/-- the text that marks a place for code -/
def marker : String :=
  "\x7b\x7bEQUATION\x7d\x7d"

/-- the texts between the markers, one more than there are markers -/
def segments (text : List Char) : List (List Char) :=
  match text with
  | [] => [[]]
  | c :: rest =>
    if marker.toList.isPrefixOf (c :: rest) then [] :: segments (rest.drop (marker.length - 1))
    else match segments rest with
      | [] => [[c]]
      | segment :: more => (c :: segment) :: more
termination_by text.length
decreasing_by all_goals (simp only [List.length_cons, List.length_drop]; omega)

/-- the template with the code at every marker -/
def splice (template code : String) : Except TemplateError String :=
  match segments template.toList with
  | [_] => .error .missingPlaceholder
  | texts => .ok (String.ofList (List.intercalate code.toList texts))

/-- the escape-time loop around an equation -/
def iteration : String :=
  "int escape_time(vec2 c, float power, int max_iterations) \x7b\n" ++
  "    vec2 z = vec2(0.0);\n" ++
  "    for (int i = 0; i < max_iterations; i++) \x7b\n" ++
  "        z = " ++ marker ++ ";\n" ++
  "        if (dot(z, z) > 4.0) \x7b\n" ++
  "            return i;\n" ++
  "        \x7d\n" ++
  "    \x7d\n" ++
  "    return max_iterations;\n" ++
  "\x7d\n"

/-- the escape-time loop with the code in place -/
def iterationOf (code : String) : String :=
  String.ofList (List.intercalate code.toList (segments iteration.toList))

end Template

def TemplateError.message : TemplateError → String
  | missingPlaceholder => "template has no " ++ Template.marker ++ " placeholder"

/-- the complete shader: the helpers called, a blank line, and the escape-time loop -/
def Emitted.fragment (e : Emitted) : String :=
  let definitions := Helper.definitions e.helpers
  if definitions.isEmpty then Template.iterationOf e.code
  else definitions ++ "\n" ++ Template.iterationOf e.code

end EscapeTime
