/-
Settings from a file.

A settings file is a YAML document: a mapping of known keys, all of them optional. Unknown keys are ignored, a known key
may stand there once only, and a value of the wrong form makes the whole file unreadable. Truth values and numbers are
plain scalars, or literal ones with the tag of their type; a text is the text of any scalar. A place where nothing is
written serves as an empty mapping.
-/
import EscapeTime.Settings.Basic
import EscapeTime.Yaml.Document

namespace EscapeTime

open Yaml (Node)

namespace Yaml.Node

def text? : Node → Option String
  | scalar _ _ text => some text
  | _ => none

/-- the entries of a mapping within a document, each under the text of its key -/
def fields? (node document : Node) : Option (List (String × Node)) :=
  match node with
  | mapping entries => entries.mapM fun (key, value) => do
    return (← (key.content document).text?, value.content document)
  | scalar .plain _ "" => some []
  | _ => none

/-- the text of a scalar that may mean a value of the type with this tag -/
def typed? (type : String) : Node → Option String
  | scalar .plain _ text => some text
  | scalar .literal tag text => if tag = some type then some text else none
  | _ => none

def bool? (node : Node) : Option Bool := do
  let text ← node.typed? "tag:yaml.org,2002:bool"
  if ["true", "True", "TRUE"].contains text then return true
  else if ["false", "False", "FALSE"].contains text then return false
  else none

/-- a numeral: a base mark with digits of that base, or decimal digits without leading zeros -/
def numeral? : List Char → Option Nat
  | '0' :: 'x' :: digits => Yaml.numeral? 16 digits
  | '0' :: 'o' :: digits => Yaml.numeral? 8 digits
  | '0' :: 'b' :: digits => Yaml.numeral? 2 digits
  | '0' :: _ :: _ => none
  | digits => Yaml.numeral? 10 digits

/-- a number below 2^64, perhaps under a plus sign -/
def nat? (node : Node) : Option Nat := do
  let text ← node.typed? "tag:yaml.org,2002:int"
  let unsigned := match text.toList with
    | '+' :: rest => rest
    | chars => chars
  (numeral? unsigned).filter (· < Nat.pow 2 64)

end Yaml.Node

/-- the value of a key read by `read`, or `default` if the key is missing; a repeated key is refused -/
def field? {α : Type} (fields : List (String × Node)) (key : String) (read : Node → Option α) (default : α) :
    Option α :=
  match fields.filter (·.1 == key) with
  | [] => some default
  | [(_, value)] => read value
  | _ => none

/-- the bindings at a node within a document -/
def Bindings.ofNode? (document node : Node) : Option Bindings := do
  let fields ← node.fields? document
  let base : Bindings := {}
  return { iterate := ← field? fields "iterate" Node.text? base.iterate
           constant := ← field? fields "constant" Node.text? base.constant
           power := ← field? fields "power" Node.text? base.power }

namespace Settings

def ofDocument? (document : Node) : Option Settings := do
  let fields ← (document.content document).fields? document
  let base : Settings := {}
  return { bindings := ← field? fields "bindings" (Bindings.ofNode? document) base.bindings
           appendConstant := ← field? fields "append_constant" Node.bool? base.appendConstant
           expandSmallPowers := ← field? fields "expand_small_powers" Node.bool? base.expandSmallPowers
           failureCapacity := ← field? fields "diagnostic_capacity" Node.nat? base.failureCapacity
           logLevel := ← field? fields "log_level" Node.text? base.logLevel }

/-- the settings that a file holds; a file that is no UTF-8 text is unreadable -/
def ofFile? (content : ByteArray) : Option Settings := do
  ofDocument? (← Yaml.read (← String.fromUTF8? content))

/-- where the settings of a user lie, seen from the home directory -/
def homePath : String :=
  ".fractaleq/config.yaml"

/-- the settings of a file that may be missing or unreadable; then the defaults -/
def ofFile (content : Option ByteArray) : Settings :=
  (content.bind ofFile?).getD {}

end Settings

end EscapeTime
