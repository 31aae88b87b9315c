/-
JSON documents and their two layouts: on one line without blanks, and indented by two blanks a level.

Numbers, truth values and null are given by their text. The fields of an object stand in the order given.
-/
import EscapeTime.Text.Quoted

namespace EscapeTime.Text

/-- a JSON document -/
inductive Json where
  | literal (text : String)
  | string (text : String)
  | array (items : List Json)
  | object (fields : List (String × Json))

namespace Json

def null : Json :=
  literal "null"

def bool (b : Bool) : Json :=
  literal (if b then "true" else "false")

def nat (n : Nat) : Json :=
  literal (toString n)

mutual

/-- one line, no blanks -/
def compact : Json → String
  | literal text => text
  | string text => quoteJson text
  | array items => "[" ++ ",".intercalate (compactItems items) ++ "]"
  | object fields => "\x7b" ++ ",".intercalate (compactFields fields) ++ "\x7d"

def compactItems : List Json → List String
  | [] => []
  | item :: rest => item.compact :: compactItems rest

def compactFields : List (String × Json) → List String
  | [] => []
  | (key, value) :: rest => (quoteJson key ++ ":" ++ value.compact) :: compactFields rest

end

/-- a line break and the indentation of a level -/
def lineBreak (level : Nat) : String :=
  "\n" ++ String.ofList (List.replicate (2 * level) ' ')

/-- bracketed entries, each on a line of its own; without entries the brackets alone -/
def block (opening closing : String) (level : Nat) : List String → String
  | [] => opening ++ closing
  | entries =>
    opening ++ lineBreak (level + 1) ++ ("," ++ lineBreak (level + 1)).intercalate entries ++ lineBreak level ++ closing

mutual

/-- one entry a line, indented by its level -/
def indented (level : Nat) : Json → String
  | literal text => text
  | string text => quoteJson text
  | array items => block "[" "]" level (indentedItems (level + 1) items)
  | object fields => block "\x7b" "\x7d" level (indentedFields (level + 1) fields)

def indentedItems (level : Nat) : List Json → List String
  | [] => []
  | item :: rest => item.indented level :: indentedItems level rest

def indentedFields (level : Nat) : List (String × Json) → List String
  | [] => []
  | (key, value) :: rest => (quoteJson key ++ ": " ++ value.indented level) :: indentedFields level rest

end

/-- the document over several lines -/
def pretty (document : Json) : String :=
  document.indented 0

end Json

end EscapeTime.Text
