/-
YAML documents as trees.

A scalar keeps its text and how it was written: only a plain scalar can mean a number or a truth value, unless its tag
says so. Entries of a mapping stand in the order of the text, repeated keys included. A node may carry the number of an
anchor, and an alias stands for the node with its number, be it around the alias itself. Of several nodes with one
number the last to begin counts.
-/
import EscapeTime.Yaml.Scalar

namespace EscapeTime.Yaml

inductive Node where
  | scalar (style : Style) (tag : Option String) (text : String)
  | sequence (items : List Node)
  | mapping (entries : List (Node × Node))
  | anchored (number : Nat) (node : Node)
  | reference (number : Nat)

namespace Node

/-- the node of a place where nothing is written -/
def empty : Node :=
  scalar .plain none ""

mutual

/-- the nodes inside a node, and itself, that carry a number, in the order in which they begin -/
def numbered : Node → List (Nat × Node)
  | scalar _ _ _ => []
  | sequence items => numberedItems items
  | mapping entries => numberedEntries entries
  | anchored number node => (number, node) :: numbered node
  | reference _ => []

def numberedItems : List Node → List (Nat × Node)
  | [] => []
  | item :: items => numbered item ++ numberedItems items

def numberedEntries : List (Node × Node) → List (Nat × Node)
  | [] => []
  | (key, value) :: entries => numbered key ++ (numbered value ++ numberedEntries entries)

end

/-- the node that a number stands for within a document -/
def target (document : Node) (number : Nat) : Node :=
  (document.numbered.reverse.lookup number).getD empty

/-- the node itself within a document: behind its number, or what an alias stands for -/
def content (node document : Node) : Node :=
  match node with
  | anchored _ inner => inner
  | reference number => document.target number
  | _ => node

end Node

end EscapeTime.Yaml
