/-
Tokens of a YAML text.

Indentation shows in the tokens: a block sequence or mapping has a token where it begins and one where it ends, and
every key has a token in front of it.
-/
import EscapeTime.Yaml.BlockScalar
import EscapeTime.Yaml.Tag

namespace EscapeTime.Yaml

inductive Token where
  | directive (directive : Directive)
  | documentStart
  | documentEnd
  | blockSequenceStart
  | blockMappingStart
  | blockEnd
  | flowSequenceStart
  | flowSequenceEnd
  | flowMappingStart
  | flowMappingEnd
  | blockEntry
  | flowEntry
  | key
  | value
  | reference (name : String)
  | anchor (name : String)
  | tag (tag : Tag)
  | scalar (style : Style) (text : String)
  deriving DecidableEq

end EscapeTime.Yaml
