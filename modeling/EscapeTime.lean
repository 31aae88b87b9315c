import EscapeTime.Main
import EscapeTime.Session
import EscapeTime.Expr.Json
import EscapeTime.Proofs.Grammar.Derivation
import EscapeTime.Proofs.Grammar.Recognition
import EscapeTime.Proofs.Grammar.Acceptance
import EscapeTime.Proofs.Number.Rounding
import EscapeTime.Proofs.Number.Numeral
import EscapeTime.Proofs.Token.Spelling
import EscapeTime.Proofs.Token.Concatenation
import EscapeTime.Proofs.Expr.Nodes
import EscapeTime.Proofs.Expr.RoundTrip
import EscapeTime.Proofs.Warning.FalseAlarm
import EscapeTime.Proofs.Text.Occurrence
import EscapeTime.Proofs.Shader.Readability
import EscapeTime.Proofs.Shader.Calls
import EscapeTime.Proofs.Shader.Vocabulary
import EscapeTime.Proofs.Compiler.Shown
import EscapeTime.Proofs.Compiler.Completion
import EscapeTime.Proofs.FailureLog.Window
import EscapeTime.Proofs.Session.History
import EscapeTime.Proofs.Compiler.Grouping
import EscapeTime.Proofs.Shader.Expansion
import EscapeTime.Proofs.Token.Tiling
import EscapeTime.Proofs.Grammar.Blame
import EscapeTime.Proofs.Number.Range
import EscapeTime.Proofs.Token.Locality
import EscapeTime.Proofs.Shader.Splicing
import EscapeTime.Proofs.Token.Failure
import EscapeTime.Proofs.Shader.Fragment
import EscapeTime.Proofs.Warning.Parentheses
import EscapeTime.Proofs.Warning.Checks
import EscapeTime.Proofs.Warning.Partners
import EscapeTime.Proofs.Grammar.Nesting
import EscapeTime.Proofs.Grammar.Position
import EscapeTime.Proofs.Grammar.Stream
import EscapeTime.Proofs.Grammar.Descent
import EscapeTime.Proofs.Shader.Operand
import EscapeTime.Proofs.Shader.Size
import EscapeTime.Proofs.Shader.Binding
import EscapeTime.Proofs.Compiler.Bounds
import EscapeTime.Proofs.Calls
import EscapeTime.Proofs.Token.Settling
import EscapeTime.Proofs.Grammar.Depth
import EscapeTime.Proofs.Shader.Literal
import EscapeTime.Proofs.Shader.Power
