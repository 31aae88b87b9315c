/-
Quoted text.

- `quoteJson` is the JSON string form: quotation mark, backslash and control characters are escaped, everything else
  stands as it is.
- `quote` is the form in log lines: also everything that would not show as itself is escaped.
- `terminalSafe` leaves a text unquoted but escapes the control characters that steer a terminal.
-/
import EscapeTime.Text.Visible

namespace EscapeTime.Text

/-- lower-case hexadecimal digits, without leading zeros -/
def hexDigits (n : Nat) : List Char :=
  Nat.toDigits 16 n

/-- how a character is written between JSON quotation marks -/
def jsonChar (c : Char) : List Char :=
  if c == '"' then ['\\', '"']
  else if c == '\\' then ['\\', '\\']
  else if c == '\n' then ['\\', 'n']
  else if c == '\r' then ['\\', 'r']
  else if c == '\t' then ['\\', 't']
  else if c == '\x08' then ['\\', 'b']
  else if c == '\x0c' then ['\\', 'f']
  else if c.toNat < 16 then '\\' :: 'u' :: '0' :: '0' :: '0' :: hexDigits c.toNat
  else if c.toNat < 32 then '\\' :: 'u' :: '0' :: '0' :: hexDigits c.toNat
  else [c]

/-- the text as a JSON string -/
def quoteJson (text : String) : String :=
  String.ofList ('"' :: text.toList.flatMap jsonChar ++ ['"'])

/-- a character by its code -/
def codeEscape (c : Char) : List Char :=
  '\\' :: 'u' :: '\x7b' :: hexDigits c.toNat ++ ['\x7d']

/-- how a character is written between the quotation marks of a log line -/
def quotedChar (c : Char) : List Char :=
  if c == '"' then ['\\', '"']
  else if c == '\\' then ['\\', '\\']
  else if c == '\n' then ['\\', 'n']
  else if c == '\r' then ['\\', 'r']
  else if c == '\t' then ['\\', 't']
  else if c == '\x00' then ['\\', '0']
  else if showsAsItself c then [c]
  else codeEscape c

/-- the text in quotation marks, everything visible -/
def quote (text : String) : String :=
  String.ofList ('"' :: text.toList.flatMap quotedChar ++ ['"'])

/-- a control character that steers a terminal as an escape -/
def terminalChar (c : Char) : List Char :=
  let n := c.toNat
  if n == 0x07 || n == 0x08 || n == 0x0c || n == 0x1b || n == 0x7f then
    '\\' :: 'x' :: (if n < 16 then '0' :: hexDigits n else hexDigits n)
  else if 0x80 ≤ n && n ≤ 0x9f then codeEscape c
  else [c]

/-- the text without control characters that steer a terminal -/
def terminalSafe (text : String) : String :=
  String.ofList (text.toList.flatMap terminalChar)

end EscapeTime.Text
