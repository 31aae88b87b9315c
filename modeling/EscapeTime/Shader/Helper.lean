/-
The shader functions that emitted code may call.

Complex numbers are two-component vectors. The shading language has no complex product, quotient, power or elementary
functions on them, so emitted code calls nine helpers. Each helper has a signature and a self-contained definition that
opens with that signature. Lists of helpers keep the order of `Helper.all`.
-/
import EscapeTime.Expr.Basic

namespace EscapeTime

inductive Helper where
  | cmul
  | cdiv
  | cpow
  | csin
  | ccos
  | ctan
  | cexp
  | csqrt
  | clog
  deriving DecidableEq

namespace Helper

def name : Helper → String
  | cmul => "cmul"
  | cdiv => "cdiv"
  | cpow => "cpow"
  | csin => "csin"
  | ccos => "ccos"
  | ctan => "ctan"
  | cexp => "cexp"
  | csqrt => "csqrt"
  | clog => "clog"

/-- the helper's name in a JSON document -/
def tag : Helper → String
  | cmul => "Cmul"
  | cdiv => "Cdiv"
  | cpow => "Cpow"
  | csin => "Csin"
  | ccos => "Ccos"
  | ctan => "Ctan"
  | cexp => "Cexp"
  | csqrt => "Csqrt"
  | clog => "Clog"

/-- all helpers, in the order in which they are listed and defined -/
def all : List Helper :=
  [cmul, cdiv, cpow, csin, ccos, ctan, cexp, csqrt, clog]

/-- the helper of a name -/
def ofName? (name : String) : Option Helper :=
  all.find? (·.name == name)

/-- the helper takes two arguments -/
def isBinary : Helper → Bool
  | cmul | cdiv | cpow => true
  | _ => false

/-- result, name and parameters -/
def signature (h : Helper) : String :=
  "vec2 " ++ h.name ++ (if h.isBinary then "(vec2 a, vec2 b)" else "(vec2 a)")

/-- the lines of the definition, between its braces -/
def body : Helper → List String
  | cmul => ["return vec2(a.x * b.x - a.y * b.y, a.x * b.y + a.y * b.x);"]
  | cdiv =>
    ["float d = dot(b, b);",
      "return vec2(a.x * b.x + a.y * b.y, a.y * b.x - a.x * b.y) / d;"]
  | cpow =>
    ["if (a.x == 0.0 && a.y == 0.0) \x7b",
      "    return vec2(0.0);",
      "\x7d",
      "float lr = log(length(a));",
      "float t = atan(a.y, a.x);",
      "float mag = exp(b.x * lr - b.y * t);",
      "float ang = b.y * lr + b.x * t;",
      "return mag * vec2(cos(ang), sin(ang));"]
  | csin => ["return vec2(sin(a.x) * cosh(a.y), cos(a.x) * sinh(a.y));"]
  | ccos => ["return vec2(cos(a.x) * cosh(a.y), -sin(a.x) * sinh(a.y));"]
  | ctan =>
    ["float d = cos(2.0 * a.x) + cosh(2.0 * a.y);",
      "return vec2(sin(2.0 * a.x), sinh(2.0 * a.y)) / d;"]
  | cexp => ["return exp(a.x) * vec2(cos(a.y), sin(a.y));"]
  | csqrt =>
    ["float r = length(a);",
      "float s = a.y < 0.0 ? -1.0 : 1.0;",
      "return vec2(sqrt(0.5 * (r + a.x)), s * sqrt(0.5 * (r - a.x)));"]
  | clog => ["return vec2(log(length(a)), atan(a.y, a.x));"]

/-- the helper's definition: its signature and its indented lines between braces -/
def definition (h : Helper) : String :=
  h.signature ++ " \x7b\n" ++ String.join (h.body.map fun line => "    " ++ line ++ "\n") ++ "\x7d\n"

/-- the definitions of the given helpers, each once and in the order of `all`, a blank line between them -/
def definitions (helpers : List Helper) : String :=
  "\n".intercalate ((all.filter helpers.contains).map definition)

end Helper

end EscapeTime
