/-
Percent-encoding and the fields of a form.

A percent sign and two hexadecimal digits stand for a byte.  A percent sign that is
not followed by two digits stands for itself.  A form is a sequence of fields between
ampersands, each with a name and a value around its first equals sign.  In both of
them a plus sign stands for a space.
-/
import Highlighter.Text.Split
import Highlighter.Text.Utf8

namespace Highlighter
namespace Preview

def hexValue? (b : UInt8) : Option UInt8 :=
  if 0x30 ≤ b ∧ b ≤ 0x39 then some (b - 0x30)
  else if 0x41 ≤ b ∧ b ≤ 0x46 then some (b - 0x37)
  else if 0x61 ≤ b ∧ b ≤ 0x66 then some (b - 0x57)
  else none

def hexByte? (high low : UInt8) : Option UInt8 :=
  (hexValue? high).bind fun h => (hexValue? low).map fun l => 16 * h + l

/-- The bytes that percent-encoded bytes stand for. -/
def percentDecode : List UInt8 → List UInt8
  | [] => []
  | [b] => [b]
  | [b, c] => [b, c]
  | b :: high :: low :: rest =>
    if b = 0x25 then
      match hexByte? high low with
      | some decoded => decoded :: percentDecode rest
      | none => b :: percentDecode (high :: low :: rest)
    else b :: percentDecode (high :: low :: rest)

namespace Form

/-- The text of the name or of the value of a field. -/
def component (bytes : List UInt8) : Text :=
  Text.decodeLossy (percentDecode (bytes.map fun b => if b = 0x2B then 0x20 else b))

def field (bytes : List UInt8) : Text × Text :=
  let parts := Text.cutFirst 0x3D bytes
  (component parts.1, component parts.2)

def parse (bytes : List UInt8) : List (Text × Text) :=
  ((Text.fields 0x26 bytes).filter (· ≠ [])).map field

/-- The value of the last field of a name. -/
def value? (form : List (Text × Text)) (name : Text) : Option Text :=
  form.reverse.lookup name

end Form
end Preview
end Highlighter
