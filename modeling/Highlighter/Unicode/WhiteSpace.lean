/-
The characters with the property White_Space: the ones that are skipped between
tokens.  A line break is among them, so that a line which holds one is still read
to its end.
-/
import Highlighter.Unicode.RangeTable

namespace Highlighter
namespace Unicode

def whiteSpaceTable : RangeTable :=
  [(0x9, 0xD), (0x20, 0x20), (0x85, 0x85), (0xA0, 0xA0), (0x1680, 0x1680), (0x2000, 0x200A),
    (0x2028, 0x2029), (0x202F, 0x202F), (0x205F, 0x205F), (0x3000, 0x3000)]

/-- The table of White_Space is in order, so that a search in it may stop early. -/
theorem whiteSpaceTable_ascending : whiteSpaceTable.ascending = true := by decide

def isWhiteSpace (c : Char) : Bool := whiteSpaceTable.contains c.toNat

end Unicode
end Highlighter
