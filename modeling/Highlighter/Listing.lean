/-
Listings: what is reported of a document, as a table.

A listing has a row for every fragment, with the number of its line, the offsets of
its two ends, the name of its style and its text.  Lines are counted from one, and
a fragment without a style has `none` in the place of the name.
-/
import Highlighter.Document

namespace Highlighter
namespace Listing

def decimal (n : Nat) : Text := Nat.toDigits 10 n

def styleName (s : Option Style) : Text := s.elim "none".toList Style.name

def row (number : Nat) (f : Fragment) : Text :=
  decimal number ++ [':'] ++ decimal f.start ++ ['-'] ++ decimal f.stop ++ ['\t'] ++
    styleName f.style ++ ['\t'] ++ f.text ++ ['\n']

/-- The rows of lines that are counted from a number on. -/
def rowsFrom (number : Nat) : List HighlightedLine → Text
  | [] => []
  | l :: rest => l.fragments.flatMap (row number) ++ rowsFrom (number + 1) rest

def ofDocument (s : Text) : Text := rowsFrom 1 (highlight s)

end Listing
end Highlighter
