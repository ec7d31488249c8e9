/-
Spans: ranges of a line with a style.

A span is given by the offsets of its two ends.  `Span.text?` finds its text on a
line, and fails where the offsets are not ends of characters of that line in this
order.  Comments and strings are read a character at a time, and `mergeAdjacent`
joins spans of the same style that touch.
-/
import Highlighter.Style

namespace Highlighter

/-- A range of a line, in bytes, with a style. -/
structure Span where
  start : Nat
  stop : Nat
  style : Option Style
deriving DecidableEq, Repr

namespace Span

def text? (line : Text) (s : Span) : Option Text := Text.slice? line s.start s.stop

/-- Whether a span can be joined to the one before it. -/
def continues (last next : Span) : Bool := last.stop == next.start && last.style == next.style

/-- Joins spans to a first one and to one another as long as they touch. -/
def mergeFrom (last : Span) : List Span → List Span
  | [] => [last]
  | next :: rest =>
    if continues last next then mergeFrom { last with stop := next.stop } rest
    else last :: mergeFrom next rest

/-- Joins neighbouring spans of the same style that touch. -/
def mergeAdjacent : List Span → List Span
  | [] => []
  | first :: rest => mergeFrom first rest

theorem head?_mergeFrom (last : Span) (spans : List Span) :
    ∃ stop, (mergeFrom last spans).head? = some { last with stop := stop } := by
  induction spans generalizing last with
  | nil => exact ⟨last.stop, rfl⟩
  | cons next rest ih =>
    rw [mergeFrom]
    split
    · exact ih { last with stop := next.stop }
    · exact ⟨last.stop, rfl⟩

end Span
end Highlighter
