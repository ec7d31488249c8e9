/-
A cursor on a line, for reading it by hand.

A cursor stands at a position of a line and knows where the token that is being
read began.  It holds the line in three parts: what precedes the token, the token
so far, and what follows.  The first two are kept in reverse, so that moving on by
a character takes the same time wherever the cursor stands.  The two positions are
the lengths of these parts, and so they are always ends of characters and in
order.
-/
import Highlighter.State

namespace Highlighter

/-- A position on a line, and the beginning of the token there. -/
structure Cursor where
  before : Text
  token : Text
  rest : Text

namespace Cursor

def ofLine (line : Text) : Cursor := ⟨[], [], line⟩

def line (c : Cursor) : Text := c.before.reverse ++ c.token.reverse ++ c.rest

/-- The offset at which the token begins. -/
def start (c : Cursor) : Nat := Text.byteLength c.before

def position (c : Cursor) : Nat := Text.byteLength c.before + Text.byteLength c.token

def current (c : Cursor) : Text := c.token.reverse

def isAtEnd (c : Cursor) : Bool := c.rest.isEmpty

def peek? (c : Cursor) : Option Char := c.rest.head?

/-- Begins a new token at the position. -/
def startToken (c : Cursor) : Cursor := ⟨c.token ++ c.before, [], c.rest⟩

/-- Moves on over a text, to the rest that follows it. -/
def advance (c : Cursor) (taken rest : Text) : Cursor :=
  ⟨c.before, taken.reverse ++ c.token, rest⟩

def nextChar (c : Cursor) : Option Char × Cursor :=
  match c.rest with
  | [] => (none, c)
  | d :: rest => (some d, c.advance [d] rest)

/-- Moves on over white space, and tells whether there was any. -/
def eatSpace (c : Cursor) : Bool × Cursor :=
  let space := c.rest.takeWhile Unicode.isWhiteSpace
  (!space.isEmpty, c.advance space (c.rest.dropWhile Unicode.isWhiteSpace))

/-- Moves on over a given text, if it follows and is not empty. -/
def eatText (c : Cursor) (t : Text) : Bool × Cursor :=
  if !t.isEmpty && t.isPrefixOf c.rest then (true, c.advance t (c.rest.drop t.length))
  else (false, c)

def eatLexeme (c : Cursor) (x : Lexeme) : Option Text × Cursor :=
  match x.split? c.rest with
  | some (taken, rest) => (some taken, c.advance taken rest)
  | none => (none, c)

def skipToEnd (c : Cursor) : Cursor := c.advance c.rest []

/-- Reads the next token and leaves the cursor at its end.  At the end of the line
there is none, and the state stays as it is. -/
def next (st : State) (c : Cursor) : Option Style × State × Cursor :=
  if c.isAtEnd then (none, st, c.startToken)
  else
    let r := st.read c.rest
    let skipped := (c.startToken.advance r.token.gap (r.token.text ++ r.rest)).startToken
    (r.token.style, r.state, skipped.advance r.token.text r.rest)

theorem line_advance {c : Cursor} {taken rest : Text} (h : taken ++ rest = c.rest) :
    (c.advance taken rest).line = c.line := by
  simp [line, advance, ← h]

@[simp] theorem line_startToken (c : Cursor) : c.startToken.line = c.line := by
  simp [line, startToken]

/-- The token of a cursor is the part of its line between its two positions. -/
theorem slice?_line (c : Cursor) :
    Text.slice? c.line c.start c.position = some c.current :=
  Text.slice?_eq_some_iff.mpr
    ⟨c.before.reverse, c.rest, rfl, Text.byteLength_reverse _, by simp [start, position, current]⟩

theorem line_next (st : State) (c : Cursor) : (next st c).2.2.line = c.line := by
  unfold next
  split
  · exact line_startToken c
  · have happ : (st.read c.rest).token.gap ++ ((st.read c.rest).token.text ++ (st.read c.rest).rest)
        = c.startToken.rest := by
      rw [← List.append_assoc]
      exact st.read_append c.rest
    rw [line_advance rfl, line_startToken, line_advance happ, line_startToken]

end Cursor
end Highlighter
