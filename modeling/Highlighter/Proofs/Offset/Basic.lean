/-
A cursor that counts bytes.

A `Cursor` holds its line in parts, which are always there.  An `OffsetCursor` holds the whole
line and two numbers of bytes, and has to cut the line anew whenever it looks at it.  A cut fails
inside a character, behind the end of the line, and where the two numbers are not in order.  What
it moves on by is the size of a character, the length of a lexeme or that of a given text.  All
that reads a line is written down here once more with such a cursor, down to the token of a state,
and whatever makes a cut may fail.
-/
import Highlighter.Cursor

namespace Highlighter

/-- A line with two offsets into it. -/
structure OffsetCursor where
  line : Text
  start : Nat
  position : Nat

namespace OffsetCursor

def ofLine (line : Text) : OffsetCursor := ⟨line, 0, 0⟩

def isAtEnd (c : OffsetCursor) : Bool := Text.byteLength c.line ≤ c.position

def rest? (c : OffsetCursor) : Option Text := (Text.cutAt? c.position c.line).map Prod.snd

def current? (c : OffsetCursor) : Option Text := Text.slice? c.line c.start c.position

def startToken (c : OffsetCursor) : OffsetCursor := { c with start := c.position }

def moveBy (c : OffsetCursor) (bytes : Nat) : OffsetCursor :=
  { c with position := c.position + bytes }

def skipToEnd (c : OffsetCursor) : OffsetCursor := { c with position := Text.byteLength c.line }

def peek? (c : OffsetCursor) : Option (Option Char) := c.rest?.map List.head?

def nextChar? (c : OffsetCursor) : Option (Option Char × OffsetCursor) := do
  match ← c.peek? with
  | some d => some (some d, c.moveBy d.utf8Size)
  | none => some (none, c)

theorem byteLength_line_of_rest? {c : OffsetCursor} {rest : Text} (h : c.rest? = some rest) :
    Text.byteLength c.line = c.position + Text.byteLength rest := by
  obtain ⟨⟨front, back⟩, hcut, rfl⟩ := Option.map_eq_some_iff.mp h
  obtain ⟨hline, hposition⟩ := Text.cutAt?_eq_some_iff.mp hcut
  rw [← hline, Text.byteLength_append, hposition]

theorem remaining_moveBy_lt {c : OffsetCursor} {d : Char} {rest : Text}
    (h : c.rest? = some (d :: rest)) :
    Text.byteLength (c.moveBy d.utf8Size).line - (c.moveBy d.utf8Size).position <
      Text.byteLength c.line - c.position := by
  have hlength := byteLength_line_of_rest? h
  have hpos := d.utf8Size_pos
  rw [Text.byteLength_cons] at hlength
  show Text.byteLength c.line - (c.position + d.utf8Size) < _
  omega

/-- Moves on over white space, a character at a time. -/
def skipSpace? (c : OffsetCursor) : Option OffsetCursor :=
  match h : c.rest? with
  | none => none
  | some [] => some c
  | some (d :: _) =>
    have := remaining_moveBy_lt h
    if Unicode.isWhiteSpace d then skipSpace? (c.moveBy d.utf8Size) else some c
termination_by Text.byteLength c.line - c.position

theorem skipSpace?_of_nil {c : OffsetCursor} (h : c.rest? = some []) : c.skipSpace? = some c := by
  rw [skipSpace?]
  split
  · case h_1 hnone => cases h.symm.trans hnone
  · rfl
  · case h_3 hcons => cases h.symm.trans hcons

theorem skipSpace?_of_cons {c : OffsetCursor} {d : Char} {rest : Text}
    (h : c.rest? = some (d :: rest)) :
    c.skipSpace? =
      if Unicode.isWhiteSpace d then (c.moveBy d.utf8Size).skipSpace? else some c := by
  rw [skipSpace?]
  split
  · case h_1 hnone => cases h.symm.trans hnone
  · case h_2 hnil => cases h.symm.trans hnil
  · case h_3 hcons =>
    cases h.symm.trans hcons
    rfl

def eatSpace? (c : OffsetCursor) : Option (Bool × OffsetCursor) :=
  c.skipSpace?.map fun later => (decide (c.position < later.position), later)

def eatText? (c : OffsetCursor) (t : Text) : Option (Bool × OffsetCursor) := do
  let rest ← c.rest?
  if !t.isEmpty && t.isPrefixOf rest then some (true, c.moveBy (Text.byteLength t))
  else some (false, c)

def eatLexeme? (c : OffsetCursor) (x : Lexeme) : Option (Option Text × OffsetCursor) := do
  let rest ← c.rest?
  match x.byteLength? rest with
  | some bytes =>
    let parts ← Text.cutAt? bytes rest
    some (some parts.1, c.moveBy bytes)
  | none => some (none, c)

/-- Tries lexemes one after the other, and tells what the first one that is there stands for. -/
def eatFirst? {α : Type} (c : OffsetCursor) : List (Lexeme × α) → Option (Option α × OffsetCursor)
  | [] => some (none, c)
  | (x, a) :: later => do
    match ← c.eatLexeme? x with
    | (some _, c') => some (some a, c')
    | (none, c') => c'.eatFirst? later

/-- A step of a scanner: its style and whether it was the last one, unless the scanner gives
up. -/
def scan? (c : OffsetCursor) : Scanner → Option (Option (Style × Bool) × OffsetCursor)
  | .comment syn => do
    match ← c.eatLexeme? (.commentClose syn) with
    | (some _, c') => some (some (.comment, true), c')
    | (none, c') => some (some (.comment, false), (← c'.nextChar?).2)
  | .string quote => do
    let ahead ← c.peek?
    some (some (.string, ahead == some quote), (← c.nextChar?).2)
  | .uri => do
    let found ← c.eatFirst? Scanner.uriLexemes
    some (found.1.map fun style => (style, false), found.2)

/-- Lets a scanner that has just been opened take its first step. -/
def enter? (c : OffsetCursor) (sc : Scanner) : Option (List Scanner × OffsetCursor) := do
  match ← c.scan? sc with
  | (some (_, false), c') => some ([sc], c')
  | (_, c') => some ([], c')

/-- Tries the rules of a mode in their order, and takes a character where none applies. -/
def find? (c : OffsetCursor) (m : Mode) : Option (Action × OffsetCursor) := do
  match ← c.eatFirst? (m.rules.map fun r => (r.lexeme, r.action)) with
  | (some action, c') => some (action, c')
  | (none, c') =>
    match ← c'.nextChar? with
    | (some d, c'') => some (Mode.unruled d, c'')
    | (none, c'') => some (.leave, c'')

/-- Does what an action asks for, and tells the scanners that are at work after it. -/
def act? (c : OffsetCursor) : Action → Option (List Scanner × OffsetCursor)
  | .lineComment => some ([], c.skipToEnd)
  | .openComment syn => c.enter? (.comment syn)
  | .openString quote => c.enter? (.string quote)
  | .openUri => some ([.uri], c)
  | .paint _ | .name | .latch _ | .leave => some ([], c)

/-- A token that has been taken, with the cursor at its end. -/
structure Taken where
  origin : Origin
  suspended : List Scanner
  mode : Mode
  cursor : OffsetCursor

def dispatch? (c : OffsetCursor) (m : Mode) : Option Taken := do
  let space ← c.eatSpace?
  if space.2.isAtEnd then some ⟨.blank, [], m, space.2⟩
  else
    let found ← space.2.startToken.find? m
    let performed ← found.2.act? found.1
    some ⟨.rule found.1, performed.1, (Finding.mk found.1 [] []).modeAfter m, performed.2⟩

def take? (c : OffsetCursor) (m : Mode) : List Scanner → Option Taken
  | [] => c.dispatch? m
  | sc :: around => do
    match ← c.scan? sc with
    | (some (style, closes), c') =>
      some ⟨.scanner sc style, if closes then around else sc :: around, m, c'⟩
    | (none, c') => c'.take? m around

/-- Reads the next token with offsets. -/
def next? (st : State) (c : OffsetCursor) : Option (Option Style × State × OffsetCursor) := do
  let c := c.startToken
  if c.isAtEnd then some (none, st, c)
  else
    let taken ← c.take? st.mode st.suspended
    let text ← taken.cursor.current?
    let style := taken.origin.style st.mode st.memory text
    some (style, ⟨taken.suspended, taken.mode, Memory.after st.memory style text⟩, taken.cursor)

end OffsetCursor
end Highlighter
