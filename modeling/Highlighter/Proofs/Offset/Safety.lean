/-
Whatever is asked of a cursor.

Operations follow one another in any order, with tokens read in any states between them.  Each
one leaves the cursor on its line and moves it forward only (`Cursor.perform_movedOn`); one that
fails leaves it where it is (`Cursor.perform_of_failure`), and one that gives a text has moved it
over that text (`Cursor.perform_of_text?`).  The same operations can be performed with offsets,
and none of them fails (`OffsetCursor.performAll?_ofCursor`).
-/
import Highlighter.Proofs.Machine.Refinement
import Highlighter.Proofs.Offset.Refinement
import Highlighter.Text.Utf8

namespace Highlighter
namespace Cursor

/-- What can be asked of a cursor.  A token may be read in any state. -/
inductive Operation where
  | eatSpace
  | eatLexeme (x : Lexeme)
  | eatText (t : Text)
  | nextChar
  | peek
  | startToken
  | skipToEnd
  | next (st : State)

inductive Answer where
  | done
  | told (b : Bool)
  | taken (t : Option Text)
  | passed (d : Option Char)
  | ahead (d : Option Char)
  | token (style : Option Style) (state : State)

namespace Answer

/-- Whether the operation did not find what it was to move on over. -/
def isFailure : Answer → Bool
  | told b => !b
  | taken t => t.isNone
  | passed d => d.isNone
  | done | ahead _ | token _ _ => false

/-- The text that the operation says it has moved on over. -/
def text? : Answer → Option Text
  | taken t => t
  | passed d => d.map ([·])
  | done | told _ | ahead _ | token _ _ => none

end Answer

def perform (c : Cursor) : Operation → Answer × Cursor
  | .eatSpace => (.told c.eatSpace.1, c.eatSpace.2)
  | .eatLexeme x => (.taken (c.eatLexeme x).1, (c.eatLexeme x).2)
  | .eatText t => (.told (c.eatText t).1, (c.eatText t).2)
  | .nextChar => (.passed c.nextChar.1, c.nextChar.2)
  | .peek => (.ahead c.peek?, c)
  | .startToken => (.done, c.startToken)
  | .skipToEnd => (.done, c.skipToEnd)
  | .next st => (.token (next st c).1 (next st c).2.1, (next st c).2.2)

/-- Performs operations one after the other, and collects their answers. -/
def performAll (c : Cursor) : List Operation → List Answer × Cursor
  | [] => ([], c)
  | op :: later =>
    let performed := (c.perform op).2.performAll later
    ((c.perform op).1 :: performed.1, performed.2)

end Cursor

namespace OffsetCursor

/-- Performs an operation with offsets. -/
def perform? (c : OffsetCursor) : Cursor.Operation → Option (Cursor.Answer × OffsetCursor)
  | .eatSpace => c.eatSpace?.map fun r => (.told r.1, r.2)
  | .eatLexeme x => (c.eatLexeme? x).map fun r => (.taken r.1, r.2)
  | .eatText t => (c.eatText? t).map fun r => (.told r.1, r.2)
  | .nextChar => c.nextChar?.map fun r => (.passed r.1, r.2)
  | .peek => c.peek?.map fun d => (.ahead d, c)
  | .startToken => some (.done, c.startToken)
  | .skipToEnd => some (.done, c.skipToEnd)
  | .next st => (c.next? st).map fun r => (.token r.1 r.2.1, r.2.2)

def performAll? (c : OffsetCursor) :
    List Cursor.Operation → Option (List Cursor.Answer × OffsetCursor)
  | [] => some ([], c)
  | op :: later => do
    let answered ← c.perform? op
    let others ← answered.2.performAll? later
    some (answered.1 :: others.1, others.2)

theorem perform?_ofCursor (c : Cursor) (op : Cursor.Operation) :
    (ofCursor c).perform? op = some ((c.perform op).1, ofCursor (c.perform op).2) := by
  cases op with
  | eatSpace => rw [perform?, eatSpace?_ofCursor]; rfl
  | eatLexeme x => rw [perform?, eatLexeme?_ofCursor]; rfl
  | eatText t => rw [perform?, eatText?_ofCursor]; rfl
  | nextChar => rw [perform?, nextChar?_ofCursor]; rfl
  | peek => rw [perform?, peek?_ofCursor]; rfl
  | startToken => rw [perform?, startToken_ofCursor]; rfl
  | skipToEnd => rw [perform?, skipToEnd_ofCursor]; rfl
  | next st => rw [perform?, next?_ofCursor]; rfl

/-- Operations with offsets do not fail, and give what the cursor gives. -/
theorem performAll?_ofCursor (c : Cursor) (ops : List Cursor.Operation) :
    (ofCursor c).performAll? ops = some ((c.performAll ops).1, ofCursor (c.performAll ops).2) := by
  induction ops generalizing c with
  | nil => rfl
  | cons op later ih =>
    rw [performAll?, perform?_ofCursor, Option.bind_eq_bind, Option.bind_some, ih]
    rfl

end OffsetCursor

namespace Cursor

/-- Whether a cursor stands on the same line as another one, at its position or behind it. -/
structure MovedOn (later c : Cursor) : Prop where
  line : later.line = c.line
  follows : later.Follows c

theorem MovedOn.refl (c : Cursor) : c.MovedOn c := ⟨rfl, .refl c⟩

theorem MovedOn.advance {c : Cursor} {taken rest : Text} (h : taken ++ rest = c.rest) :
    (c.advance taken rest).MovedOn c :=
  ⟨line_advance h, advance_follows h⟩

theorem MovedOn.position_le {later c : Cursor} (h : later.MovedOn c) :
    c.position ≤ later.position := by
  obtain ⟨taken, -, hposition⟩ := h.follows
  omega

/-! ## What an operation can do -/

theorem eatSpace_cases (c : Cursor) :
    c.eatSpace = (false, c) ∨
      ∃ t rest, t ++ rest = c.rest ∧ c.eatSpace = (true, c.advance t rest) := by
  have happ := List.takeWhile_append_dropWhile (p := Unicode.isWhiteSpace) (l := c.rest)
  by_cases hnone : c.rest.takeWhile Unicode.isWhiteSpace = []
  · rw [hnone, List.nil_append] at happ
    refine Or.inl ?_
    rw [eatSpace, hnone, happ]
    rfl
  · refine Or.inr ⟨_, _, happ, ?_⟩
    simp [eatSpace, hnone]

theorem eatLexeme_cases (c : Cursor) (x : Lexeme) :
    c.eatLexeme x = (none, c) ∨
      ∃ t rest, t ≠ [] ∧ t ++ rest = c.rest ∧ c.eatLexeme x = (some t, c.advance t rest) := by
  rw [eatLexeme]
  cases hsplit : x.split? c.rest with
  | none => exact Or.inl rfl
  | some parts =>
    exact Or.inr ⟨parts.1, parts.2, Lexeme.split?_ne_nil hsplit, Lexeme.split?_append hsplit, rfl⟩

theorem eatText_cases (c : Cursor) (t : Text) :
    c.eatText t = (false, c) ∨
      ∃ rest, t ++ rest = c.rest ∧ c.eatText t = (true, c.advance t rest) := by
  rw [eatText]
  by_cases hahead : (!t.isEmpty && t.isPrefixOf c.rest) = true
  · rw [if_pos hahead]
    exact Or.inr ⟨_, append_drop_of_ahead hahead, rfl⟩
  · rw [if_neg hahead]
    exact Or.inl rfl

theorem nextChar_cases (c : Cursor) :
    c.nextChar = (none, c) ∨
      ∃ d rest, [d] ++ rest = c.rest ∧ c.nextChar = (some d, c.advance [d] rest) := by
  rw [nextChar]
  cases c.rest with
  | nil => exact Or.inl rfl
  | cons d rest => exact Or.inr ⟨d, rest, rfl, rfl⟩

theorem perform_movedOn (c : Cursor) (op : Operation) : (c.perform op).2.MovedOn c := by
  cases op with
  | eatSpace => exact .advance List.takeWhile_append_dropWhile
  | eatLexeme x =>
    show (c.eatLexeme x).2.MovedOn c
    rcases c.eatLexeme_cases x with hnone | ⟨t, rest, -, happ, hsome⟩
    · rw [hnone]
      exact .refl c
    · rw [hsome]
      exact .advance happ
  | eatText t =>
    show (c.eatText t).2.MovedOn c
    rcases c.eatText_cases t with hfalse | ⟨rest, happ, htrue⟩
    · rw [hfalse]
      exact .refl c
    · rw [htrue]
      exact .advance happ
  | nextChar =>
    show c.nextChar.2.MovedOn c
    rw [nextChar_eq_advance]
    exact .advance (List.take_append_drop 1 c.rest)
  | peek => exact .refl c
  | startToken => exact ⟨c.line_startToken, c.startToken_follows⟩
  | skipToEnd => exact .advance (List.append_nil _)
  | next st => exact ⟨line_next st c, Machine.next_follows (Machine.next_ofState st c)⟩

theorem line_performAll (c : Cursor) (ops : List Operation) :
    (c.performAll ops).2.line = c.line := by
  induction ops generalizing c with
  | nil => rfl
  | cons op later ih => exact (ih (c.perform op).2).trans (c.perform_movedOn op).line

/-- An operation that fails leaves the cursor where it is. -/
theorem perform_of_failure {c : Cursor} {op : Operation}
    (h : (c.perform op).1.isFailure = true) : (c.perform op).2 = c := by
  cases op with
  | eatSpace =>
    rcases c.eatSpace_cases with hfalse | ⟨t, rest, -, htrue⟩
    · exact congrArg Prod.snd hfalse
    · rw [perform, htrue] at h
      cases h
  | eatLexeme x =>
    rcases c.eatLexeme_cases x with hnone | ⟨t, rest, -, -, hsome⟩
    · exact congrArg Prod.snd hnone
    · rw [perform, hsome] at h
      cases h
  | eatText t =>
    rcases c.eatText_cases t with hfalse | ⟨rest, -, htrue⟩
    · exact congrArg Prod.snd hfalse
    · rw [perform, htrue] at h
      cases h
  | nextChar =>
    rcases c.nextChar_cases with hnone | ⟨d, rest, -, hsome⟩
    · exact congrArg Prod.snd hnone
    · rw [perform, hsome] at h
      cases h
  | _ => cases h

/-- An operation that gives a text has moved the cursor over that text. -/
theorem perform_of_text? {c : Cursor} {op : Operation} {t : Text}
    (h : (c.perform op).1.text? = some t) :
    t ≠ [] ∧ ∃ rest, t ++ rest = c.rest ∧ (c.perform op).2 = c.advance t rest := by
  cases op with
  | eatLexeme x =>
    rcases c.eatLexeme_cases x with hnone | ⟨taken, rest, hne, happ, hsome⟩
    · rw [perform, hnone] at h
      cases h
    · rw [perform, hsome] at h ⊢
      obtain rfl := Option.some.inj h
      exact ⟨hne, rest, happ, rfl⟩
  | nextChar =>
    rcases c.nextChar_cases with hnone | ⟨d, rest, happ, hsome⟩
    · rw [perform, hnone] at h
      cases h
    · rw [perform, hsome] at h ⊢
      obtain rfl := Option.some.inj h
      exact ⟨List.cons_ne_nil d [], rest, happ, rfl⟩
  | _ => cases h

theorem slice?_advance {c : Cursor} {taken rest : Text} (h : taken ++ rest = c.rest) :
    Text.slice? c.line c.position (c.advance taken rest).position = some taken := by
  obtain ⟨hline, hposition⟩ := Text.cutAt?_eq_some_iff.mp c.cutAt?_position
  refine Text.slice?_eq_some_iff.mpr ⟨_, rest, ?_, hposition, (c.position_advance _ _).symm⟩
  rw [List.append_assoc, h, hline]

/-- Whether both positions of a cursor are ends of characters of a line and in order, so that
nothing that is cut there fails. -/
structure StandsOn (c : Cursor) (line : Text) : Prop where
  ordered : c.start ≤ c.position
  inside : c.position ≤ Text.byteLength line
  start : ∃ front back, Text.cutAt? c.start line = some (front, back)
  rest : ∃ front, Text.cutAt? c.position line = some (front, c.rest)
  current : Text.slice? line c.start c.position = some c.current

theorem standsOn_line (c : Cursor) : c.StandsOn c.line where
  ordered := Nat.le_add_right _ _
  inside := by
    rw [c.byteLength_line]
    exact Nat.le_add_right _ _
  start := by
    refine ⟨c.before.reverse, c.token.reverse ++ c.rest, Text.cutAt?_eq_some_iff.mpr ⟨?_, ?_⟩⟩
    · exact (List.append_assoc _ _ _).symm
    · exact Text.byteLength_reverse _
  rest := ⟨_, c.cutAt?_position⟩
  current := c.slice?_line

/-- Whether an operation moves a cursor forward only, leaves it where it is if it fails, and
moves it over just those bytes of the line that it gives. -/
structure MovesOver (c : Cursor) (line : Text) (op : Operation) : Prop where
  forward : c.position ≤ (c.perform op).2.position
  failed : (c.perform op).1.isFailure = true → (c.perform op).2 = c
  taken : ∀ t, (c.perform op).1.text? = some t → t ≠ [] ∧
    Text.slice? line c.position (c.perform op).2.position = some t ∧
    Text.encode t = (Text.encode line).extract c.position (c.perform op).2.position

theorem movesOver_line (c : Cursor) (op : Operation) : c.MovesOver c.line op where
  forward := (c.perform_movedOn op).position_le
  failed := perform_of_failure
  taken := by
    intro t ht
    obtain ⟨hne, rest, happ, hmoved⟩ := perform_of_text? ht
    have hslice := slice?_advance happ
    rw [← hmoved] at hslice
    exact ⟨hne, hslice, Text.encode_of_slice? hslice⟩

/-- Whatever is asked of a cursor from the beginning of a line, its positions are ends of
characters of the line and in order.  What is asked of it next moves it forward only, leaves it
where it is if it fails, and moves it over the bytes that it gives.  All of it can be done by
counting bytes, with no cut that fails. -/
theorem operations_safe (line : Text) (ops : List Operation) :
    ((ofLine line).performAll ops).2.StandsOn line ∧
      (∀ op, ((ofLine line).performAll ops).2.MovesOver line op) ∧
      (OffsetCursor.ofLine line).performAll? ops =
        some (((ofLine line).performAll ops).1,
          OffsetCursor.ofCursor ((ofLine line).performAll ops).2) := by
  have hline : ((ofLine line).performAll ops).2.line = line := (ofLine line).line_performAll ops
  have hstands := ((ofLine line).performAll ops).2.standsOn_line
  have hmoves := ((ofLine line).performAll ops).2.movesOver_line
  rw [hline] at hstands hmoves
  exact ⟨hstands, hmoves, OffsetCursor.performAll?_ofCursor (ofLine line) ops⟩

end Cursor
end Highlighter
