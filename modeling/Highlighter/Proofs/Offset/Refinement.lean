/-
Counting bytes comes to the same.

The offsets of a `Cursor` are the lengths of its parts, so that it cuts its line in front of its
rest (`Cursor.cutAt?_position`).  From such offsets no cut fails, and each operation gives what
the cursor gives and comes to the offsets of the cursor behind it.  This goes step by step: over
characters and lexemes, the steps of a scanner, what a rule has found (`act?_ofCursor`), and
the token that a state reads (`next?_ofCursor`).
-/
import Highlighter.Proofs.Cursor
import Highlighter.Proofs.Offset.Basic

namespace Highlighter
namespace Cursor

/-- A cursor cuts its line in front of its rest. -/
theorem cutAt?_position (c : Cursor) :
    Text.cutAt? c.position c.line = some (c.before.reverse ++ c.token.reverse, c.rest) := by
  refine Text.cutAt?_eq_some_iff.mpr ⟨rfl, ?_⟩
  rw [Text.byteLength_append, Text.byteLength_reverse, Text.byteLength_reverse]
  rfl

theorem byteLength_line (c : Cursor) :
    Text.byteLength c.line = c.position + Text.byteLength c.rest := by
  obtain ⟨hline, hposition⟩ := Text.cutAt?_eq_some_iff.mp c.cutAt?_position
  rw [← hposition, ← Text.byteLength_append, hline]

theorem eatSpace_of_space {c : Cursor} {d : Char} {rest : Text} (h : c.rest = d :: rest)
    (hd : Unicode.isWhiteSpace d = true) : c.eatSpace.2 = (c.advance [d] rest).eatSpace.2 := by
  have hrest : (c.advance [d] rest).rest = rest := rfl
  rw [eatSpace, eatSpace, h, hrest, advance_advance, List.takeWhile_cons_of_pos hd,
    List.dropWhile_cons_of_pos hd]
  rfl

theorem eatSpace_of_not_space {c : Cursor} (h : ∀ d ∈ c.rest.head?, Unicode.isWhiteSpace d = false) :
    c.eatSpace = (false, c) := by
  obtain ⟨before, token, rest⟩ := c
  cases rest with
  | nil => rfl
  | cons d rest =>
    have hd : ¬ Unicode.isWhiteSpace d = true := by
      rw [h d rfl]
      decide
    rw [eatSpace, List.takeWhile_cons_of_neg hd, List.dropWhile_cons_of_neg hd]
    rfl

theorem append_drop_of_ahead {t s : Text} (h : (!t.isEmpty && t.isPrefixOf s) = true) :
    t ++ s.drop t.length = s := by
  obtain ⟨rest, rfl⟩ := List.isPrefixOf_iff_prefix.mp (Bool.and_eq_true_iff.mp h).2
  rw [List.drop_left]

theorem nextChar_eq_advance (c : Cursor) :
    c.nextChar.2 = c.advance (c.rest.take 1) (c.rest.drop 1) := by
  obtain ⟨before, token, rest⟩ := c
  cases rest with
  | nil => rfl
  | cons d rest => rfl

end Cursor

/-- The first of some lexemes that a text begins with, and its two parts. -/
def Lexeme.splitFirst? {α : Type} (choices : List (Lexeme × α)) (s : Text) :
    Option (α × Text × Text) :=
  choices.findSome? fun (x, a) => (x.split? s).map (a, ·)

theorem Scanner.step_uri (s : Text) :
    uri.step s = (Lexeme.splitFirst? uriLexemes s).map
      fun (style, taken, rest) => ⟨style, taken, rest, false⟩ := by
  rw [Lexeme.splitFirst?, List.map_findSome?, step]
  simp [Function.comp_def]

theorem Rule.findSome?_find? (rules : List Rule) (s : Text) :
    rules.findSome? (·.find? s) =
      (Lexeme.splitFirst? (rules.map fun r => (r.lexeme, r.action)) s).map
        fun (action, taken, rest) => ⟨action, taken, rest⟩ := by
  rw [Lexeme.splitFirst?, List.map_findSome?, List.findSome?_map]
  simp [find?, Function.comp_def]

namespace OffsetCursor

def ofCursor (c : Cursor) : OffsetCursor := ⟨c.line, c.start, c.position⟩

variable (c : Cursor)

@[simp] theorem rest?_ofCursor : (ofCursor c).rest? = some c.rest := by
  show (Text.cutAt? c.position c.line).map Prod.snd = some c.rest
  rw [c.cutAt?_position]
  rfl

@[simp] theorem current?_ofCursor : (ofCursor c).current? = some c.current := c.slice?_line

@[simp] theorem peek?_ofCursor : (ofCursor c).peek? = some c.peek? := by
  rw [peek?, rest?_ofCursor]
  rfl

@[simp] theorem isAtEnd_ofCursor : (ofCursor c).isAtEnd = c.isAtEnd := by
  have hlength := c.byteLength_line
  have hzero := Text.byteLength_eq_zero_iff (s := c.rest)
  show decide (Text.byteLength c.line ≤ c.position) = c.rest.isEmpty
  rw [Bool.eq_iff_iff, decide_eq_true_iff, List.isEmpty_iff, ← hzero]
  omega

theorem startToken_ofCursor : (ofCursor c).startToken = ofCursor c.startToken := by
  have hstart : c.startToken.start = c.position := by
    rw [Cursor.startToken, Cursor.start, Text.byteLength_append, Nat.add_comm]
    rfl
  rw [ofCursor, ofCursor, Cursor.line_startToken, Cursor.position_startToken, hstart]
  rfl

theorem moveBy_ofCursor {taken rest : Text} (h : taken ++ rest = c.rest) :
    (ofCursor c).moveBy (Text.byteLength taken) = ofCursor (c.advance taken rest) := by
  rw [ofCursor, ofCursor, Cursor.line_advance h, Cursor.position_advance]
  rfl

theorem skipToEnd_ofCursor : (ofCursor c).skipToEnd = ofCursor c.skipToEnd := by
  rw [ofCursor, ofCursor, Cursor.skipToEnd, Cursor.line_advance (List.append_nil _),
    Cursor.position_advance, ← c.byteLength_line]
  rfl

theorem nextChar?_ofCursor :
    (ofCursor c).nextChar? = some (c.nextChar.1, ofCursor c.nextChar.2) := by
  rw [nextChar?, peek?_ofCursor, Cursor.peek?, Cursor.nextChar]
  cases hrest : c.rest with
  | nil => rfl
  | cons d rest =>
    have happ : [d] ++ rest = c.rest := hrest.symm
    rw [← moveBy_ofCursor c happ]
    rfl

theorem skipSpace?_ofCursor : (ofCursor c).skipSpace? = some (ofCursor c.eatSpace.2) := by
  induction hrest : c.rest generalizing c with
  | nil =>
    have hempty : ∀ d ∈ c.rest.head?, Unicode.isWhiteSpace d = false := by simp [hrest]
    rw [skipSpace?_of_nil (by rw [rest?_ofCursor, hrest]), Cursor.eatSpace_of_not_space hempty]
  | cons d rest ih =>
    rw [skipSpace?_of_cons (by rw [rest?_ofCursor, hrest])]
    by_cases hd : Unicode.isWhiteSpace d = true
    · have happ : [d] ++ rest = c.rest := hrest.symm
      rw [if_pos hd, Cursor.eatSpace_of_space hrest hd, ← ih (c.advance [d] rest) rfl,
        ← moveBy_ofCursor c happ]
      rfl
    · have hhead : ∀ e ∈ c.rest.head?, Unicode.isWhiteSpace e = false := by
        rw [hrest]
        rintro e ⟨⟩
        exact Bool.eq_false_iff.mpr hd
      rw [if_neg hd, Cursor.eatSpace_of_not_space hhead]

theorem eatSpace?_ofCursor :
    (ofCursor c).eatSpace? = some (c.eatSpace.1, ofCursor c.eatSpace.2) := by
  have hmoved : c.eatSpace.2.position =
      c.position + Text.byteLength (c.rest.takeWhile Unicode.isWhiteSpace) :=
    c.position_advance _ _
  have hzero := Text.byteLength_eq_zero_iff (s := c.rest.takeWhile Unicode.isWhiteSpace)
  have hflag : decide (c.position < c.eatSpace.2.position) = c.eatSpace.1 := by
    rw [hmoved]
    show _ = !(c.rest.takeWhile Unicode.isWhiteSpace).isEmpty
    rw [Bool.eq_iff_iff, decide_eq_true_iff, Bool.not_eq_true', List.isEmpty_eq_false_iff,
      ne_eq, ← hzero]
    omega
  rw [eatSpace?, skipSpace?_ofCursor, ← hflag]
  rfl

theorem eatText?_ofCursor (t : Text) :
    (ofCursor c).eatText? t = some ((c.eatText t).1, ofCursor (c.eatText t).2) := by
  rw [eatText?, rest?_ofCursor, Option.bind_eq_bind, Option.bind_some, Cursor.eatText]
  by_cases hahead : (!t.isEmpty && t.isPrefixOf c.rest) = true
  · rw [if_pos hahead, if_pos hahead, ← moveBy_ofCursor c (Cursor.append_drop_of_ahead hahead)]
  · rw [if_neg hahead, if_neg hahead]

theorem eatLexeme?_of_split? {x : Lexeme} {taken rest : Text}
    (h : x.split? c.rest = some (taken, rest)) :
    (ofCursor c).eatLexeme? x = some (some taken, ofCursor (c.advance taken rest)) := by
  have happ := Lexeme.split?_append h
  have hcut := Text.cutAt?_eq_some_iff.mpr ⟨happ, rfl⟩
  rw [← moveBy_ofCursor c happ]
  simp [eatLexeme?, Lexeme.byteLength?, h, hcut]

theorem eatLexeme?_of_not_split? {x : Lexeme} (h : x.split? c.rest = none) :
    (ofCursor c).eatLexeme? x = some (none, ofCursor c) := by
  simp [eatLexeme?, Lexeme.byteLength?, h]

theorem eatLexeme?_ofCursor (x : Lexeme) :
    (ofCursor c).eatLexeme? x = some ((c.eatLexeme x).1, ofCursor (c.eatLexeme x).2) := by
  rw [Cursor.eatLexeme]
  cases hsplit : x.split? c.rest with
  | none => exact eatLexeme?_of_not_split? c hsplit
  | some parts => exact eatLexeme?_of_split? c hsplit

theorem eatFirst?_ofCursor {α : Type} (choices : List (Lexeme × α)) :
    (ofCursor c).eatFirst? choices = some (match Lexeme.splitFirst? choices c.rest with
      | some (a, taken, rest) => (some a, ofCursor (c.advance taken rest))
      | none => (none, ofCursor c)) := by
  induction choices with
  | nil => rfl
  | cons choice later ih =>
    obtain ⟨x, a⟩ := choice
    cases hsplit : x.split? c.rest with
    | none =>
      rw [eatFirst?, eatLexeme?_of_not_split? c hsplit]
      simp only [Option.bind_eq_bind, Option.bind_some, ih]
      simp [Lexeme.splitFirst?, hsplit]
    | some parts =>
      rw [eatFirst?, eatLexeme?_of_split? c hsplit]
      simp [Lexeme.splitFirst?, hsplit]

/-- The answer of a scanner on a text, and where it leaves a cursor in front of it. -/
def answered (answer : Option Scanner.Step) : Option (Style × Bool) × OffsetCursor :=
  match answer with
  | some step => (some (step.style, step.closes), ofCursor (c.advance step.taken step.rest))
  | none => (none, ofCursor c)

theorem scan?_ofCursor (sc : Scanner) :
    (ofCursor c).scan? sc = some (answered c (sc.step c.rest)) := by
  cases sc with
  | comment syn =>
    rw [scan?, Scanner.step]
    cases hsplit : (Lexeme.commentClose syn).split? c.rest with
    | none =>
      rw [eatLexeme?_of_not_split? c hsplit]
      simp [nextChar?_ofCursor, Cursor.nextChar_eq_advance, answered]
    | some parts =>
      rw [eatLexeme?_of_split? c hsplit]
      rfl
  | string quote =>
    rw [scan?, peek?_ofCursor, nextChar?_ofCursor, Cursor.nextChar_eq_advance]
    rfl
  | uri =>
    rw [scan?, eatFirst?_ofCursor, Scanner.step_uri]
    cases Lexeme.splitFirst? Scanner.uriLexemes c.rest <;> rfl

theorem enter?_ofCursor (sc : Scanner) :
    (ofCursor c).enter? sc = some ((sc.opened c.rest).2.2,
      ofCursor (c.advance (sc.opened c.rest).1 (sc.opened c.rest).2.1)) := by
  rw [enter?, scan?_ofCursor, Scanner.opened]
  cases hstep : sc.step c.rest with
  | none => rfl
  | some step =>
    obtain ⟨style, taken, rest, closes⟩ := step
    cases closes <;> rfl

theorem find?_ofCursor (m : Mode) {d : Char} {rest : Text} (h : c.rest = d :: rest) :
    (ofCursor c).find? m = some ((m.find d rest).action,
      ofCursor (c.advance (m.find d rest).taken (m.find d rest).rest)) := by
  rw [find?, eatFirst?_ofCursor, h, Mode.find, Rule.findSome?_find?]
  cases Lexeme.splitFirst? (m.rules.map fun r => (r.lexeme, r.action)) (d :: rest) with
  | some found => rfl
  | none =>
    have hnext : c.nextChar = (some d, c.advance [d] rest) := by rw [Cursor.nextChar, h]
    simp [nextChar?_ofCursor, hnext]

/-- What is found is taken to the end of its extent. -/
theorem act?_ofCursor (f : Finding) :
    (ofCursor (c.advance f.taken f.rest)).act? f.action =
      some (f.extent.2.2, ofCursor (c.advance f.extent.1 f.extent.2.1)) := by
  obtain ⟨action, taken, rest⟩ := f
  cases action with
  | lineComment =>
    rw [act?, skipToEnd_ofCursor, Cursor.skipToEnd, Cursor.advance_advance]
    rfl
  | openComment syn =>
    rw [act?, enter?_ofCursor, Cursor.advance_advance]
    rfl
  | openString quote =>
    rw [act?, enter?_ofCursor, Cursor.advance_advance]
    rfl
  | _ => rfl

/-- The token of a cut, taken by a cursor that stands in front of it. -/
def taking (cut : Cut) : Taken :=
  ⟨cut.origin, cut.suspended, cut.mode, ofCursor (c.afterToken cut.gap cut.text cut.rest)⟩

theorem dispatch?_ofCursor (m : Mode) (h : c.token = []) :
    (ofCursor c).dispatch? m = some (taking c (m.cut c.rest)) := by
  have happ := List.takeWhile_append_dropWhile (p := Unicode.isWhiteSpace) (l := c.rest)
  have heat : c.eatSpace.2 = c.advance (c.rest.takeWhile Unicode.isWhiteSpace)
      (c.rest.dropWhile Unicode.isWhiteSpace) := rfl
  rw [dispatch?, eatSpace?_ofCursor, Option.bind_eq_bind, Option.bind_some, isAtEnd_ofCursor, heat,
    Mode.cut]
  cases hdrop : c.rest.dropWhile Unicode.isWhiteSpace with
  | nil =>
    have hend : (c.advance c.rest []).isAtEnd = true := rfl
    rw [hdrop, List.append_nil] at happ
    rw [happ, if_pos hend, taking, Cursor.afterToken_nil h]
  | cons d rest =>
    have hmore : ¬ (c.advance (c.rest.takeWhile Unicode.isWhiteSpace) (d :: rest)).isAtEnd = true :=
      Bool.false_ne_true
    rw [if_neg hmore, startToken_ofCursor, find?_ofCursor _ m rfl, Option.bind_eq_bind,
      Option.bind_some, act?_ofCursor]
    rfl

theorem take?_ofCursor (m : Mode) (suspended : List Scanner) (h : c.token = []) :
    (ofCursor c).take? m suspended = some (taking c (cut m suspended c.rest)) := by
  induction suspended with
  | nil => exact dispatch?_ofCursor c m h
  | cons sc around ih =>
    rw [take?, scan?_ofCursor, cut]
    cases hstep : sc.step c.rest with
    | none => exact ih
    | some step =>
      rw [taking, Cursor.afterToken_nil h]
      rfl

theorem next?_ofCursor (st : State) :
    (ofCursor c).next? st =
      some ((Cursor.next st c).1, (Cursor.next st c).2.1, ofCursor (Cursor.next st c).2.2) := by
  rw [next?, startToken_ofCursor, isAtEnd_ofCursor]
  have hend : c.startToken.isAtEnd = c.isAtEnd := rfl
  rw [hend]
  cases hmore : c.isAtEnd with
  | true =>
    rw [if_pos rfl, Cursor.next_of_isAtEnd st hmore]
  | false =>
    rw [if_neg Bool.false_ne_true, take?_ofCursor _ _ _ rfl, Cursor.next_of_not_isAtEnd st hmore,
      Option.bind_eq_bind, Option.bind_some, taking, current?_ofCursor, Cursor.current_afterToken]
    rfl

end OffsetCursor
end Highlighter
