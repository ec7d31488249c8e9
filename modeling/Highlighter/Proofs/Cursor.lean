/-
What a call of `Cursor.next` does.

In front of some text a call reads the token that the state reads, and leaves the
cursor behind it; at the end of a line it only begins a token.  `Cursor.calls` are
the calls that read a line, `State.calls` those that read lines which follow one
another, and the states that can be reached are those to which calls lead from the
beginning of a document.
-/
import Highlighter.Cursor

namespace Highlighter
namespace Cursor

def afterToken (c : Cursor) (gap text rest : Text) : Cursor :=
  (c.advance gap (text ++ rest)).startToken.advance text rest

theorem advance_advance (c : Cursor) (s t r r' : Text) :
    (c.advance s r).advance t r' = c.advance (s ++ t) r' := by
  simp [advance]

theorem position_advance (c : Cursor) (taken rest : Text) :
    (c.advance taken rest).position = c.position + Text.byteLength taken := by
  simp [advance, position]
  omega

/-- Where a token has just begun, a token without a gap goes on from there. -/
theorem afterToken_nil {c : Cursor} (h : c.token = []) (text rest : Text) :
    c.afterToken [] text rest = c.advance text rest := by
  simp [afterToken, advance, startToken, h]

@[simp] theorem rest_afterToken (c : Cursor) (gap text rest : Text) :
    (c.afterToken gap text rest).rest = rest := rfl

@[simp] theorem current_afterToken (c : Cursor) (gap text rest : Text) :
    (c.afterToken gap text rest).current = text := by
  simp [afterToken, advance, startToken, current]

@[simp] theorem start_afterToken (c : Cursor) (gap text rest : Text) :
    (c.startToken.afterToken gap text rest).start = c.position + Text.byteLength gap := by
  simp [afterToken, advance, startToken, start, position]
  omega

@[simp] theorem position_afterToken (c : Cursor) (gap text rest : Text) :
    (c.startToken.afterToken gap text rest).position =
      c.position + Text.byteLength gap + Text.byteLength text := by
  simp [afterToken, advance, startToken, position]
  omega

@[simp] theorem position_startToken (c : Cursor) : c.startToken.position = c.position := by
  simp [startToken, position, Nat.add_comm]

theorem next_of_isAtEnd (st : State) {c : Cursor} (h : c.isAtEnd = true) :
    next st c = (none, st, c.startToken) := by
  rw [next, if_pos h]

theorem next_of_not_isAtEnd (st : State) {c : Cursor} (h : c.isAtEnd = false) :
    next st c = ((st.read c.rest).token.style, (st.read c.rest).state,
      c.startToken.afterToken (st.read c.rest).token.gap (st.read c.rest).token.text
        (st.read c.rest).rest) := by
  rw [next, if_neg (by rw [h]; decide)]
  rfl

theorem rest_ne_nil_of_not_isAtEnd {c : Cursor} (h : c.isAtEnd = false) : c.rest ≠ [] := by
  intro hnil
  rw [isAtEnd, hnil] at h
  exact absurd h (by decide)

/-- What a call of `next` gives, and what its token was made by. -/
structure Call where
  origin : Origin
  style : Option Style
  state : State
  cursor : Cursor

def call (st : State) (c : Cursor) : Call :=
  ⟨(st.read c.rest).token.origin, (next st c).1, (next st c).2.1, (next st c).2.2⟩

theorem call_of_not_isAtEnd (st : State) {c : Cursor} (h : c.isAtEnd = false) :
    call st c = ⟨(st.read c.rest).token.origin, (st.read c.rest).token.style,
      (st.read c.rest).state,
      c.startToken.afterToken (st.read c.rest).token.gap (st.read c.rest).token.text
        (st.read c.rest).rest⟩ := by
  rw [call, next_of_not_isAtEnd st h]

theorem length_rest_call_lt (st : State) {c : Cursor} (h : c.isAtEnd = false) :
    (call st c).cursor.rest.length < c.rest.length := by
  rw [call_of_not_isAtEnd st h]
  exact st.read_rest_length_lt (rest_ne_nil_of_not_isAtEnd h)

/-- The calls that read on to the end of the line. -/
def calls (st : State) (c : Cursor) : List Call :=
  if h : c.isAtEnd = true then []
  else
    have := length_rest_call_lt st (Bool.eq_false_iff.mpr h)
    call st c :: calls (call st c).state (call st c).cursor
termination_by c.rest.length

theorem calls_of_isAtEnd (st : State) {c : Cursor} (h : c.isAtEnd = true) : calls st c = [] := by
  rw [calls, dif_pos h]

theorem calls_of_not_isAtEnd (st : State) {c : Cursor} (h : c.isAtEnd = false) :
    calls st c = call st c :: calls (call st c).state (call st c).cursor := by
  rw [calls, dif_neg (by rw [h]; decide)]

/-- The calls that read on without a gap from a state and a cursor to others, each in front
of some text. -/
inductive ReadsTo : State → Cursor → List Call → State → Cursor → Prop
  | nil (st : State) (c : Cursor) : ReadsTo st c [] st c
  | cons {st st' : State} {c c' : Cursor} {later : List Call} (hmore : c.isAtEnd = false)
      (hgap : (call st c).cursor.start = c.position)
      (hlater : ReadsTo (call st c).state (call st c).cursor later st' c') :
      ReadsTo st c (call st c :: later) st' c'

end Cursor

namespace State

theorem afterReadings_cons (st : State) (r : Reading) (rs : List Reading) :
    st.afterReadings (r :: rs) = r.state.afterReadings rs := by
  cases rs with
  | nil => rfl
  | cons r' rs =>
    rw [afterReadings, afterReadings, List.getLast?_cons_cons]
    cases h : (r' :: rs).getLast? with
    | none => simp at h
    | some last => rfl

theorem afterLine_nil (st : State) : st.afterLine [] = st := by
  rw [afterLine, run_nil]
  rfl

theorem afterLine_of_ne_nil (st : State) {line : Text} (h : line ≠ []) :
    st.afterLine line = (st.read line).state.afterLine (st.read line).rest := by
  rw [afterLine, st.run_of_ne_nil h, afterReadings_cons]
  rfl

theorem afterLine_of_call (st : State) {c : Cursor} (h : c.isAtEnd = false) :
    st.afterLine c.rest =
      (Cursor.call st c).state.afterLine (Cursor.call st c).cursor.rest := by
  rw [st.afterLine_of_ne_nil (Cursor.rest_ne_nil_of_not_isAtEnd h), Cursor.call_of_not_isAtEnd st h]
  rfl

/-- Reading on along a line comes to the same state behind it. -/
theorem afterLine_of_readsTo {st st' : State} {c c' : Cursor} {calls : List Cursor.Call}
    (h : Cursor.ReadsTo st c calls st' c') : st.afterLine c.rest = st'.afterLine c'.rest := by
  induction h with
  | nil st c => rfl
  | cons hmore _ _ ih => rw [afterLine_of_call _ hmore, ih]

/-- The calls that read lines which follow one another. -/
def calls (st : State) : List Text → List Cursor.Call
  | [] => []
  | line :: lines => Cursor.calls st (.ofLine line) ++ (st.afterLine line).calls lines

/-- The states that `Cursor.next` leads to from the beginning of a document, at any
positions of any lines. -/
inductive Reachable : State → Prop
  | start : Reachable start
  | next {st : State} (h : Reachable st) (c : Cursor) : Reachable (Cursor.next st c).2.1

theorem Reachable.readsTo {st st' : State} {c c' : Cursor} {calls : List Cursor.Call}
    (hst : st.Reachable) (h : Cursor.ReadsTo st c calls st' c') : st'.Reachable := by
  induction h with
  | nil st c => exact hst
  | @cons st st' c c' later hmore hgap hlater ih => exact ih (hst.next c)

end State
end Highlighter
