/-
The machine reads what a state reads.

`Machine.ofState` puts the suspended scanners of a state on top of the dispatcher.
From there a call of the machine ends and does exactly what `Cursor.next` does
(`next_ofState`), after as many rounds as scanners give up and one more, and reading
a line with the machine gives the fragments and the state that `State.fragments` and
`State.afterLine` give (`drive_ofState`).
-/
import Highlighter.Document
import Highlighter.Proofs.Cursor
import Highlighter.Proofs.Cut
import Highlighter.Proofs.Machine.Basic

namespace Highlighter
namespace Scanner

theorem step_comment (syn : CommentSyntax) (s : Text) :
    ∃ st, (comment syn).step s = some st ∧ st.style = .comment := by
  rw [step]
  split
  · exact ⟨_, rfl, rfl⟩
  · exact ⟨_, rfl, rfl⟩

theorem step_string (quote : Char) (s : Text) :
    ∃ st, (string quote).step s = some st ∧ st.style = .string :=
  ⟨_, rfl, rfl⟩

end Scanner

namespace State

/-- How many scanners are asked for the next token, the dispatcher included. -/
def rounds (st : State) (s : Text) : Nat :=
  (st.suspended.takeWhile fun sc => (sc.step s).isNone).length + 1

end State

namespace Machine

/-- The frames of suspended scanners on top of a stack. -/
def frames (suspended : List Scanner) (stack : List Frame) : List Frame :=
  suspended.map Frame.scanner ++ stack

def ofState (st : State) : Machine := ⟨frames st.suspended [.dispatcher], st.mode, st.memory⟩

theorem enter_eq {k : Machine} (hk : k.stack ≠ []) {sc : Scanner} {c : Cursor}
    {st : Scanner.Step} (h : sc.step c.rest = some st) :
    k.enter sc c = ⟨some st.style, false, c.advance st.taken st.rest,
      { k with stack := frames (if st.closes then [] else [sc]) k.stack }⟩ := by
  simp only [enter, scanWith, h]
  cases hcloses : st.closes
  · rfl
  · simp [push_pop hk, frames]

theorem perform_eq {k : Machine} (hk : k.stack ≠ []) (f : Finding) (c : Cursor) :
    k.perform f (c.advance f.taken f.rest) =
      ⟨f.action.style k.mode k.memory f.extent.1, false, c.advance f.extent.1 f.extent.2.1,
        ⟨frames f.extent.2.2 k.stack, f.modeAfter k.mode, k.memory⟩⟩ := by
  obtain ⟨action, taken, rest⟩ := f
  cases action with
  | lineComment =>
    show (⟨_, _, (c.advance taken rest).advance rest [], _⟩ : Scan) = _
    rw [Cursor.advance_advance]
    rfl
  | openComment syn =>
    obtain ⟨st, hstep, hstyle⟩ := Scanner.step_comment syn rest
    show k.enter (.comment syn) (c.advance taken rest) = _
    rw [enter_eq hk hstep, Cursor.advance_advance, hstyle]
    simp [Finding.extent, Scanner.opened, hstep, Action.style, Finding.modeAfter]
  | openString quote =>
    obtain ⟨st, hstep, hstyle⟩ := Scanner.step_string quote rest
    show k.enter (.string quote) (c.advance taken rest) = _
    rw [enter_eq hk hstep, Cursor.advance_advance, hstyle]
    simp [Finding.extent, Scanner.opened, hstep, Action.style, Finding.modeAfter]
  | _ => rfl

theorem dispatch_eq {k : Machine} (hk : k.stack ≠ []) {c : Cursor} (hc : c.token = []) :
    k.dispatch c = ⟨(k.mode.cut c.rest).origin.style k.mode k.memory (k.mode.cut c.rest).text,
      false,
      c.afterToken (k.mode.cut c.rest).gap (k.mode.cut c.rest).text (k.mode.cut c.rest).rest,
      ⟨frames (k.mode.cut c.rest).suspended k.stack, (k.mode.cut c.rest).mode, k.memory⟩⟩ := by
  have happ := List.takeWhile_append_dropWhile (p := Unicode.isWhiteSpace) (l := c.rest)
  have heat : c.eatSpace.2 = c.advance (c.rest.takeWhile Unicode.isWhiteSpace)
      (c.rest.dropWhile Unicode.isWhiteSpace) := rfl
  unfold dispatch Mode.cut
  rw [heat]
  cases hdrop : c.rest.dropWhile Unicode.isWhiteSpace with
  | nil =>
    rw [hdrop, List.append_nil] at happ
    rw [happ]
    show _ = (⟨none, false, c.afterToken [] c.rest [], k⟩ : Scan)
    rw [Cursor.afterToken_nil hc]
    rfl
  | cons d rest => exact perform_eq hk (k.mode.find d rest) _

/-- The loop ends on the stack of a state, with the cut that the state makes. -/
theorem loop_ofState (st : State) {c : Cursor} (hc : c.token = []) :
    (ofState st).loop c = some ⟨st.rounds c.rest, (st.read c.rest).token.style,
      c.afterToken (st.read c.rest).token.gap (st.read c.rest).token.text (st.read c.rest).rest,
      { ofState (st.read c.rest).state with memory := st.memory }⟩ := by
  obtain ⟨suspended, mode, memory⟩ := st
  -- The scanners that give up are popped one after the other, so the induction is
  -- on the scanners; the mode and the memory stay as they are until one answers.
  induction suspended with
  | nil =>
    have hscan : (ofState ⟨[], mode, memory⟩).scan c = (ofState ⟨[], mode, memory⟩).dispatch c :=
      rfl
    have hdispatch := dispatch_eq (k := ofState ⟨[], mode, memory⟩) (by simp [ofState, frames]) hc
    rw [loop_of_not_pops (by rw [hscan, hdispatch]), hscan, hdispatch]
    rfl
  | cons sc around ih =>
    have hscan : (ofState ⟨sc :: around, mode, memory⟩).scan c =
        (ofState ⟨sc :: around, mode, memory⟩).scanWith sc c := rfl
    have hpop : (ofState ⟨sc :: around, mode, memory⟩).pop = ofState ⟨around, mode, memory⟩ :=
      push_pop (k := ofState ⟨around, mode, memory⟩) (by simp [ofState, frames]) (.scanner sc)
    cases hstep : sc.step c.rest with
    | none =>
      have hgave : (ofState ⟨sc :: around, mode, memory⟩).scanWith sc c =
          ⟨none, true, c, ofState ⟨sc :: around, mode, memory⟩⟩ := by
        rw [scanWith, hstep]
      have hread : State.read ⟨sc :: around, mode, memory⟩ c.rest =
          State.read ⟨around, mode, memory⟩ c.rest := by
        simp only [State.read, cut, hstep]
      have hshorter : (ofState ⟨around, mode, memory⟩).stack.length <
          (ofState ⟨sc :: around, mode, memory⟩).stack.length := Nat.lt_succ_self _
      rw [loop_of_gaveUp (by rw [hscan, hgave]) (by rw [hscan, hgave]) (by rw [hscan, hgave])
        (by rw [hscan, hgave, hpop]; exact hshorter), hscan, hgave, hpop, ih, hread]
      simp [State.rounds, hstep]
    | some step =>
      have hanswer : (ofState ⟨sc :: around, mode, memory⟩).scanWith sc c =
          ⟨some step.style, step.closes, c.advance step.taken step.rest,
            ofState ⟨sc :: around, mode, memory⟩⟩ := by
        rw [scanWith, hstep]
      have hrounds : State.rounds ⟨sc :: around, mode, memory⟩ c.rest = 1 := by
        simp [State.rounds, hstep]
      rw [hrounds]
      simp only [State.read, cut, hstep]
      rw [Cursor.afterToken_nil hc]
      cases hcloses : step.closes with
      | false =>
        rw [loop_of_not_pops (by rw [hscan, hanswer, hcloses]), hscan, hanswer]
        rfl
      | true =>
        rw [loop_of_pops (by rw [hscan, hanswer, hcloses]) (by rw [hscan, hanswer]; simp),
          hscan, hanswer, hpop]
        rfl

def readCall (st : State) (c : Cursor) : Call :=
  ⟨st.rounds c.rest, (st.read c.rest).token.style,
    c.startToken.afterToken (st.read c.rest).token.gap (st.read c.rest).token.text
      (st.read c.rest).rest,
    ofState (st.read c.rest).state⟩

theorem next_ofState_of_isAtEnd (st : State) {c : Cursor} (h : c.isAtEnd = true) :
    (ofState st).next c = some ⟨0, none, c.startToken, ofState st⟩ := by
  have hend : c.startToken.isAtEnd = true := h
  rw [next, if_pos hend]

theorem next_ofState_of_not_isAtEnd (st : State) {c : Cursor} (h : c.isAtEnd = false) :
    (ofState st).next c = some (readCall st c) := by
  have hend : c.startToken.isAtEnd = false := h
  have hrest : c.startToken.rest = c.rest := rfl
  rw [next, if_neg (by rw [hend]; decide), loop_ofState st rfl, hrest]
  simp only [Option.bind_eq_bind, Option.bind_some, Cursor.current_afterToken]
  rfl

/-- A call of the machine does what `Cursor.next` does with the state. -/
theorem next_ofState (st : State) (c : Cursor) :
    (ofState st).next c = some ⟨if c.isAtEnd then 0 else st.rounds c.rest,
      (Cursor.next st c).1, (Cursor.next st c).2.2, ofState (Cursor.next st c).2.1⟩ := by
  cases h : c.isAtEnd with
  | true =>
    rw [next_ofState_of_isAtEnd st h, Cursor.next_of_isAtEnd st h]
    rfl
  | false =>
    rw [next_ofState_of_not_isAtEnd st h, Cursor.next_of_not_isAtEnd st h]
    rfl

theorem reachable_iff {k : Machine} : k.Reachable ↔ ∃ st : State, st.Reachable ∧ k = ofState st := by
  constructor
  · intro h
    induction h with
    | start => exact ⟨.start, .start, rfl⟩
    | @next k c call _ hcall ih =>
      obtain ⟨st, hst, rfl⟩ := ih
      rw [next_ofState st c] at hcall
      cases hcall
      exact ⟨_, .next hst c, rfl⟩
  · rintro ⟨st, hst, rfl⟩
    induction hst with
    | start => exact .start
    | @next st _ c ih => exact .next ih (next_ofState st c)

theorem position_readCall (st : State) {c : Cursor} (h : c.isAtEnd = false) :
    c.position < (readCall st c).cursor.position := by
  have htext := Cut.text_ne_nil st.mode st.suspended (Cursor.rest_ne_nil_of_not_isAtEnd h)
  have hpos : Text.byteLength (st.read c.rest).token.text ≠ 0 := fun h0 =>
    htext (Text.byteLength_eq_zero_iff.mp h0)
  rw [readCall, Cursor.position_afterToken]
  omega

theorem span?_readCall (st : State) (c : Cursor) :
    (readCall st c).span? =
      if (st.read c.rest).token.isBlank then none
      else some ⟨c.position + Text.byteLength (st.read c.rest).token.gap,
        (readCall st c).cursor.position, (st.read c.rest).token.style⟩ := by
  rw [Call.span?, readCall, Cursor.current_afterToken, Cursor.start_afterToken]
  rfl

/-- What is reported of a call is the fragment of its token. -/
theorem filterMap_span?_readCall (st : State) (c : Cursor) {calls : List Call}
    {tokens : List Token}
    (h : calls.filterMap Call.span? =
      (Fragment.ofTokens (readCall st c).cursor.position tokens).map Fragment.span) :
    (readCall st c :: calls).filterMap Call.span? =
      (Fragment.ofTokens c.position ((st.read c.rest).token :: tokens)).map Fragment.span := by
  have hspan := span?_readCall st c
  have hposition : (readCall st c).cursor.position = c.position +
      Text.byteLength (st.read c.rest).token.gap + Text.byteLength (st.read c.rest).token.text :=
    Cursor.position_afterToken _ _ _ _
  rw [hposition] at h hspan
  simp only [Fragment.ofTokens]
  cases hblank : (st.read c.rest).token.isBlank with
  | true =>
    rw [hblank, if_pos rfl] at hspan
    rw [List.filterMap_cons_none hspan, h, if_pos rfl]
  | false =>
    rw [hblank, if_neg (by decide)] at hspan
    rw [List.filterMap_cons_some hspan, h, if_neg (by decide), List.map_cons]
    rfl

/-- Driving the machine along a line ends at the end of the line, in the state after
it, and reports the fragments of the line. -/
theorem drive_ofState (st : State) (c : Cursor) :
    ∃ d, (ofState st).drive c = some d ∧ d.stalled = false ∧ d.cursor.isAtEnd = true ∧
      d.machine = ofState (st.afterLine c.rest) ∧ d.calls.length = (st.run c.rest).length ∧
      d.calls.filterMap Call.span? =
        (Fragment.ofTokens c.position ((st.run c.rest).map Reading.token)).map Fragment.span := by
  induction hn : c.rest.length using Nat.strongRecOn generalizing st c with
  | ind n ih =>
    cases h : c.isAtEnd with
    | true =>
      have hnil : c.rest = [] := List.isEmpty_iff.mp h
      refine ⟨⟨[], c, ofState st, false⟩, drive_of_isAtEnd _ h, rfl, h, ?_, ?_, ?_⟩
      · rw [hnil, State.afterLine, State.run_nil]
        rfl
      · rw [hnil, State.run_nil]
        rfl
      · rw [hnil, State.run_nil]
        rfl
    | false =>
      have hne := Cursor.rest_ne_nil_of_not_isAtEnd h
      have hshorter := st.read_rest_length_lt hne
      obtain ⟨d, hdrive, hstalled, hend, hmachine, hlength, hspans⟩ :=
        ih _ (hn ▸ hshorter) (st.read c.rest).state (readCall st c).cursor rfl
      have hmoved := position_readCall st h
      refine ⟨{ d with calls := readCall st c :: d.calls }, ?_, hstalled, hend, ?_, ?_, ?_⟩
      · rw [drive_of_next h (next_ofState_of_not_isAtEnd st h) (by omega)]
        have hdrive' : (readCall st c).machine.drive (readCall st c).cursor = some d := hdrive
        rw [hdrive']
        rfl
      · rw [st.afterLine_of_ne_nil hne]
        exact hmachine
      · rw [st.run_of_ne_nil hne, List.length_cons, List.length_cons, hlength]
        rfl
      · rw [st.run_of_ne_nil hne, List.map_cons]
        exact filterMap_span?_readCall st c hspans

end Machine
end Highlighter
