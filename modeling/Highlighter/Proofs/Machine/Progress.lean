/-
Every call makes progress.

A machine that can be reached has at most one scanner on its stack, so that at most
one frame gives up before another one answers, and a token is never empty.  A call
in front of some text therefore ends after at most two rounds and moves the cursor,
`Machine.drive` never meets a call that leaves the cursor where it was, and the line
is read to its end in no more calls than it has characters (`Machine.progress`).
-/
import Highlighter.Proofs.Machine.Invariant

namespace Highlighter
namespace State

theorem Steady.length_suspended_le {st : State} (h : st.Steady) : st.suspended.length ≤ 1 := by
  cases h with
  | idle mode memory => exact Nat.zero_le 1
  | busy hsc hstyle => exact Nat.le_refl 1

theorem Steady.suspended_of_head? {st : State} (h : st.Steady) {sc : Scanner}
    (hsc : st.suspended.head? = some sc) : st.suspended = [sc] := by
  obtain ⟨around, hsuspended⟩ := List.head?_eq_some_iff.mp hsc
  have hlength := h.length_suspended_le
  rw [hsuspended, List.length_cons] at hlength
  have haround : around = [] := List.length_eq_zero_iff.mp (by omega)
  rw [hsuspended, haround]

/-- Every round but the last takes a scanner off the stack. -/
theorem rounds_le (st : State) (s : Text) : st.rounds s ≤ st.suspended.length + 1 := by
  have htake := (List.takeWhile_sublist (p := fun sc => (Scanner.step sc s).isNone)
    (l := st.suspended)).length_le
  rw [rounds]
  omega

theorem Steady.rounds_le_two {st : State} (h : st.Steady) (s : Text) : st.rounds s ≤ 2 := by
  have hrounds := st.rounds_le s
  have hsuspended := h.length_suspended_le
  omega

theorem length_run_le (st : State) (line : Text) : (st.run line).length ≤ line.length := by
  fun_induction run st line with
  | case1 st => exact Nat.le_refl 0
  | case2 st line h hshorter ih =>
    rw [List.length_cons]
    omega

end State

namespace Machine

theorem next_progress {st : State} (h : st.Steady) {c : Cursor} (hc : c.isAtEnd = false) :
    ∃ call, (ofState st).next c = some call ∧ call.rounds ≤ 2 ∧
      c.position < call.cursor.position ∧
      (call.style, call.machine, call.cursor) =
        ((Cursor.next st c).1, ofState (Cursor.next st c).2.1, (Cursor.next st c).2.2) := by
  have hmoved := position_readCall st hc
  refine ⟨_, next_ofState_of_not_isAtEnd st hc, h.rounds_le_two c.rest, hmoved, ?_⟩
  rw [Cursor.next_of_not_isAtEnd st hc]
  rfl

/-- From a machine that can be reached, a call in front of some text ends after at
most two rounds and moves the cursor on, as `Cursor.next` does; a call at the end of
a line changes neither the machine nor the position; and a line is read to its end,
without a call that does not move the cursor and in no more calls than it has
characters. -/
theorem progress {k : Machine} (h : k.Reachable) :
    ∃ st : State, st.Reachable ∧ k = ofState st ∧
      (∀ c : Cursor, c.isAtEnd = false → ∃ call, k.next c = some call ∧ call.rounds ≤ 2 ∧
        c.position < call.cursor.position ∧
        (call.style, call.machine, call.cursor) =
          ((Cursor.next st c).1, ofState (Cursor.next st c).2.1, (Cursor.next st c).2.2)) ∧
      (∀ c : Cursor, c.isAtEnd = true → ∃ call, k.next c = some call ∧ call.style = none ∧
        call.machine = k ∧ call.cursor.position = c.position ∧ call.cursor.rest = c.rest) ∧
      ∀ line : Text, ∃ d, k.drive (.ofLine line) = some d ∧ d.stalled = false ∧
        d.cursor.isAtEnd = true ∧ d.calls.length ≤ line.length ∧
        d.machine = ofState (st.afterLine line) ∧
        d.calls.filterMap Call.span? = (st.fragments line).map Fragment.span := by
  obtain ⟨st, hst, rfl⟩ := reachable_iff.mp h
  have hsteady := hst.steady
  refine ⟨st, hst, rfl, fun c hc => next_progress hsteady hc, ?_, ?_⟩
  · intro c hc
    exact ⟨_, next_ofState_of_isAtEnd st hc, rfl, rfl, c.position_startToken, rfl⟩
  · intro line
    obtain ⟨d, hdrive, hstalled, hend, hmachine, hlength, hspans⟩ :=
      drive_ofState st (.ofLine line)
    have hcalls : d.calls.length ≤ line.length := by
      rw [hlength]
      exact st.length_run_le line
    exact ⟨d, hdrive, hstalled, hend, hcalls, hmachine, hspans⟩

/-- A URI is left open behind its scheme, and gives up in front of a space. -/
theorem progress_open_uri :
    ∃ k : Machine, k.stack = [.scanner .uri, .dispatcher] ∧ k.Reachable ∧
      ∃ call, k.next (.ofLine " x".toList) = some call ∧ call.rounds ≤ 2 ∧
        0 < call.cursor.position := by
  have hlatched := State.Reachable.start.next (.ofLine "theory".toList)
  have hstate := hlatched.next (.ofLine "http".toList)
  have hopen : (Cursor.next (Cursor.next State.start (.ofLine "theory".toList)).2.1
      (.ofLine "http".toList)).2.1 = ⟨[.uri], .within .theory, some (.style .variable2)⟩ := by
    decide +kernel
  rw [hopen] at hstate
  have hreachable := reachable_iff.mpr ⟨_, hstate, rfl⟩
  obtain ⟨_, -, -, hcalls, -, -⟩ := progress hreachable
  obtain ⟨call, hcall, hrounds, hmoved, -⟩ := hcalls (.ofLine " x".toList) rfl
  exact ⟨_, rfl, hreachable, call, hcall, hrounds, hmoved⟩

end Machine
end Highlighter
