/-
The invariant of the stack.

`State.Steady` ties the suspended scanners, the mode and the memory of a state
together: at most one scanner is suspended, it is one that belongs to the mode, and
the last token was a step of it or the opening in front of its first step.  Reading
a token keeps this, whichever rule or scanner reads it (`State.read_steady`).
`Machine.Regular` says the same of a machine, whose stack has the dispatcher at the
bottom and nowhere else; `Machine.stack_invariant` says that every machine reached
from the beginning of a document is regular, and that no call of `next` leaves the
regular machines.
-/
import Highlighter.Proofs.Machine.Refinement

namespace Highlighter
namespace Memory

theorem after_of_not_isWordLike {style : Style} (h : style.isWordLike = false)
    (memory : Option Memory) (text : Text) :
    after memory (some style) text = some (.style style) := by
  simp [after, h]

end Memory

def CommentSyntax.language : CommentSyntax → Sublanguage
  | grammar => .grammar
  | logic => .logic

namespace Scanner

/-- Whether a scanner can be at work in a mode. -/
def BelongsTo : Scanner → Mode → Prop
  | comment syn, m => m = .within syn.language
  | string quote, _ => quote = '"' ∨ quote = '\''
  | uri, m => m = .within .theory

instance (sc : Scanner) (m : Mode) : Decidable (sc.BelongsTo m) :=
  match sc with
  | comment syn => inferInstanceAs (Decidable (m = .within syn.language))
  | string quote => inferInstanceAs (Decidable (quote = '"' ∨ quote = '\''))
  | uri => inferInstanceAs (Decidable (m = .within .theory))

theorem opened_suspended (sc : Scanner) (s : Text) :
    (sc.opened s).2.2 = [] ∨ (sc.opened s).2.2 = [sc] := by
  rw [opened]
  cases sc.step s with
  | none => exact Or.inl rfl
  | some st => cases hcloses : st.closes <;> simp [hcloses]

end Scanner

namespace Action

/-- The scanner that an action opens. -/
def opens : Action → Option Scanner
  | openComment syn => some (.comment syn)
  | openString quote => some (.string quote)
  | openUri => some .uri
  | _ => none

/-- What opens a scanner has a style that the steps of the scanner can have. -/
theorem style_of_opens {a : Action} {sc : Scanner} (h : a.opens = some sc) (m : Mode)
    (memory : Option Memory) (text : Text) :
    ∃ style ∈ sc.styles, a.style m memory text = some style := by
  cases a with
  | openComment syn | openString quote =>
    cases h
    exact ⟨_, List.mem_singleton_self _, rfl⟩
  | openUri =>
    cases h
    exact ⟨.variable2, by decide, rfl⟩
  | _ => cases h

end Action

namespace Mode

theorem belongsTo_of_mem_rules {m : Mode} {r : Rule} (hr : r ∈ m.rules) {sc : Scanner}
    (h : r.action.opens = some sc) : sc.BelongsTo m := by
  have hall : ∀ r ∈ m.rules, ∀ sc ∈ r.action.opens, sc.BelongsTo m := by
    cases m with
    | shell => decide
    | within language => cases language <;> decide
  exact hall r hr sc h

theorem belongsTo_of_unruled {c : Char} {sc : Scanner} (h : (unruled c).opens = some sc)
    (m : Mode) : sc.BelongsTo m := by
  unfold unruled at h
  split at h
  · case isTrue hquote =>
    cases h
    exact hquote
  · cases h

theorem belongsTo_of_find {m : Mode} {c : Char} {s : Text} {sc : Scanner}
    (h : (m.find c s).action.opens = some sc) : sc.BelongsTo m := by
  rcases find_cases m c s with ⟨r, hr, hfind⟩ | ⟨_, hf⟩
  · obtain ⟨⟨taken, rest⟩, -, hf⟩ := Option.map_eq_some_iff.mp hfind
    rw [← hf] at h
    exact belongsTo_of_mem_rules hr h
  · rw [hf] at h
    exact belongsTo_of_unruled h m

end Mode

namespace Finding

theorem suspended_of_opens_none {f : Finding} (h : f.action.opens = none) :
    f.extent.2.2 = [] := by
  obtain ⟨action, taken, rest⟩ := f
  cases action with
  | openComment syn | openString quote | openUri => cases h
  | _ => rfl

theorem suspended_of_opens_some {f : Finding} {sc : Scanner} (h : f.action.opens = some sc) :
    f.extent.2.2 = [] ∨ f.extent.2.2 = [sc] := by
  obtain ⟨action, taken, rest⟩ := f
  cases action with
  | openComment syn =>
    cases h
    exact Scanner.opened_suspended (.comment syn) rest
  | openString quote =>
    cases h
    exact Scanner.opened_suspended (.string quote) rest
  | openUri =>
    cases h
    exact Or.inr rfl
  | _ => cases h

theorem modeAfter_of_opens_some {f : Finding} {sc : Scanner} (h : f.action.opens = some sc)
    (m : Mode) : f.modeAfter m = m := by
  obtain ⟨action, taken, rest⟩ := f
  cases action with
  | latch language => cases h
  | _ => rfl

end Finding

namespace State

/-- What ties the scanners, the mode and the memory of a state together. -/
inductive Steady : State → Prop
  | idle (mode : Mode) (memory : Option Memory) : Steady ⟨[], mode, memory⟩
  | busy {sc : Scanner} {mode : Mode} {style : Style} (hsc : sc.BelongsTo mode)
      (hstyle : style ∈ sc.styles) : Steady ⟨[sc], mode, some (.style style)⟩

theorem read_steady_of_step {st : State} {s : Text} {sc : Scanner} {step : Scanner.Step}
    (hsc : sc.BelongsTo st.mode) (hstep : sc.step s = some step)
    (hcut : cut st.mode st.suspended s = ⟨.scanner sc step.style, [], step.taken, step.rest,
      if step.closes then [] else [sc], st.mode⟩) : (st.read s).state.Steady := by
  have hstyle := Scanner.step_style_mem hstep
  have hstate : (st.read s).state =
      ⟨if step.closes then [] else [sc], st.mode, some (.style step.style)⟩ := by
    have hafter := Memory.after_of_not_isWordLike (Scanner.isWordLike_of_mem_styles hstyle)
      st.memory step.taken
    rw [← hafter, read, hcut]
    rfl
  rw [hstate]
  cases step.closes with
  | true => exact .idle st.mode _
  | false => exact .busy hsc hstyle

/-- A finding suspends no scanner, or one that belongs to the mode and whose opening
has a style of its steps. -/
theorem read_steady_of_find {st : State} {s gap : Text} {c : Char} {rest : Text}
    (hcut : cut st.mode st.suspended s = (st.mode.find c rest).toCut st.mode gap) :
    (st.read s).state.Steady := by
  have hstate : (st.read s).state = ⟨(st.mode.find c rest).extent.2.2,
      (st.mode.find c rest).modeAfter st.mode, Memory.after st.memory
        ((st.mode.find c rest).action.style st.mode st.memory (st.mode.find c rest).extent.1)
        (st.mode.find c rest).extent.1⟩ := by
    rw [read, hcut]
    rfl
  rw [hstate]
  cases hopens : (st.mode.find c rest).action.opens with
  | none =>
    rw [Finding.suspended_of_opens_none hopens]
    exact .idle _ _
  | some sc =>
    -- A comment or a string may end within the token that opens it.
    rcases Finding.suspended_of_opens_some hopens with hnone | hone
    · rw [hnone]
      exact .idle _ _
    · obtain ⟨style, hstyle, hpainted⟩ := Action.style_of_opens hopens st.mode st.memory
        (st.mode.find c rest).extent.1
      rw [hone, hpainted, Finding.modeAfter_of_opens_some hopens,
        Memory.after_of_not_isWordLike (Scanner.isWordLike_of_mem_styles hstyle)]
      exact .busy (Mode.belongsTo_of_find hopens) hstyle

theorem read_steady {st : State} (h : st.Steady) (s : Text) : (st.read s).state.Steady := by
  rcases Cut.cut_cases st.mode st.suspended s with
    ⟨gaveUp, sc, around, step, hsuspended, -, hstep, hcut⟩ | ⟨-, hcut⟩
  · cases h with
    | idle mode memory => exact absurd hsuspended.symm (by simp)
    | busy hsc hstyle =>
      rcases List.singleton_eq_append_iff.mp hsuspended with ⟨-, honly⟩ | ⟨-, hnone⟩
      · cases honly
        exact read_steady_of_step hsc hstep hcut
      · cases hnone
  · rcases Mode.cut_cases st.mode s with ⟨-, hblank⟩ | ⟨gap, c, rest, -, -, -, hfound⟩
    · have hstate : (st.read s).state = ⟨[], st.mode, st.memory⟩ := by
        rw [read, hcut, hblank]
        rfl
      rw [hstate]
      exact .idle _ _
    · exact read_steady_of_find (hcut.trans hfound)

end State

theorem Cursor.next_steady {st : State} (h : st.Steady) (c : Cursor) :
    (Cursor.next st c).2.1.Steady := by
  cases hend : c.isAtEnd with
  | true =>
    rw [next_of_isAtEnd st hend]
    exact h
  | false =>
    rw [next_of_not_isAtEnd st hend]
    exact State.read_steady h c.rest

theorem State.Reachable.steady {st : State} (h : st.Reachable) : st.Steady := by
  induction h with
  | start => exact .idle .shell none
  | next _ c ih => exact Cursor.next_steady ih c

namespace Machine

/-- The invariant of a machine.  The dispatcher is at the bottom of the stack and
nowhere else, with at most one scanner on top of it; the scanner belongs to the mode,
and the last token with a style was one of its own. -/
structure Regular (k : Machine) : Prop where
  depth : k.stack.length = 1 ∨ k.stack.length = 2
  bottom : k.stack.getLast? = some .dispatcher
  once : k.stack.count .dispatcher = 1
  comment : ∀ syn, k.active = .scanner (.comment syn) →
    k.mode = .within syn.language ∧ k.memory = some (.style .comment)
  string : ∀ quote, k.active = .scanner (.string quote) →
    (quote = '"' ∨ quote = '\'') ∧ k.memory = some (.style .string)
  uri : k.active = .scanner .uri → k.mode = .within .theory ∧
    ∃ style ∈ [Style.operator, .metadata, .variable2], k.memory = some (.style style)

theorem Regular.top {k : Machine} (h : k.Regular) {sc : Scanner} (hsc : k.active = .scanner sc) :
    sc.BelongsTo k.mode ∧ ∃ style ∈ sc.styles, k.memory = some (.style style) := by
  cases sc with
  | comment syn =>
    obtain ⟨hmode, hmemory⟩ := h.comment syn hsc
    exact ⟨hmode, .comment, List.mem_singleton_self _, hmemory⟩
  | string quote =>
    obtain ⟨hquote, hmemory⟩ := h.string quote hsc
    exact ⟨hquote, .string, List.mem_singleton_self _, hmemory⟩
  | uri => exact h.uri hsc

theorem regular_ofState {st : State} (h : st.Steady) : (ofState st).Regular := by
  cases h with
  | idle mode memory =>
    have hactive : ∀ sc, (ofState ⟨[], mode, memory⟩).active ≠ .scanner sc :=
      fun sc hsc => Frame.noConfusion hsc
    refine ⟨.inl rfl, rfl, rfl, ?_, ?_, ?_⟩
    · intro syn h
      exact absurd h (hactive _)
    · intro quote h
      exact absurd h (hactive _)
    · intro h
      exact absurd h (hactive _)
  | @busy sc mode style hsc hstyle =>
    refine ⟨.inr rfl, rfl, rfl, ?_, ?_, ?_⟩
    · intro syn hactive
      cases hactive
      rw [List.mem_singleton.mp hstyle]
      exact ⟨hsc, rfl⟩
    · intro quote hactive
      cases hactive
      rw [List.mem_singleton.mp hstyle]
      exact ⟨hsc, rfl⟩
    · intro hactive
      cases hactive
      exact ⟨hsc, style, hstyle, rfl⟩

/-- A regular machine is a steady state on top of the dispatcher. -/
theorem Regular.exists_steady {k : Machine} (h : k.Regular) :
    ∃ st : State, st.Steady ∧ k = ofState st := by
  have hdepth := h.depth
  have hbottom := h.bottom
  have honce := h.once
  obtain ⟨stack, mode, memory⟩ := k
  match stack with
  | [] => simp at hdepth
  | [frame] =>
    cases hbottom
    exact ⟨_, .idle mode memory, rfl⟩
  | [frame, last] =>
    -- The dispatcher stands on the stack once, so that the frame above it is a scanner.
    cases hbottom
    cases frame with
    | dispatcher => simp at honce
    | scanner sc =>
      have hactive : (⟨[.scanner sc, .dispatcher], mode, memory⟩ : Machine).active = .scanner sc :=
        rfl
      obtain ⟨hsc, style, hstyle, hmemory⟩ := h.top hactive
      cases hmemory
      exact ⟨_, .busy hsc hstyle, rfl⟩
  | _ :: _ :: _ :: _ => simp at hdepth

theorem next_regular {k : Machine} (h : k.Regular) (c : Cursor) :
    ∃ call, k.next c = some call ∧ call.machine.Regular := by
  obtain ⟨st, hst, rfl⟩ := h.exists_steady
  exact ⟨_, next_ofState st c, regular_ofState (Cursor.next_steady hst c)⟩

theorem Reachable.regular {k : Machine} (h : k.Reachable) : k.Regular := by
  obtain ⟨st, hst, rfl⟩ := reachable_iff.mp h
  exact regular_ofState hst.steady

/-- In the shell only a string can be suspended. -/
theorem Regular.string_of_shell {k : Machine} (h : k.Regular) (hmode : k.mode = .shell)
    {sc : Scanner} (hsc : k.active = .scanner sc) : ∃ quote, sc = .string quote := by
  have hbelongs := (h.top hsc).1
  rw [hmode] at hbelongs
  cases sc with
  | comment syn => cases hbelongs
  | string quote => exact ⟨quote, rfl⟩
  | uri => cases hbelongs

/-- Every machine reached from the beginning of a document is regular, and no call
leaves the regular machines. -/
theorem stack_invariant :
    (∀ k : Machine, k.Reachable ↔ ∃ st : State, st.Reachable ∧ k = ofState st) ∧
      (∀ k : Machine, k.Reachable → k.Regular) ∧
      (∀ k : Machine, k.Regular → ∀ c, ∃ call, k.next c = some call ∧ call.machine.Regular) ∧
      ∀ k : Machine, k.Regular → k.mode = .shell → ∀ sc, k.active = .scanner sc →
        ∃ quote, sc = .string quote := by
  refine ⟨fun k => reachable_iff, fun k h => h.regular, fun k h c => next_regular h c, ?_⟩
  intro k h hmode sc hsc
  exact h.string_of_shell hmode hsc

/-- A quote at the end of a line leaves a string open. -/
theorem stack_invariant_open_string :
    ∃ call, start.next (.ofLine ['\'']) = some call ∧
      call.machine.stack = [.scanner (.string '\''), .dispatcher] ∧ call.machine.Regular := by
  have hcall := next_ofState State.start (.ofLine ['\''])
  refine ⟨_, hcall, ?_, stack_invariant.2.1 _ (.next .start hcall)⟩
  decide +kernel

end Machine
end Highlighter
