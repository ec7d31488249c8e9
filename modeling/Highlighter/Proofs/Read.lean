/-
What reading a token does to the mode and to the memory.

Only a definer in the shell changes the mode, and a token without a style changes
neither the mode nor the memory.  A name leaves the mode as it is, and its style is
the one part of a reading that depends on the memory.  A reading is a step of a suspended
scanner, white space at the end of a line, or what a rule found (`State.read_cases`), and
a finding with a style is a name, has the style of its rule, or opens a string
(`Mode.find_styled_cases`).
-/
import Highlighter.Proofs.Cut
import Highlighter.State

namespace Highlighter

theorem Cut.mode_eq {m : Mode} {suspended : List Scanner} {s : Text}
    (h : ∀ language, (cut m suspended s).origin ≠ .rule (.latch language)) :
    (cut m suspended s).mode = m := by
  rcases cut_cases m suspended s with ⟨_, sc, around, step, -, -, -, hcut⟩ | ⟨-, hcut⟩
  · rw [hcut]
  · rcases Mode.cut_cases m s with ⟨-, hblank⟩ | ⟨gap, c, rest, -, -, -, hfound⟩
    · rw [hcut, hblank]
    · rw [hcut, hfound] at h ⊢
      show (m.find c rest).modeAfter m = m
      unfold Finding.modeAfter
      split
      · case h_1 language hlatch => exact absurd (congrArg Origin.rule hlatch) (h language)
      · rfl

namespace Action

/-- The style of what an action makes, unless it is a name or has none. -/
def fixedStyle? : Action → Option Style
  | paint s => some s
  | latch _ => some .keyword
  | lineComment | openComment _ => some .comment
  | openString _ => some .string
  | openUri => some .variable2
  | name | leave => none

theorem style_eq_fixedStyle? {a : Action} (h : a ≠ .name) (m : Mode) (memory : Option Memory)
    (text : Text) : a.style m memory text = a.fixedStyle? := by
  cases a with
  | name => exact absurd rfl h
  | _ => rfl

end Action

namespace Mode

theorem find_styled_cases {m : Mode} {c : Char} {s text : Text} {memory : Option Memory}
    {style : Style} (h : (m.find c s).action.style m memory text = some style) :
    ((m.find c s).action = .name ∧ m.nameStyle memory text = some style) ∨
      (∃ r ∈ m.rules, ∃ taken rest, r.lexeme.split? (c :: s) = some (taken, rest) ∧
        m.find c s = ⟨r.action, taken, rest⟩ ∧ r.action.fixedStyle? = some style) ∨
      style = .string := by
  by_cases hname : (m.find c s).action = .name
  · rw [hname] at h
    exact Or.inl ⟨hname, h⟩
  · rw [Action.style_eq_fixedStyle? hname] at h
    rcases find_cases m c s with ⟨r, hr, hfind⟩ | ⟨-, hfind⟩
    · obtain ⟨⟨taken, rest⟩, hsplit, hf⟩ := Option.map_eq_some_iff.mp hfind
      rw [← hf] at h
      exact Or.inr (Or.inl ⟨r, hr, taken, rest, hsplit, hf.symm, h⟩)
    · have hunruled : ∀ style ∈ (unruled c).fixedStyle?, style = .string := by
        unfold unruled
        split <;> simp [Action.fixedStyle?]
      rw [hfind] at h
      exact Or.inr (Or.inr (hunruled style h))

end Mode

/-- Whether a token was cut with no scanner at work, by a rule or as white space. -/
def Origin.isDispatched : Origin → Bool
  | blank | rule _ => true
  | scanner _ _ => false

namespace State

/-- The same state with no scanner at work. -/
def idle (st : State) : State := { st with suspended := [] }

/-- Once all scanners have given up, the state reads as if none were at work. -/
theorem read_of_gaveUp {st : State} {s : Text} (h : ∀ sc ∈ st.suspended, sc.step s = none) :
    st.read s = st.idle.read s := by
  rw [read, read, Cut.cut_of_gaveUp st.mode h]
  rfl

/-- The reading of what a rule has found behind white space. -/
def found (st : State) (gap : Text) (f : Finding) : Reading :=
  let style := f.action.style st.mode st.memory f.extent.1
  ⟨⟨gap, f.extent.1, style, .rule f.action⟩, f.extent.2.1,
    ⟨f.extent.2.2, f.modeAfter st.mode, Memory.after st.memory style f.extent.1⟩⟩

/-- A reading is a step of a suspended scanner, or the white space at the end of a line, or
what a rule has found. -/
theorem read_cases (st : State) (s : Text) :
    (∃ sc ∈ st.suspended, ∃ step, sc.step s = some step ∧
        (st.read s).token = ⟨[], step.taken, some step.style, .scanner sc step.style⟩) ∨
      (s.all Unicode.isWhiteSpace = true ∧
        st.read s = ⟨⟨[], s, none, .blank⟩, [], ⟨[], st.mode, st.memory⟩⟩) ∨
      ∃ gap c rest, s = gap ++ c :: rest ∧ gap.all Unicode.isWhiteSpace = true ∧
        Unicode.isWhiteSpace c = false ∧ st.read s = st.found gap (st.mode.find c rest) := by
  rcases Cut.cut_cases st.mode st.suspended s with
    ⟨gaveUp, sc, around, step, hsuspended, -, hstep, hcut⟩ | ⟨-, hcut⟩
  · refine Or.inl ⟨sc, ?_, step, hstep, ?_⟩
    · rw [hsuspended]
      exact List.mem_append_right _ List.mem_cons_self
    · rw [read, hcut]
      rfl
  · rcases Mode.cut_cases st.mode s with ⟨hall, hblank⟩ | ⟨gap, c, rest, hs, hgap, hc, hfound⟩
    · refine Or.inr (Or.inl ⟨hall, ?_⟩)
      rw [read, hcut, hblank]
      rfl
    · refine Or.inr (Or.inr ⟨gap, c, rest, hs, hgap, hc, ?_⟩)
      rw [read, hcut, hfound]
      rfl

theorem mode_read_of_ne_latch {st : State} {s : Text}
    (h : ∀ language, (cut st.mode st.suspended s).origin ≠ .rule (.latch language)) :
    (st.read s).state.mode = st.mode := Cut.mode_eq h

theorem read_of_name {st : State} {s : Text}
    (h : (cut st.mode st.suspended s).origin = .rule .name) :
    (st.read s).token.style = st.mode.nameStyle st.memory (cut st.mode st.suspended s).text ∧
      (st.read s).state.mode = st.mode ∧ (st.read s).state.memory =
        Memory.after st.memory (st.read s).token.style (cut st.mode st.suspended s).text := by
  refine ⟨?_, mode_read_of_ne_latch fun language hlatch => ?_, rfl⟩
  · show (cut st.mode st.suspended s).origin.style _ _ _ = _
    rw [h]
    rfl
  · rw [h] at hlatch
    cases hlatch

theorem read_of_unstyled {st : State} {s : Text} (h : (st.read s).token.style = none) :
    (st.read s).state.mode = st.mode ∧ (st.read s).state.memory = st.memory := by
  constructor
  · refine mode_read_of_ne_latch fun language hlatch => ?_
    have hstyle : (cut st.mode st.suspended s).origin.style st.mode st.memory
      (cut st.mode st.suspended s).text = none := h
    rw [hlatch] at hstyle
    cases hstyle
  · show Memory.after st.memory (st.read s).token.style _ = _
    rw [h]
    rfl

theorem read_styled_cases {st : State} {s : Text} {style : Style}
    (h : (st.read s).token.style = some style) :
    (∃ sc ∈ st.suspended, style ∈ sc.styles) ∨
      ∃ c rest, (st.mode.find c rest).action.style st.mode st.memory
          (st.mode.find c rest).extent.1 = some style ∧
        (st.read s).token.text = (st.mode.find c rest).extent.1 ∧
        (st.read s).state.mode = (st.mode.find c rest).modeAfter st.mode := by
  rcases st.read_cases s with
    ⟨sc, hsc, step, hstep, htoken⟩ | ⟨-, hblank⟩ | ⟨gap, c, rest, -, -, -, hfound⟩
  · rw [htoken] at h
    have hsame : step.style = style := Option.some.inj h
    exact Or.inl ⟨sc, hsc, hsame ▸ Scanner.step_style_mem hstep⟩
  · rw [hblank] at h
    cases h
  · rw [hfound] at h ⊢
    exact Or.inr ⟨c, rest, h, rfl, rfl⟩

end State
end Highlighter
