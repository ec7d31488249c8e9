/-
How far back the style of a token looks.

Two runs over the same lines that begin with the same scanners and in the same mode,
and with any two memories, make the same tokens and go through the same scanners and
modes.  Their styles differ in one token at most, and it is a name.

What the rule for names sees of a memory is `Mode.view`.  `State.distance` is 0 for
two states that show it the same, and 1 for all others.  A name whose styles differ
uses the distance up: what is remembered of such a name shows the rule nothing, and
so does the memory that a name without a style leaves in place.  `Comparison` carries
this along the calls of a line and the lines of a document, with the distance as the
budget for the tokens that may still differ.
-/
import Highlighter.Proofs.Cursor
import Highlighter.Proofs.Read

namespace Highlighter
namespace Memory

/-- Whether the name that follows is defined in the shell. -/
def announces (memory : Option Memory) : Bool :=
  memory = some (.style .variable2) || isOneOf (wordList ["export", "import"]) memory

theorem after_of_ne_none {style : Option Style} (h : style ≠ none)
    (memory₁ memory₂ : Option Memory) (text : Text) :
    after memory₁ style text = after memory₂ style text := by
  cases style with
  | none => exact absurd rfl h
  | some style => rfl

end Memory

namespace Mode

/-- What the rule for names sees of the memory. -/
def view (m : Mode) (memory : Option Memory) : Bool × Bool :=
  match m with
  | shell => (Memory.announces memory, false)
  | within language => (Memory.isOneOf (Sublanguage.definers language) memory,
      Memory.isOneOf (wordList ["of"]) memory)

theorem nameStyle_shell (memory : Option Memory) {name : Text} (h : commandKind name = none) :
    shell.nameStyle memory name = if Memory.announces memory then some .definition else none := by
  simp [nameStyle, h, Memory.announces]

theorem nameStyle_shell_of_isSome {name : Text} {kind : CommandKind}
    (h : commandKind name = some kind) (memory₁ memory₂ : Option Memory) :
    shell.nameStyle memory₁ name = shell.nameStyle memory₂ name := by
  cases kind <;> simp only [nameStyle, h]

theorem nameStyle_congr {m : Mode} {memory₁ memory₂ : Option Memory}
    (h : m.view memory₁ = m.view memory₂) (name : Text) :
    m.nameStyle memory₁ name = m.nameStyle memory₂ name := by
  cases m with
  | shell =>
    have hannounces : Memory.announces memory₁ = Memory.announces memory₂ := (Prod.mk.inj h).1
    cases hkind : commandKind name with
    | some kind => exact nameStyle_shell_of_isSome hkind memory₁ memory₂
    | none => rw [nameStyle_shell memory₁ hkind, nameStyle_shell memory₂ hkind, hannounces]
  | within language =>
    have hdefiner : Memory.isOneOf (Sublanguage.definers language) memory₁ =
        Memory.isOneOf (Sublanguage.definers language) memory₂ := (Prod.mk.inj h).1
    have hof : Memory.isOneOf (wordList ["of"]) memory₁ =
        Memory.isOneOf (wordList ["of"]) memory₂ := (Prod.mk.inj h).2
    cases language <;> simp only [nameStyle, hdefiner, hof]

/-- Within a sublanguage a name has a style, and it is not remembered by its text. -/
theorem after_name_within (language : Sublanguage) (memory : Option Memory) (name : Text) :
    ∃ style, Memory.after memory ((within language).nameStyle memory name) name =
      some (.style style) := by
  cases language with
  | grammar =>
    simp only [nameStyle]
    split
    · exact ⟨_, rfl⟩
    · split <;> exact ⟨_, rfl⟩
  | logic =>
    simp only [nameStyle]
    split
    · exact ⟨_, rfl⟩
    · split
      · exact ⟨_, rfl⟩
      · split <;> exact ⟨_, rfl⟩
  | theory =>
    simp only [nameStyle]
    split <;> exact ⟨_, rfl⟩

theorem announces_after_name_shell (memory : Option Memory) {name : Text}
    (h : commandKind name = none) :
    Memory.announces (Memory.after memory (shell.nameStyle memory name) name) = false := by
  rw [nameStyle_shell memory h]
  cases hannounces : Memory.announces memory with
  | true => rfl
  | false => exact hannounces

/-- After a name that had two styles, the next name is told nothing by either memory. -/
theorem view_after_of_nameStyle_ne {m : Mode} {memory₁ memory₂ : Option Memory} {name : Text}
    (h : m.nameStyle memory₁ name ≠ m.nameStyle memory₂ name) :
    m.view (Memory.after memory₁ (m.nameStyle memory₁ name) name) =
      m.view (Memory.after memory₂ (m.nameStyle memory₂ name) name) := by
  cases m with
  | shell =>
    cases hkind : commandKind name with
    | some kind => exact absurd (nameStyle_shell_of_isSome hkind memory₁ memory₂) h
    | none => simp only [view, announces_after_name_shell _ hkind]
  | within language =>
    obtain ⟨style₁, hafter₁⟩ := after_name_within language memory₁ name
    obtain ⟨style₂, hafter₂⟩ := after_name_within language memory₂ name
    rw [hafter₁, hafter₂]
    rfl

end Mode

namespace State

/-- Two states in the same mode with the same scanners at work. -/
structure Alike (st₁ st₂ : State) : Prop where
  suspended : st₁.suspended = st₂.suspended
  mode : st₁.mode = st₂.mode

/-- How many tokens of two states may still differ in their styles. -/
def distance (st₁ st₂ : State) : Nat :=
  if st₁.mode.view st₁.memory = st₁.mode.view st₂.memory then 0 else 1

theorem distance_le_one (st₁ st₂ : State) : st₁.distance st₂ ≤ 1 := by
  unfold distance
  split <;> omega

theorem distance_of_memory_eq {st₁ st₂ : State} (h : st₁.memory = st₂.memory) :
    st₁.distance st₂ = 0 := by
  rw [distance, h, if_pos rfl]

section Alike

variable {st₁ st₂ : State} (h : st₁.Alike st₂) (s : Text)
include h

theorem Alike.cut_eq : cut st₁.mode st₁.suspended s = cut st₂.mode st₂.suspended s := by
  rw [h.mode, h.suspended]

theorem Alike.read : (st₁.read s).state.Alike (st₂.read s).state := by
  have hcut := h.cut_eq s
  exact ⟨congrArg Cut.suspended hcut, congrArg Cut.mode hcut⟩

theorem Alike.origin_of_style_ne (hne : (st₁.read s).token.style ≠ (st₂.read s).token.style) :
    (cut st₁.mode st₁.suspended s).origin = .rule .name := by
  by_cases horigin : (cut st₁.mode st₁.suspended s).origin = .rule .name
  · exact horigin
  · refine absurd ?_ hne
    have hstyle := Origin.style_eq_of_ne_name horigin st₁.mode st₁.memory st₂.memory
      (cut st₁.mode st₁.suspended s).text
    show (cut st₁.mode st₁.suspended s).origin.style st₁.mode st₁.memory _ =
      (cut st₂.mode st₂.suspended s).origin.style st₂.mode st₂.memory _
    rw [← h.cut_eq s, ← h.mode]
    exact hstyle

/-- A token with two styles uses the distance up. -/
theorem Alike.distance_of_style_ne
    (hne : (st₁.read s).token.style ≠ (st₂.read s).token.style) :
    (st₁.read s).state.distance (st₂.read s).state = 0 ∧ st₁.distance st₂ = 1 := by
  have hname₁ := h.origin_of_style_ne s hne
  have hname₂ : (cut st₂.mode st₂.suspended s).origin = .rule .name := by
    rw [← h.cut_eq s]
    exact hname₁
  obtain ⟨hstyle₁, hmode₁, hmemory₁⟩ := read_of_name hname₁
  obtain ⟨hstyle₂, -, hmemory₂⟩ := read_of_name hname₂
  rw [← h.cut_eq s, ← h.mode] at hstyle₂
  rw [hstyle₁, hstyle₂] at hne
  constructor
  · rw [distance, hmode₁, hmemory₁, hmemory₂, hstyle₁, hstyle₂, ← h.cut_eq s]
    exact if_pos (Mode.view_after_of_nameStyle_ne hne)
  · refine if_neg fun hview => hne ?_
    exact Mode.nameStyle_congr hview _

/-- A token with one style leaves the distance as it is, or ends it. -/
theorem Alike.distance_of_style_eq
    (hsame : (st₁.read s).token.style = (st₂.read s).token.style) :
    (st₁.read s).state.distance (st₂.read s).state ≤ st₁.distance st₂ := by
  by_cases hnone : (st₁.read s).token.style = none
  · obtain ⟨hmode₁, hmemory₁⟩ := read_of_unstyled hnone
    obtain ⟨-, hmemory₂⟩ := read_of_unstyled (hsame ▸ hnone)
    rw [distance, hmode₁, hmemory₁, hmemory₂]
    exact Nat.le_refl _
  · have hmemory : (st₁.read s).state.memory = (st₂.read s).state.memory := by
      show Memory.after st₁.memory (st₁.read s).token.style _ =
        Memory.after st₂.memory (st₂.read s).token.style _
      rw [← hsame, ← h.cut_eq s]
      exact Memory.after_of_ne_none hnone _ _ _
    rw [distance_of_memory_eq hmemory]
    exact Nat.zero_le _

end Alike
end State

namespace Cursor

/-- All of a call but its style and what is remembered after it. -/
def Call.outline (call : Call) : Origin × Cursor × List Scanner × Mode :=
  (call.origin, call.cursor, call.state.suspended, call.state.mode)

/-- How many calls of two runs differ in their styles. -/
def differing (calls₁ calls₂ : List Call) : Nat :=
  (calls₁.zip calls₂).countP fun p => p.1.style ≠ p.2.style

end Cursor

open Cursor (Call differing)

/-- Two runs of calls, from two states to two others, compared. -/
structure Comparison (st₁ st₂ : State) (calls₁ calls₂ : List Call) (st₁' st₂' : State) :
    Prop where
  outlines : calls₁.map Call.outline = calls₂.map Call.outline
  names : ∀ p ∈ calls₁.zip calls₂, p.1.style ≠ p.2.style →
    p.1.origin = .rule .name ∧ p.2.origin = .rule .name
  alike : st₁'.Alike st₂'
  budget : differing calls₁ calls₂ + st₁'.distance st₂' ≤ st₁.distance st₂

namespace Comparison

theorem nil {st₁ st₂ : State} (h : st₁.Alike st₂) : Comparison st₁ st₂ [] [] st₁ st₂ :=
  ⟨rfl, fun _ hp => absurd hp List.not_mem_nil, h, Nat.le_of_eq (Nat.zero_add _)⟩

theorem append {st₁ st₂ mid₁ mid₂ st₁' st₂' : State} {calls₁ calls₂ later₁ later₂ : List Call}
    (h : Comparison st₁ st₂ calls₁ calls₂ mid₁ mid₂)
    (hlater : Comparison mid₁ mid₂ later₁ later₂ st₁' st₂') :
    Comparison st₁ st₂ (calls₁ ++ later₁) (calls₂ ++ later₂) st₁' st₂' := by
  have hlength : calls₁.length = calls₂.length := by
    have hmap := congrArg List.length h.outlines
    rwa [List.length_map, List.length_map] at hmap
  have hzip : (calls₁ ++ later₁).zip (calls₂ ++ later₂) =
      calls₁.zip calls₂ ++ later₁.zip later₂ := List.zip_append hlength
  refine ⟨?_, ?_, hlater.alike, ?_⟩
  · rw [List.map_append, List.map_append, h.outlines, hlater.outlines]
  · intro p hp
    rw [hzip] at hp
    rcases List.mem_append.mp hp with hp | hp
    · exact h.names p hp
    · exact hlater.names p hp
  · have hsum : differing (calls₁ ++ later₁) (calls₂ ++ later₂) =
        differing calls₁ calls₂ + differing later₁ later₂ := by
      rw [differing, hzip, List.countP_append]
      rfl
    have hfirst := h.budget
    have hsecond := hlater.budget
    omega

theorem call {st₁ st₂ : State} (h : st₁.Alike st₂) {c : Cursor} (hc : c.isAtEnd = false) :
    Comparison st₁ st₂ [Cursor.call st₁ c] [Cursor.call st₂ c]
      (Cursor.call st₁ c).state (Cursor.call st₂ c).state := by
  have hcut := h.cut_eq c.rest
  rw [Cursor.call_of_not_isAtEnd st₁ hc, Cursor.call_of_not_isAtEnd st₂ hc]
  refine ⟨?_, ?_, h.read c.rest, ?_⟩
  · exact congrArg (fun cut : Cut => [(cut.origin,
      c.startToken.afterToken cut.gap cut.text cut.rest, cut.suspended, cut.mode)]) hcut
  · intro p hp hne
    rw [List.mem_singleton.mp hp] at hne ⊢
    have hname := h.origin_of_style_ne c.rest hne
    exact ⟨hname, (congrArg Cut.origin hcut).symm.trans hname⟩
  · by_cases hsame : (st₁.read c.rest).token.style = (st₂.read c.rest).token.style
    · have hdistance := h.distance_of_style_eq c.rest hsame
      simpa [differing, hsame] using hdistance
    · obtain ⟨hafter, hbefore⟩ := h.distance_of_style_ne c.rest hsame
      simp [differing, hsame, hafter, hbefore]

theorem line {st₁ st₂ : State} (h : st₁.Alike st₂) (c : Cursor) :
    Comparison st₁ st₂ (Cursor.calls st₁ c) (Cursor.calls st₂ c)
      (st₁.afterLine c.rest) (st₂.afterLine c.rest) := by
  -- The first run leads, and the second one moves the same cursor to the same places.
  fun_induction Cursor.calls st₁ c generalizing st₂ with
  | case1 st₁ c hc =>
    have hnil : c.rest = [] := List.isEmpty_iff.mp hc
    rw [Cursor.calls_of_isAtEnd st₂ hc, hnil, State.afterLine_nil, State.afterLine_nil]
    exact .nil h
  | case2 st₁ c hc _ ih =>
    have hc : c.isAtEnd = false := Bool.eq_false_iff.mpr hc
    have hfirst := call h hc
    have hcursor : (Cursor.call st₁ c).cursor = (Cursor.call st₂ c).cursor :=
      congrArg (fun outline => outline.2.1) (List.cons.inj hfirst.outlines).1
    have hlater := ih hfirst.alike
    rw [Cursor.calls_of_not_isAtEnd st₂ hc, State.afterLine_of_call st₁ hc,
      State.afterLine_of_call st₂ hc, ← hcursor]
    exact hfirst.append hlater

theorem lines {st₁ st₂ : State} (h : st₁.Alike st₂) (lines : List Text) :
    Comparison st₁ st₂ (st₁.calls lines) (st₂.calls lines)
      (lines.foldl State.afterLine st₁) (lines.foldl State.afterLine st₂) := by
  induction lines generalizing st₁ st₂ with
  | nil => exact .nil h
  | cons first rest ih =>
    have hfirst := line h (.ofLine first)
    exact hfirst.append (ih hfirst.alike)

end Comparison

/-- Two runs over the same lines that begin with the same scanners and in the same
mode make the same tokens with the same scanners and in the same modes, whatever is
remembered at the beginning, and their styles differ in one token at most, which is
a name. -/
theorem State.one_token_lookback (suspended : List Scanner) (mode : Mode)
    (memory₁ memory₂ : Option Memory) (lines : List Text) :
    let calls₁ := State.calls ⟨suspended, mode, memory₁⟩ lines
    let calls₂ := State.calls ⟨suspended, mode, memory₂⟩ lines
    calls₁.map Call.outline = calls₂.map Call.outline ∧ differing calls₁ calls₂ ≤ 1 ∧
      ∀ p ∈ calls₁.zip calls₂, p.1.style ≠ p.2.style →
        p.1.origin = .rule .name ∧ p.2.origin = .rule .name := by
  intro calls₁ calls₂
  have halike : State.Alike ⟨suspended, mode, memory₁⟩ ⟨suspended, mode, memory₂⟩ := ⟨rfl, rfl⟩
  have hlines := Comparison.lines halike lines
  have hbudget := hlines.budget
  have hdistance := State.distance_le_one ⟨suspended, mode, memory₁⟩ ⟨suspended, mode, memory₂⟩
  refine ⟨hlines.outlines, ?_, hlines.names⟩
  show differing (State.calls _ lines) (State.calls _ lines) ≤ 1
  omega

/-- A name behind an option shows that one token may differ. -/
example :
    Cursor.differing (State.calls ⟨[], .shell, none⟩ ["x y".toList])
      (State.calls ⟨[], .shell, some (.style .variable2)⟩ ["x y".toList]) = 1 := by
  decide +kernel

end Highlighter
