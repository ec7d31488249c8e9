/-
The styles and the remembered words that belong to a mode.

`Mode.vocabulary` lists the styles that a token can have in a mode, and `Mode.words`
the texts that can be remembered there.  A scanner only has styles of the mode that
it belongs to, a rule has a style of its own, and the style of a name is read off the
last token with a style, so that a name in a logic program has no style that would
follow the word `of`: nothing in a logic program is remembered as that word.
-/
import Highlighter.Proofs.Machine.Invariant
import Highlighter.Proofs.NameStyle

namespace Highlighter
namespace Mode

/-- The styles of the tokens of a mode. -/
def vocabulary : Mode → List Style
  | shell => [.keyword, .tag, .definition, .variable2, .number, .operator, .string]
  | within .grammar =>
    [.keyword, .builtin, .definition, .metadata, .variable1, .comment, .string, .number, .operator]
  | within .logic =>
    [.keyword, .builtin, .definition, .variable1, .variable2, .comment, .string, .number,
      .operator]
  | within .theory =>
    [.keyword, .builtin, .definition, .metadata, .variable1, .variable2, .variable3, .atom,
      .comment, .string, .number, .operator]

/-- The texts that can be remembered in a mode. -/
def words : Mode → List Text
  | shell => kernelCommands ++ toolCommands ++ toolAbbreviations
  | within .grammar => Sublanguage.keywords .grammar ++ Sublanguage.definers .grammar
  | within .logic => Sublanguage.keywords .logic ++ Sublanguage.definers .logic
  | within .theory => Sublanguage.keywords .theory ++ Sublanguage.definers .theory ++ [['❚']]

theorem Remembers.mem_words {m : Mode} {style : Style} {w : Text} (h : m.Remembers style w) :
    w ∈ m.words := by
  cases h with
  | kernelCommand hw => exact List.mem_append_left _ (List.mem_append_left _ hw)
  | toolCommand hw =>
    rcases hw with hw | hw
    · exact List.mem_append_left _ (List.mem_append_right _ hw)
    · exact List.mem_append_right _ hw
  | @keyword language _ hw =>
    cases language with
    | grammar | logic => exact List.mem_append_left _ hw
    | theory => exact List.mem_append_left _ (List.mem_append_left _ hw)
  | @definer language _ hw =>
    cases language with
    | grammar | logic => exact List.mem_append_right _ hw
    | theory => exact List.mem_append_left _ (List.mem_append_right _ hw)
  | moduleDelimiter => exact List.mem_append_right _ (List.mem_singleton_self _)

theorem mem_vocabulary_of_rule {m : Mode} {r : Rule} (hr : r ∈ m.rules) {style : Style}
    (h : r.action.fixedStyle? = some style) : style ∈ m.vocabulary := by
  have hall : ∀ r ∈ m.rules, ∀ style ∈ r.action.fixedStyle?, style ∈ m.vocabulary := by
    cases m with
    | shell => decide
    | within language => cases language <;> decide
  exact hall r hr style h

theorem string_mem_vocabulary (m : Mode) : .string ∈ m.vocabulary := by
  cases m with
  | shell => decide
  | within language => cases language <;> decide

theorem mem_vocabulary_of_nameStyleAfter {m : Mode} {last : Option (Style × Text)}
    {name : Text} {style : Style} (h : m.nameStyleAfter last name = some style) :
    style ∈ m.vocabulary := by
  cases m with
  | shell =>
    simp only [nameStyleAfter] at h
    repeat' split at h
    all_goals
      cases h
      try decide
  | within language =>
    cases language <;> simp only [nameStyleAfter] at h <;> repeat' split at h
    all_goals
      cases h
      decide

end Mode

theorem Scanner.mem_vocabulary {sc : Scanner} {m : Mode} (h : sc.BelongsTo m) {style : Style}
    (hstyle : style ∈ sc.styles) : style ∈ m.vocabulary := by
  cases sc with
  | comment syn =>
    obtain rfl : m = .within syn.language := h
    rw [List.mem_singleton.mp hstyle]
    cases syn <;> decide
  | string quote =>
    rw [List.mem_singleton.mp hstyle]
    exact m.string_mem_vocabulary
  | uri =>
    obtain rfl : m = .within .theory := h
    have hall : ∀ style ∈ uri.styles, style ∈ (Mode.within .theory).vocabulary := by decide
    exact hall style hstyle

namespace State

/-- What is suspended in a steady state belongs to its mode. -/
theorem Steady.belongsTo {st : State} (h : st.Steady) {sc : Scanner}
    (hsc : sc ∈ st.suspended) : sc.BelongsTo st.mode := by
  cases h with
  | idle mode memory => exact absurd hsc List.not_mem_nil
  | busy hbelongs hstyle =>
    rw [List.mem_singleton.mp hsc]
    exact hbelongs

/-- The tokens of a state have the styles of its mode, if its names have. -/
theorem read_style_mem {st : State} (h : st.Steady)
    (hname : ∀ name style, st.mode.nameStyle st.memory name = some style →
      style ∈ st.mode.vocabulary)
    {s : Text} {style : Style} (hstyle : (st.read s).token.style = some style) :
    style ∈ st.mode.vocabulary := by
  rcases read_styled_cases hstyle with ⟨sc, hsc, hscanner⟩ | ⟨c, rest, hfound, -, -⟩
  · exact Scanner.mem_vocabulary (h.belongsTo hsc) hscanner
  · rcases Mode.find_styled_cases hfound with ⟨-, hisName⟩ | ⟨r, hr, _, _, -, -, hfixed⟩ | rfl
    · exact hname _ _ hisName
    · exact Mode.mem_vocabulary_of_rule hr hfixed
    · exact st.mode.string_mem_vocabulary

theorem History.nameStyle_mem {calls : List Cursor.Call} {st : State} (h : History calls st)
    {name : Text} {style : Style} (hstyle : st.mode.nameStyle st.memory name = some style) :
    style ∈ st.mode.vocabulary := by
  rw [h.memory_eq, Mode.nameStyle_ofToken h.mayFollow] at hstyle
  exact Mode.mem_vocabulary_of_nameStyleAfter hstyle

theorem History.not_isOneOf_of {calls : List Cursor.Call} {st : State} (h : History calls st)
    (hmode : st.mode = .within .logic) : Memory.isOneOf (wordList ["of"]) st.memory = false := by
  have hlast := h.mayFollow
  rw [hmode] at hlast
  refine Bool.eq_false_iff.mpr fun hof => ?_
  rw [h.memory_eq, Mode.isOneOf_of_iff hlast] at hof
  exact Mode.ne_of_of_logic hlast hof

theorem History.memory_ne_none {calls : List Cursor.Call} {st : State} (h : History calls st)
    (hmode : st.mode ≠ .shell) : st.memory ≠ none := by
  intro hnone
  rw [h.memory_eq, Option.map_eq_none_iff] at hnone
  exact hmode (h.mode_of_unstyled hnone)

/-- A call from a state that can be reached makes a token of the vocabulary of the
mode or one without a style.  What such a state remembers is a style that is not
remembered by its text or a word of the mode; within a sublanguage it remembers
something, and in a logic program it does not remember the word `of`. -/
theorem mode_vocabulary {st : State} (h : st.Reachable) :
    (∀ c style, (Cursor.next st c).1 = some style → style ∈ st.mode.vocabulary) ∧
      (∀ style, st.memory = some (.style style) → style ∉ [Style.keyword, .atom, .tag]) ∧
      (∀ w, st.memory = some (.word w) → w ∈ st.mode.words) ∧
      (st.mode ≠ .shell → st.memory ≠ none) ∧
      (st.mode = .within .logic → Memory.isOneOf (wordList ["of"]) st.memory = false) := by
  obtain ⟨calls, hcalls⟩ := h.exists_history
  refine ⟨?_, ?_, ?_, hcalls.memory_ne_none, hcalls.not_isOneOf_of⟩
  · intro c style hstyle
    cases hend : c.isAtEnd with
    | true =>
      rw [Cursor.next_of_isAtEnd st hend] at hstyle
      cases hstyle
    | false =>
      rw [Cursor.next_of_not_isAtEnd st hend] at hstyle
      exact read_style_mem h.steady (fun _ _ => hcalls.nameStyle_mem) hstyle
  · intro style hmemory
    rw [hcalls.memory_eq] at hmemory
    obtain ⟨⟨last, text⟩, -, htoken⟩ := Option.map_eq_some_iff.mp hmemory
    obtain ⟨hplain, rfl⟩ := Memory.ofToken_eq_style_iff.mp htoken
    intro hword
    have hall : ∀ style ∈ [Style.keyword, .atom, .tag], style.isWordLike = true := by decide
    rw [hall last hword] at hplain
    exact absurd hplain.symm Bool.false_ne_true
  · intro w hmemory
    rw [hcalls.memory_eq] at hmemory
    obtain ⟨⟨style, text⟩, hlast, htoken⟩ := Option.map_eq_some_iff.mp hmemory
    obtain ⟨hword, rfl⟩ := Memory.ofToken_eq_word_iff.mp htoken
    exact (hcalls.remembers hlast hword).mem_words

/-- In a logic program that has just begun, a capital name behind the word `of`. -/
theorem mode_vocabulary_logic :
    ∃ st : State, st.Reachable ∧ st.mode = .within .logic ∧
      st.memory = some (.style .variable1) ∧
      (Cursor.next st (.ofLine "X".toList)).1 = some .variable2 ∧
      Memory.isOneOf (wordList ["of"]) st.memory = false ∧
      .variable2 ∈ st.mode.vocabulary := by
  have hlatched := Reachable.start.next (.ofLine "elpi".toList)
  have hnamed := hlatched.next (.ofLine "p".toList)
  have hst := hnamed.next (.ofLine "of".toList)
  have hstate : (Cursor.next (Cursor.next (Cursor.next start (.ofLine "elpi".toList)).2.1
      (.ofLine "p".toList)).2.1 (.ofLine "of".toList)).2.1 =
        ⟨[], .within .logic, some (.style .variable1)⟩ := by decide +kernel
  rw [hstate] at hst
  obtain ⟨hstyles, -, -, -, hof⟩ := mode_vocabulary hst
  have hstyle : (Cursor.next ⟨[], .within .logic, some (.style .variable1)⟩
      (.ofLine "X".toList)).1 = some .variable2 := by decide +kernel
  exact ⟨_, hst, rfl, rfl, hstyle, hof rfl, hstyles _ _ hstyle⟩

end State

/-- The styles that no token of a logic program has. -/
example : Style.all.filter (· ∉ (Mode.within .logic).vocabulary) =
    [.metadata, .variable3, .atom, .tag] := by decide

end Highlighter
