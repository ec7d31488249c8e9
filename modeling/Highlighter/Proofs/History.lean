/-
What a state keeps of the calls before it.

A `State.History` is a sequence of calls from the beginning of a document on, with
the state after them.  The calls may be made at any positions of any lines, and
`History.lines` says that the calls which read lines one after the other are among
them.  The memory of a state is settled by the last token with a style of its
history (`History.memory_eq`).  `Mode.Remembers` lists the tokens that a mode
remembers by their text, and `History.remembers` says that no other token is
remembered that way, whichever mode it was read in.
-/
import Highlighter.Proofs.Cursor
import Highlighter.Proofs.Read
import Highlighter.Proofs.WholeWord

namespace Highlighter
namespace Memory

/-- What is remembered of a token with a style: the text of a keyword, of an atom or
of a tag, and the style of any other. -/
def ofToken : Style × Text → Memory
  | (.keyword, text) | (.atom, text) | (.tag, text) => .word text
  | (s, _) => .style s

theorem after_some (memory : Option Memory) (style : Style) (text : Text) :
    after memory (some style) text = some (ofToken (style, text)) := by
  cases style <;> rfl

theorem ofToken_eq_word_iff {style : Style} {text w : Text} :
    ofToken (style, text) = .word w ↔ style.isWordLike = true ∧ text = w := by
  cases style <;> simp [ofToken, Style.isWordLike]

theorem ofToken_eq_style_iff {style s : Style} {text : Text} :
    ofToken (style, text) = .style s ↔ style.isWordLike = false ∧ style = s := by
  cases style <;> simp [ofToken, Style.isWordLike]

end Memory

namespace Cursor

theorem call_of_isAtEnd (st : State) {c : Cursor} (h : c.isAtEnd = true) :
    call st c = ⟨(st.read c.rest).token.origin, none, st, c.startToken⟩ := by
  rw [call, next_of_isAtEnd st h]

theorem memory_call (st : State) (c : Cursor) :
    (call st c).state.memory =
      Memory.after st.memory (call st c).style (call st c).cursor.current := by
  cases h : c.isAtEnd with
  | true =>
    rw [call_of_isAtEnd st h]
    rfl
  | false =>
    rw [call_of_not_isAtEnd st h, current_afterToken]
    rfl

/-- The style and the text of a token, if it has a style. -/
def Call.styled? (call : Call) : Option (Style × Text) := call.style.map (·, call.cursor.current)

/-- The last token with a style. -/
def lastStyled? (calls : List Call) : Option (Style × Text) :=
  (calls.filterMap Call.styled?).getLast?

theorem lastStyled?_concat (calls : List Call) (call : Call) :
    lastStyled? (calls ++ [call]) = call.styled?.or (lastStyled? calls) := by
  rw [lastStyled?, List.filterMap_append, List.getLast?_append]
  cases h : call.styled? with
  | none => simp [h, lastStyled?]
  | some token => simp [h]

end Cursor

namespace State

/-- Calls that follow one another from the beginning of a document on, at any
positions of any lines, and the state after them. -/
inductive History : List Cursor.Call → State → Prop
  | start : History [] start
  | call {calls : List Cursor.Call} {st : State} (h : History calls st) (c : Cursor) :
    History (calls ++ [Cursor.call st c]) (Cursor.call st c).state

theorem History.reachable {calls : List Cursor.Call} {st : State} (h : History calls st) :
    st.Reachable := by
  induction h with
  | start => exact .start
  | call _ c ih => exact .next ih c

theorem Reachable.exists_history {st : State} (h : st.Reachable) : ∃ calls, History calls st := by
  induction h with
  | start => exact ⟨[], .start⟩
  | next _ c ih =>
    obtain ⟨calls, hcalls⟩ := ih
    exact ⟨_, .call hcalls c⟩

/-- Reading on to the end of a line continues a history. -/
theorem History.line {calls : List Cursor.Call} {st : State} (h : History calls st)
    (c : Cursor) : History (calls ++ Cursor.calls st c) (st.afterLine c.rest) := by
  fun_induction Cursor.calls st c generalizing calls with
  | case1 st c hc =>
    have hnil : c.rest = [] := List.isEmpty_iff.mp hc
    rw [hnil, afterLine_nil, List.append_nil]
    exact h
  | case2 st c hc _ ih =>
    have hlater := ih (h.call c)
    rw [List.append_assoc, List.singleton_append] at hlater
    rw [st.afterLine_of_call (Bool.eq_false_iff.mpr hc)]
    exact hlater

theorem History.lines {calls : List Cursor.Call} {st : State} (h : History calls st)
    (lines : List Text) : History (calls ++ st.calls lines) (lines.foldl afterLine st) := by
  induction lines generalizing calls st with
  | nil =>
    show History (calls ++ []) st
    rw [List.append_nil]
    exact h
  | cons line rest ih =>
    have hlater := ih (h.line (.ofLine line))
    rw [List.append_assoc] at hlater
    exact hlater

/-- The memory is what is to be remembered of the last token with a style. -/
theorem History.memory_eq {calls : List Cursor.Call} {st : State} (h : History calls st) :
    st.memory = (Cursor.lastStyled? calls).map Memory.ofToken := by
  induction h with
  | start => rfl
  | @call calls st _ c ih =>
    rw [Cursor.memory_call, Cursor.lastStyled?_concat, Cursor.Call.styled?]
    cases hstyle : (Cursor.call st c).style with
    | none => exact ih
    | some style => exact Memory.after_some _ _ _

end State

namespace Mode

/-- The tokens that are remembered by their text in a mode. -/
inductive Remembers : Mode → Style → Text → Prop
  | kernelCommand {w : Text} (h : w ∈ kernelCommands) : Remembers .shell .keyword w
  | toolCommand {w : Text} (h : w ∈ toolCommands ∨ w ∈ toolAbbreviations) :
    Remembers .shell .tag w
  | keyword {language : Sublanguage} {w : Text} (h : w ∈ language.keywords) :
    Remembers (.within language) .keyword w
  | definer {language : Sublanguage} {w : Text} (h : w ∈ language.definers) :
    Remembers (.within language) .keyword w
  | moduleDelimiter : Remembers (.within .theory) .atom ['❚']

/-- The rules of a mode whose tokens are remembered by their text. -/
def wordRules (m : Mode) : List Rule :=
  m.rules.filter fun r => r.action.fixedStyle?.any Style.isWordLike

theorem mem_wordRules {m : Mode} {r : Rule} (hr : r ∈ m.rules) {style : Style}
    (hstyle : r.action.fixedStyle? = some style) (hword : style.isWordLike = true) :
    r ∈ m.wordRules :=
  List.mem_filter.mpr ⟨hr, by rw [hstyle]; exact hword⟩

theorem wordRules_shell : shell.wordRules =
    [⟨.definer .grammar, .latch .grammar⟩, ⟨.definer .logic, .latch .logic⟩,
      ⟨.definer .theory, .latch .theory⟩] := rfl

theorem mem_wordRules_within {language : Sublanguage} {r : Rule}
    (hr : r ∈ (within language).wordRules) :
    r = ⟨.keyword language, .paint .keyword⟩ ∨ r = ⟨.definer language, .paint .keyword⟩ ∨
      language = .theory ∧ r = ⟨.moduleDelimiter, .paint .atom⟩ := by
  cases language with
  | grammar | logic =>
    rcases List.mem_cons.mp hr with rfl | hr
    · exact Or.inl rfl
    · exact Or.inr (Or.inl (List.mem_singleton.mp hr))
  | theory =>
    rcases List.mem_cons.mp hr with rfl | hr
    · exact Or.inr (Or.inr ⟨rfl, rfl⟩)
    · rcases List.mem_cons.mp hr with rfl | hr
      · exact Or.inl rfl
      · exact Or.inr (Or.inl (List.mem_singleton.mp hr))

/-- A name is remembered by its text only where it is a command of the shell. -/
theorem remembers_of_nameStyle {m : Mode} {memory : Option Memory} {name : Text} {style : Style}
    (h : m.nameStyle memory name = some style) (hword : style.isWordLike = true) :
    m.Remembers style name := by
  cases m with
  | shell =>
    rw [nameStyle, commandKind] at h
    by_cases hkernel : name ∈ kernelCommands
    · rw [if_pos hkernel] at h
      cases h
      exact .kernelCommand hkernel
    · rw [if_neg hkernel] at h
      by_cases htool : name ∈ toolCommands ∨ name ∈ toolAbbreviations
      · rw [if_pos htool] at h
        cases h
        exact .toolCommand htool
      · rw [if_neg htool] at h
        simp only at h
        split at h <;> cases h
        exact absurd hword (by decide)
  | within language =>
    have hplain : style.isWordLike = false := by
      cases language <;> simp only [nameStyle] at h <;> repeat' split at h
      all_goals
        cases h
        rfl
    rw [hplain] at hword
    exact absurd hword Bool.false_ne_true

theorem remembers_of_rule {m : Mode} {r : Rule} (hr : r ∈ m.rules) {s taken rest : Text}
    (hsplit : r.lexeme.split? s = some (taken, rest)) {style : Style}
    (hstyle : r.action.fixedStyle? = some style) (hword : style.isWordLike = true) :
    ((⟨r.action, taken, rest⟩ : Finding).modeAfter m).Remembers style
      (⟨r.action, taken, rest⟩ : Finding).extent.1 := by
  have hmem := mem_wordRules hr hstyle hword
  cases m with
  | shell =>
    rw [wordRules_shell] at hmem
    simp only [List.mem_cons, List.not_mem_nil, or_false] at hmem
    rcases hmem with rfl | rfl | rfl <;> cases hstyle <;>
      exact .definer (Lexeme.mem_definers_of_split? hsplit)
  | within language =>
    rcases mem_wordRules_within hmem with rfl | rfl | ⟨rfl, rfl⟩
    · cases hstyle
      exact .keyword (Lexeme.mem_keywords_of_split? hsplit)
    · cases hstyle
      exact .definer (Lexeme.mem_definers_of_split? hsplit)
    · cases hstyle
      have htaken : taken = ['❚'] := Pattern.eq_of_split?_char hsplit
      subst htaken
      exact .moduleDelimiter

theorem remembers_of_find {m : Mode} {c : Char} {s : Text} {memory : Option Memory}
    {style : Style}
    (hstyle : (m.find c s).action.style m memory (m.find c s).extent.1 = some style)
    (hword : style.isWordLike = true) :
    ((m.find c s).modeAfter m).Remembers style (m.find c s).extent.1 := by
  rcases find_styled_cases hstyle with
    ⟨hname, hnameStyle⟩ | ⟨r, hr, taken, rest, hsplit, hfind, hfixed⟩ | rfl
  · have hmode : (m.find c s).modeAfter m = m := by rw [Finding.modeAfter, hname]
    rw [hmode]
    exact remembers_of_nameStyle hnameStyle hword
  · rw [hfind]
    exact remembers_of_rule hr hsplit hfixed hword
  · exact absurd hword (by decide)

end Mode

namespace State

/-- A token that is remembered by its text is one that the mode behind it remembers. -/
theorem read_remembers {st : State} {s : Text} {style : Style}
    (hstyle : (st.read s).token.style = some style) (hword : style.isWordLike = true) :
    (st.read s).state.mode.Remembers style (st.read s).token.text := by
  rcases read_styled_cases hstyle with ⟨sc, -, hscanner⟩ | ⟨c, rest, hfound, htext, hmode⟩
  · rw [Scanner.isWordLike_of_mem_styles hscanner] at hword
    exact absurd hword Bool.false_ne_true
  · rw [htext, hmode]
    exact Mode.remembers_of_find hfound hword

end State

theorem Cursor.mode_call_of_unstyled {st : State} {c : Cursor}
    (h : (Cursor.call st c).style = none) : (Cursor.call st c).state.mode = st.mode := by
  cases hend : c.isAtEnd with
  | true => rw [call_of_isAtEnd st hend]
  | false =>
    rw [call_of_not_isAtEnd st hend] at h ⊢
    exact (State.read_of_unstyled h).1

theorem Cursor.call_remembers {st : State} {c : Cursor} {style : Style}
    (hstyle : (Cursor.call st c).style = some style) (hword : style.isWordLike = true) :
    (Cursor.call st c).state.mode.Remembers style (Cursor.call st c).cursor.current := by
  cases hend : c.isAtEnd with
  | true =>
    rw [call_of_isAtEnd st hend] at hstyle
    cases hstyle
  | false =>
    rw [call_of_not_isAtEnd st hend] at hstyle ⊢
    rw [current_afterToken]
    exact State.read_remembers hstyle hword

namespace State

/-- The last token with a style is one that the mode remembers, if it is remembered by
its text.  A token without a style in between leaves the mode as it is. -/
theorem History.remembers {calls : List Cursor.Call} {st : State} (h : History calls st)
    {style : Style} {text : Text} (hlast : Cursor.lastStyled? calls = some (style, text))
    (hword : style.isWordLike = true) : st.mode.Remembers style text := by
  induction h with
  | start => cases hlast
  | @call calls st _ c ih =>
    rw [Cursor.lastStyled?_concat, Cursor.Call.styled?] at hlast
    cases hstyle : (Cursor.call st c).style with
    | none =>
      rw [hstyle] at hlast
      rw [Cursor.mode_call_of_unstyled hstyle]
      exact ih hlast
    | some newest =>
      rw [hstyle] at hlast
      cases hlast
      exact Cursor.call_remembers hstyle hword

theorem History.mode_of_unstyled {calls : List Cursor.Call} {st : State} (h : History calls st)
    (hlast : Cursor.lastStyled? calls = none) : st.mode = .shell := by
  induction h with
  | start => rfl
  | @call calls st _ c ih =>
    rw [Cursor.lastStyled?_concat, Option.or_eq_none_iff, Cursor.Call.styled?,
      Option.map_eq_none_iff] at hlast
    rw [Cursor.mode_call_of_unstyled hlast.1]
    exact ih hlast.2

end State
end Highlighter
