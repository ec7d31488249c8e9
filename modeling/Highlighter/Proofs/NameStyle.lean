/-
The style of a name as a function of the tokens before it.

The rule for names asks the memory for words.  `Mode.nameStyleAfter` gives the style
of a name without a memory, from the last token with a style and its text.  The two
agree wherever that token is one that the mode remembers: within a sublanguage only
keywords are remembered by a word that the rule asks for, and in a logic program the
word `of` is never remembered at all.
-/
import Highlighter.Proofs.History

namespace Highlighter
namespace Memory

theorem isOneOf_iff {words : List Text} {memory : Option Memory} :
    isOneOf words memory = true ↔ ∃ w ∈ words, memory = some (.word w) := by
  cases memory with
  | none => simp [isOneOf]
  | some m => cases m <;> simp [isOneOf]

theorem isOneOf_ofToken_iff {words : List Text} {last : Option (Style × Text)} :
    isOneOf words (last.map ofToken) = true ↔
      ∃ style, ∃ w ∈ words, last = some (style, w) ∧ style.isWordLike = true := by
  rw [isOneOf_iff]
  constructor
  · rintro ⟨w, hw, hmap⟩
    obtain ⟨⟨style, text⟩, hlast, htoken⟩ := Option.map_eq_some_iff.mp hmap
    obtain ⟨hword, rfl⟩ := ofToken_eq_word_iff.mp htoken
    exact ⟨style, text, hw, hlast, hword⟩
  · rintro ⟨style, w, hw, rfl, hword⟩
    exact ⟨w, hw, congrArg some (ofToken_eq_word_iff.mpr ⟨hword, rfl⟩)⟩

end Memory

namespace Mode

/-- What the style of a name is, given the last token with a style before it. -/
def nameStyleAfter (m : Mode) (last : Option (Style × Text)) (name : Text) : Option Style :=
  match m with
  | shell =>
    match commandKind name with
    | some .kernel => some .keyword
    | some .grammarTool => some .tag
    | none =>
      if last.map Prod.fst = some .variable2 ∨ last = some (.tag, "import".toList) ∨
          last = some (.keyword, "export".toList) then some .definition
      else none
  | within .grammar =>
    if ∃ w ∈ Sublanguage.definers .grammar, last = some (.keyword, w) then some .definition
    else if last = some (.keyword, "of".toList) then some .metadata
    else some .variable1
  | within .logic =>
    if last = some (.keyword, "elpi".toList) then some .definition
    else if Unicode.lowercase name ≠ name then some .variable2
    else some .variable1
  | within .theory =>
    if ∃ w ∈ Sublanguage.definers .theory, last = some (.keyword, w) then some .definition
    else some .variable1

/-- Whether a token can be the last one with a style in a mode, as far as it is
remembered by its text. -/
def MayFollow (m : Mode) (last : Option (Style × Text)) : Prop :=
  ∀ style text, last = some (style, text) → style.isWordLike = true → m.Remembers style text

section

variable {last : Option (Style × Text)}

/-- Within a sublanguage a word is that of a keyword, unless it is the mark at the end
of a module. -/
theorem isOneOf_within_iff {language : Sublanguage} (h : (within language).MayFollow last)
    {words : List Text} (hwords : ['❚'] ∉ words) :
    Memory.isOneOf words (last.map Memory.ofToken) = true ↔
      ∃ w ∈ words, last = some (.keyword, w) := by
  rw [Memory.isOneOf_ofToken_iff]
  constructor
  · rintro ⟨style, w, hw, hlast, hword⟩
    have hremembers := h style w hlast hword
    generalize hm : within language = m at hremembers
    cases hremembers with
    | kernelCommand _ | toolCommand _ => cases hm
    | keyword _ | definer _ => exact ⟨w, hw, hlast⟩
    | moduleDelimiter => exact absurd hw hwords
  · rintro ⟨w, hw, hlast⟩
    exact ⟨.keyword, w, hw, hlast, rfl⟩

theorem isOneOf_definers_iff {language : Sublanguage} (h : (within language).MayFollow last) :
    Memory.isOneOf language.definers (last.map Memory.ofToken) = true ↔
      ∃ w ∈ language.definers, last = some (.keyword, w) :=
  isOneOf_within_iff h (by cases language <;> decide +kernel)

theorem isOneOf_of_iff {language : Sublanguage} (h : (within language).MayFollow last) :
    Memory.isOneOf (wordList ["of"]) (last.map Memory.ofToken) = true ↔
      last = some (.keyword, "of".toList) := by
  rw [isOneOf_within_iff h (by decide)]
  simp [wordList]

/-- No token of a logic program is remembered as `of`, which is no keyword there. -/
theorem ne_of_of_logic (h : (within .logic).MayFollow last) :
    last ≠ some (.keyword, "of".toList) := by
  intro hlast
  have hremembers := h .keyword "of".toList hlast rfl
  generalize hm : within .logic = m at hremembers
  cases hremembers with
  | kernelCommand _ => cases hm
  | keyword hw =>
    cases hm
    exact absurd hw (by decide +kernel)
  | definer hw =>
    cases hm
    exact absurd hw (by decide +kernel)

/-- Of the two words that the shell asks for, one is a command of the tool and the
other one of the kernel. -/
theorem isOneOf_shell_iff (h : shell.MayFollow last) :
    Memory.isOneOf (wordList ["export", "import"]) (last.map Memory.ofToken) = true ↔
      last = some (.tag, "import".toList) ∨ last = some (.keyword, "export".toList) := by
  rw [Memory.isOneOf_ofToken_iff]
  constructor
  · rintro ⟨style, w, hw, hlast, hword⟩
    have hremembers := h style w hlast hword
    have hcases : w = "export".toList ∨ w = "import".toList := by simpa [wordList] using hw
    generalize hm : shell = m at hremembers
    cases hremembers with
    | kernelCommand hkernel =>
      rcases hcases with rfl | rfl
      · exact Or.inr hlast
      · exact absurd hkernel (by decide +kernel)
    | toolCommand htool =>
      rcases hcases with rfl | rfl
      · exact absurd htool (by decide +kernel)
      · exact Or.inl hlast
    | keyword _ | definer _ | moduleDelimiter => cases hm
  · rintro (hlast | hlast)
    · exact ⟨.tag, _, by decide, hlast, rfl⟩
    · exact ⟨.keyword, _, by decide, hlast, rfl⟩

theorem map_ofToken_eq_variable2_iff :
    last.map Memory.ofToken = some (.style .variable2) ↔
      last.map Prod.fst = some .variable2 := by
  cases last with
  | none => simp
  | some token =>
    obtain ⟨style, text⟩ := token
    cases style <;> simp [Memory.ofToken]

/-- The memory tells the rule for names what the last token with a style tells it. -/
theorem nameStyle_ofToken {m : Mode} (h : m.MayFollow last) (name : Text) :
    m.nameStyle (last.map Memory.ofToken) name = m.nameStyleAfter last name := by
  cases m with
  | shell =>
    rw [nameStyle, nameStyleAfter]
    cases commandKind name with
    | some kind => cases kind <;> rfl
    | none => simp only [isOneOf_shell_iff h, map_ofToken_eq_variable2_iff]
  | within language =>
    cases language with
    | grammar => simp only [nameStyle, nameStyleAfter, isOneOf_definers_iff h, isOneOf_of_iff h]
    | logic =>
      have helpi : (∃ w ∈ Sublanguage.definers .logic, last = some (.keyword, w)) ↔
          last = some (.keyword, "elpi".toList) := by simp [Sublanguage.definers, wordList]
      simp only [nameStyle, nameStyleAfter, isOneOf_definers_iff h, isOneOf_of_iff h, helpi,
        if_neg (ne_of_of_logic h)]
    | theory => simp only [nameStyle, nameStyleAfter, isOneOf_definers_iff h]

end

theorem Remembers.head {m : Mode} {style : Style} {w : Text} (h : m.Remembers style w) :
    ∃ c t, w = c :: t ∧ Unicode.isWhiteSpace c = false := by
  have hwords : ∀ words : List Text,
      (words.all fun w => w.head?.any fun c => !Unicode.isWhiteSpace c) = true → w ∈ words →
        ∃ c t, w = c :: t ∧ Unicode.isWhiteSpace c = false := by
    intro words hall hw
    have hhead := List.all_eq_true.mp hall w hw
    cases w with
    | nil => exact absurd hhead (by decide)
    | cons c t => exact ⟨c, t, rfl, by simpa using hhead⟩
  cases h with
  | kernelCommand hw => exact hwords _ (by decide +kernel) hw
  | toolCommand hw =>
    rcases hw with hw | hw
    · exact hwords _ (by decide +kernel) hw
    · exact hwords _ (by decide +kernel) hw
  | @keyword language _ hw => exact hwords _ (by cases language <;> decide +kernel) hw
  | @definer language _ hw => exact hwords _ (by cases language <;> decide +kernel) hw
  | moduleDelimiter => exact ⟨_, _, rfl, rfl⟩

end Mode

namespace State

theorem History.mayFollow {calls : List Cursor.Call} {st : State} (h : History calls st) :
    st.mode.MayFollow (Cursor.lastStyled? calls) :=
  fun _ _ hlast hword => h.remembers hlast hword

/-- At the end of a line no rule is asked. -/
theorem origin_read_nil (st : State) (a : Action) : (st.read []).token.origin ≠ .rule a := by
  intro h
  have horigin : (cut st.mode st.suspended []).origin = .rule a := h
  rcases Cut.cut_cases st.mode st.suspended [] with ⟨_, _, _, _, -, -, -, hcut⟩ | ⟨-, hcut⟩
  · rw [hcut] at horigin
    cases horigin
  · rw [hcut] at horigin
    cases horigin

end State

theorem Cursor.call_of_rule {st : State} {c : Cursor} {a : Action}
    (h : (Cursor.call st c).origin = .rule a) : c.isAtEnd = false := by
  refine Bool.eq_false_iff.mpr fun hend => ?_
  have hnil : c.rest = [] := List.isEmpty_iff.mp hend
  have horigin : (st.read c.rest).token.origin = .rule a := h
  rw [hnil] at horigin
  exact State.origin_read_nil st a horigin

namespace State

/-- What a state remembers, and the style of the next name, are settled by the last
token with a style in the whole history: nothing is remembered if there is none, the
text of a keyword, an atom or a tag without white space in front of it, and the style
of any other; and a name has the style that `Mode.nameStyleAfter` reads off that
token. -/
theorem name_style_of_history {calls : List Cursor.Call} {st : State} (h : History calls st) :
    st.memory = (Cursor.lastStyled? calls).map Memory.ofToken ∧
      (∀ w, st.memory = some (.word w) → ∃ c t, w = c :: t ∧ Unicode.isWhiteSpace c = false) ∧
      ∀ c : Cursor, (Cursor.call st c).origin = .rule .name →
        (Cursor.call st c).style = st.mode.nameStyleAfter (Cursor.lastStyled? calls)
          (Cursor.call st c).cursor.current := by
  have hmemory := h.memory_eq
  refine ⟨hmemory, ?_, ?_⟩
  · intro w hw
    rw [hmemory] at hw
    obtain ⟨⟨style, text⟩, hlast, htoken⟩ := Option.map_eq_some_iff.mp hw
    obtain ⟨hword, rfl⟩ := Memory.ofToken_eq_word_iff.mp htoken
    exact (h.remembers hlast hword).head
  · intro c hname
    have hend := Cursor.call_of_rule hname
    rw [Cursor.call_of_not_isAtEnd st hend] at hname ⊢
    rw [Cursor.current_afterToken, ← Mode.nameStyle_ofToken h.mayFollow, ← hmemory]
    exact (read_of_name hname).1

/-- The name after the word that opens a grammar is the name defined. -/
theorem name_style_of_history_concrete :
    ∃ calls st c, History calls st ∧ (Cursor.call st c).origin = .rule .name ∧
      Cursor.lastStyled? calls = some (.keyword, "concrete".toList) ∧
      (Cursor.call st c).style = some .definition := by
  have hcalls := History.start.call (.ofLine "concrete".toList)
  have hstate : (Cursor.call start (.ofLine "concrete".toList)).state =
      ⟨[], .within .grammar, some (.word "concrete".toList)⟩ := by decide +kernel
  have hlast : Cursor.lastStyled? ([] ++ [Cursor.call start (.ofLine "concrete".toList)]) =
      some (.keyword, "concrete".toList) := by decide +kernel
  rw [hstate] at hcalls
  have hname : (Cursor.call ⟨[], .within .grammar, some (.word "concrete".toList)⟩
      (.ofLine "X".toList)).origin = .rule .name := by decide +kernel
  have hstyle := (name_style_of_history hcalls).2.2 _ hname
  rw [hlast] at hstyle
  exact ⟨_, _, _, hcalls, hname, hlast, hstyle⟩

end State
end Highlighter
