/-
Reserved words and the styles of their tokens.

`Mode.reserved` lists the words of a mode that are reserved for a style.  The token of a rule
has such a style exactly where its text is one of these words (`Mode.style_find_iff`).  One
direction reads off the rules whose words they are.  For the other one, the rules with other
lexemes begin with characters that no reserved word begins with, and a name is never a reserved
word: where an identifier ends a word ends as well, so that the rule for the word would have
found it first.
-/
import Highlighter.Proofs.History
import Highlighter.Proofs.RuleOrder

namespace Highlighter
namespace Lexeme

/-- Every word character may be part of an identifier. -/
theorem isIdentifierPart_of_isWordCharacter {c : Char} (h : Unicode.isWordCharacter c = true) :
    isIdentifierPart c = true := by
  obtain ⟨r, hr, hfirst, hlast⟩ :=
    (Unicode.RangeTable.contains_iff Unicode.wordCharacterTable_ascending _).mp h
  have hranges : ∀ r ∈ Unicode.wordCharacterTable, 0xA1 ≤ r.1 ∨
      r ∈ [(0x30, 0x39), (0x41, 0x5A), (0x5F, 0x5F), (0x61, 0x7A)] := by
    decide +kernel
  rw [isIdentifierPart, isIdentifierStart]
  rcases hranges r hr with hbeyond | hascii
  · rw [decide_eq_true (Nat.le_trans hbeyond hfirst), Bool.or_true, Bool.true_or]
  · simp only [List.mem_cons, List.not_mem_nil, or_false] at hascii
    rcases hascii with rfl | rfl | rfl | rfl
    · have hdigit : c.isDigit = true :=
        Bool.and_eq_true_iff.mpr ⟨decide_eq_true hfirst, decide_eq_true hlast⟩
      rw [hdigit, Bool.or_true]
    · have hupper : c.isUpper = true := decide_eq_true ⟨hfirst, hlast⟩
      have hletter : c.isAlpha = true := Bool.or_eq_true_iff.mpr (Or.inl hupper)
      rw [hletter, Bool.or_true, Bool.true_or, Bool.true_or]
    · have hunderscore : c = '_' := Char.toNat_inj.mp (Nat.le_antisymm hlast hfirst)
      rw [hunderscore]
      rfl
    · have hlower : c.isLower = true :=
        Bool.and_eq_true_iff.mpr ⟨decide_eq_true hfirst, decide_eq_true hlast⟩
      have hletter : c.isAlpha = true := Bool.or_eq_true_iff.mpr (Or.inr hlower)
      rw [hletter, Bool.or_true, Bool.true_or, Bool.true_or]

theorem isWordCharacter_of_mem_words {x : Lexeme} {words : List Text}
    (h : x.words? = some words) :
    ∀ word ∈ words, word ≠ [] ∧ word.all Unicode.isWordCharacter = true := by
  cases x with
  | keyword language | builtin language | definer language =>
    obtain rfl := Option.some.inj h
    cases language <;> decide +kernel
  | _ => exact absurd h (by simp [words?])

/-- A reserved word is found wherever it stands as a whole word. -/
theorem split?_of_mem_words {x : Lexeme} {words : List Text} (h : x.words? = some words)
    {word rest : Text} (hword : word ∈ words)
    (hend : ∀ c ∈ rest.head?, Unicode.isWordCharacter c = false) :
    x.split? (word ++ rest) = some (word, rest) := by
  rw [split?, pattern_of_words h]
  exact Pattern.split?_wholeWord_append (isWordCharacter_of_mem_words h) hword hend

theorem mem_words_of_split? {x : Lexeme} {words : List Text} (h : x.words? = some words)
    {s taken rest : Text} (hsplit : x.split? s = some (taken, rest)) : taken ∈ words := by
  rw [split?, pattern_of_words h] at hsplit
  exact Pattern.mem_of_split?_wholeWord hsplit

end Lexeme

namespace Mode

/-- The words of a mode that are reserved for a style. -/
def reserved : Mode → Style → List Text
  | shell, .keyword =>
    kernelCommands ++ [Sublanguage.grammar, .logic, .theory].flatMap Sublanguage.definers
  | shell, .tag => toolCommands ++ toolAbbreviations
  | within language, .keyword => language.keywords ++ language.definers
  | within language, .builtin => language.builtins
  | _, _ => []

/-- The styles that words can be reserved for. -/
def reservedStyles : List Style := [.keyword, .builtin, .tag]

theorem reserved_pairwise (m : Mode) :
    reservedStyles.Pairwise fun style other =>
      ∀ word ∈ m.reserved style, word ∉ m.reserved other := by
  cases m with
  | shell => decide +kernel
  | within language => cases language <;> decide +kernel

/-- No word is reserved for two styles. -/
theorem eq_of_mem_reserved {m : Mode} {word : Text} {style other : Style}
    (hstyle : style ∈ reservedStyles) (hother : other ∈ reservedStyles)
    (h : word ∈ m.reserved style) (h' : word ∈ m.reserved other) : style = other := by
  have happart := m.reserved_pairwise.imp (S := fun style other =>
    word ∈ m.reserved style → word ∈ m.reserved other → style = other)
    fun hdisjoint hs ho => absurd ho (hdisjoint word hs)
  have hflip := m.reserved_pairwise.imp (S := flip fun style other =>
    word ∈ m.reserved style → word ∈ m.reserved other → style = other)
    fun hdisjoint ho hs => absurd ho (hdisjoint word hs)
  exact happart.forall_of_forall_of_flip (fun _ _ _ _ => rfl) hflip hstyle hother h h'

/-- The words of a rule are reserved for its style. -/
theorem mem_reserved_of_words {m : Mode} {r : Rule} (hr : r ∈ m.rules) {words : List Text}
    (hwords : r.lexeme.words? = some words) :
    r.action.goesOn = false ∧ r.action ≠ .name ∧ ∃ style ∈ reservedStyles,
      r.action.fixedStyle? = some style ∧ ∀ word ∈ words, word ∈ m.reserved style := by
  have hall : ∀ r ∈ m.rules, ∀ words ∈ r.lexeme.words?,
      r.action.goesOn = false ∧ r.action ≠ .name ∧ ∃ style ∈ reservedStyles,
        r.action.fixedStyle? = some style ∧ ∀ word ∈ words, word ∈ m.reserved style := by
    cases m with
    | shell => decide +kernel
    | within language => cases language <;> decide +kernel
  exact hall r hr words hwords

/-- Only rules for words have a style that words are reserved for. -/
theorem words_of_reservedStyle {m : Mode} {r : Rule} (hr : r ∈ m.rules) {style : Style}
    (hfixed : r.action.fixedStyle? = some style) (hstyle : style ∈ reservedStyles) :
    ∃ words, r.lexeme.words? = some words := by
  have hall : ∀ r ∈ m.rules, ∀ style ∈ r.action.fixedStyle?, style ∈ reservedStyles →
      r.lexeme.words?.isSome = true := by
    cases m with
    | shell => decide
    | within language => cases language <;> decide
  exact Option.isSome_iff_exists.mp (hall r hr style hfixed hstyle)

/-- Whether an identifier begins with a character, and no rule but those for words, for
identifiers and for the scheme of a URI. -/
def isWordInitial (m : Mode) (c : Char) : Bool :=
  !Unicode.isWhiteSpace c && Lexeme.isIdentifierStart c && m.rules.all fun r =>
    r.lexeme.words?.isSome || r.lexeme == .identifier || r.lexeme == .uriScheme ||
      !r.lexeme.pattern.mayBegin c

theorem isWordInitial_of_mem_reserved {m : Mode} {style : Style} (hstyle : style ∈ reservedStyles)
    {c : Char} {t : Text} (h : c :: t ∈ m.reserved style) : m.isWordInitial c = true := by
  have hall : ∀ style ∈ reservedStyles,
      (m.reserved style).all (fun word => word.head?.all m.isWordInitial) = true := by
    cases m with
    | shell => decide +kernel
    | within language => cases language <;> decide +kernel
  exact List.all_eq_true.mp (hall style hstyle) _ h

theorem first_of_mem_reserved {m : Mode} {style : Style} (hstyle : style ∈ reservedStyles)
    {c : Char} {t : Text} (h : c :: t ∈ m.reserved style) :
    Unicode.isWhiteSpace c = false ∧ Lexeme.isIdentifierStart c = true ∧
      ∀ r ∈ m.rules, r.lexeme.words? = none → r.lexeme ≠ .identifier → r.lexeme ≠ .uriScheme →
        r.lexeme.pattern.mayBegin c = false := by
  have hinitial := isWordInitial_of_mem_reserved hstyle h
  rw [isWordInitial, Bool.and_eq_true, Bool.and_eq_true, Bool.not_eq_true'] at hinitial
  obtain ⟨⟨hspace, hstart⟩, hrules⟩ := hinitial
  refine ⟨hspace, hstart, fun r hr hwords hidentifier hscheme => ?_⟩
  simpa [hwords, hidentifier, hscheme] using List.all_eq_true.mp hrules r hr

theorem scheme_not_mem_reserved {m : Mode} {r : Rule} (hr : r ∈ m.rules)
    (hscheme : r.lexeme = .uriScheme) {style : Style} (hstyle : style ∈ reservedStyles) :
    r.action.goesOn = false ∧ "http".toList ∉ m.reserved style := by
  have hall : ∀ r ∈ m.rules, r.lexeme = .uriScheme → ∀ style ∈ reservedStyles,
      r.action.goesOn = false ∧ "http".toList ∉ m.reserved style := by
    cases m with
    | shell => decide +kernel
    | within language => cases language <;> decide +kernel
  exact hall r hr hscheme style hstyle

/-- A reserved word is asked for before names, or it is a command, which is a name with the
style that it is reserved for. -/
theorem reserved_cases {m : Mode} {style : Style} {word : Text} (h : word ∈ m.reserved style) :
    (∃ x ∈ m.lexemesBefore .name, ∃ words, x.words? = some words ∧ word ∈ words) ∨
      ∀ memory, m.nameStyle memory word = some style := by
  cases m with
  | shell =>
    cases style with
    | keyword =>
      rcases List.mem_append.mp h with hkernel | hdefiner
      · refine Or.inr fun memory => ?_
        rw [nameStyle, commandKind, if_pos hkernel]
      · obtain ⟨language, -, hword⟩ := List.mem_flatMap.mp hdefiner
        exact Or.inl ⟨.definer language, by cases language <;> decide, _, rfl, hword⟩
    | tag =>
      have hkernel : word ∉ kernelCommands := by
        intro hkernel
        have heq : Style.keyword = .tag := eq_of_mem_reserved (m := shell) (by decide) (by decide)
          (List.mem_append_left _ hkernel) h
        cases heq
      refine Or.inr fun memory => ?_
      rw [nameStyle, commandKind, if_neg hkernel, if_pos (List.mem_append.mp h)]
    | _ => exact absurd h List.not_mem_nil
  | within language =>
    cases style with
    | keyword =>
      rcases List.mem_append.mp h with hword | hword
      · exact Or.inl ⟨.keyword language, by cases language <;> decide, _, rfl, hword⟩
      · exact Or.inl ⟨.definer language, by cases language <;> decide, _, rfl, hword⟩
    | builtin => exact Or.inl ⟨.builtin language, by cases language <;> decide, _, rfl, h⟩
    | _ => exact absurd h List.not_mem_nil

theorem Remembers.mem_reserved {m : Mode} {style : Style} {word : Text}
    (h : m.Remembers style word) (hstyle : style ∈ reservedStyles) : word ∈ m.reserved style := by
  cases h with
  | kernelCommand hword => exact List.mem_append_left _ hword
  | toolCommand hword => exact List.mem_append.mpr hword
  | keyword hword => exact List.mem_append_left _ hword
  | definer hword => exact List.mem_append_right _ hword
  | moduleDelimiter => exact absurd hstyle (by decide)

theorem mem_reserved_of_nameStyle {m : Mode} {memory : Option Memory} {name : Text}
    {style : Style} (hstyle : style ∈ reservedStyles)
    (h : m.nameStyle memory name = some style) : name ∈ m.reserved style := by
  have hbuiltin : style ≠ .builtin := by
    rintro rfl
    cases m with
    | shell =>
      simp only [nameStyle] at h
      repeat' split at h
      all_goals cases h
    | within language =>
      cases language <;> simp only [nameStyle] at h <;> repeat' split at h
      all_goals cases h
  have hword : ∀ style ∈ reservedStyles, style ≠ .builtin → style.isWordLike = true := by
    decide
  exact (remembers_of_nameStyle h (hword style hstyle hbuiltin)).mem_reserved hstyle

/-! ## What a rule finds -/

/-- The whole identifier is no reserved word, unless it is a command: its end is the end of a
word, and the rule for the word would have been the first. -/
theorem nameStyle_of_mem_reserved {m : Mode} {c : Char} {s : Text} {style : Style}
    (hname : (m.find c s).action = .name) (h : (m.find c s).taken ∈ m.reserved style)
    (memory : Option Memory) : m.nameStyle memory (m.find c s).taken = some style := by
  rcases reserved_cases h with ⟨x, hx, words, hwords, hword⟩ | hcommand
  · have hend : ∀ d ∈ (m.find c s).rest.head?, Unicode.isWordCharacter d = false := by
      intro d hd
      rw [(find_of_name hname).2] at hd
      have hpart : Lexeme.isIdentifierPart d = false := Pattern.head?_dropWhile _ s d hd
      refine Bool.eq_false_iff.mpr fun hwordCharacter => ?_
      rw [Lexeme.isIdentifierPart_of_isWordCharacter hwordCharacter] at hpart
      cases hpart
    have hsome := Lexeme.split?_of_mem_words hwords hword hend
    rw [find_append] at hsome
    rw [← hname] at hx
    rw [split?_eq_none_of_mem_lexemesBefore hx] at hsome
    cases hsome
  · exact hcommand memory

theorem mem_reserved_of_style_find {m : Mode} {c : Char} {s : Text} {memory : Option Memory}
    {style : Style} (hstyle : style ∈ reservedStyles)
    (h : (m.find c s).action.style m memory (m.find c s).extent.1 = some style) :
    (m.find c s).extent.1 ∈ m.reserved style := by
  rcases find_styled_cases h with
    ⟨-, hname⟩ | ⟨r, hr, taken, rest, hsplit, hfind, hfixed⟩ | rfl
  · exact mem_reserved_of_nameStyle hstyle hname
  · obtain ⟨words, hwords⟩ := words_of_reservedStyle hr hfixed hstyle
    obtain ⟨hends, -, other, -, hother, hmem⟩ := mem_reserved_of_words hr hwords
    obtain rfl : other = style := Option.some.inj (hother.symm.trans hfixed)
    rw [hfind, (Finding.extent_of_not_goesOn hends).1]
    exact hmem taken (Lexeme.mem_words_of_split? hwords hsplit)
  · exact absurd hstyle (by decide)

theorem style_find_of_mem_reserved {m : Mode} {c : Char} {s : Text} {style : Style}
    (hstyle : style ∈ reservedStyles) (h : (m.find c s).extent.1 ∈ m.reserved style)
    (memory : Option Memory) :
    (m.find c s).action.style m memory (m.find c s).extent.1 = some style := by
  have hfirst : ∃ t, c :: t ∈ m.reserved style := by
    obtain ⟨t, ht⟩ := Finding.extent_head (m.find_ne_nil c s) (m.find_append c s)
    exact ⟨t, ht ▸ h⟩
  obtain ⟨t, ht⟩ := hfirst
  obtain ⟨-, hstart, hothers⟩ := first_of_mem_reserved hstyle ht
  rcases find_cases m c s with ⟨r, hr, hfind⟩ | ⟨hnone, -⟩
  · obtain ⟨haction, hsplit⟩ := Rule.find?_eq_some_iff.mp hfind
    cases hwords : r.lexeme.words? with
    | some words =>
      obtain ⟨hends, hname, other, hother, hfixed, hmem⟩ := mem_reserved_of_words hr hwords
      rw [← haction] at hends hname hfixed
      rw [(Finding.extent_of_not_goesOn hends).1] at h
      have hword := hmem _ (Lexeme.mem_words_of_split? hwords hsplit)
      rw [Action.style_eq_fixedStyle? hname, hfixed, eq_of_mem_reserved hother hstyle hword h]
    | none =>
      by_cases hidentifier : r.lexeme = .identifier
      · have hname := haction.trans ((lexeme_eq_identifier_iff hr).mp hidentifier)
        have hextent := Finding.extent_of_not_goesOn (f := m.find c s) (by rw [hname]; rfl)
        rw [hextent.1] at h ⊢
        rw [hname]
        exact nameStyle_of_mem_reserved hname h memory
      · by_cases hscheme : r.lexeme = .uriScheme
        · obtain ⟨hends, hnot⟩ := scheme_not_mem_reserved hr hscheme hstyle
          rw [← haction] at hends
          rw [hscheme] at hsplit
          rw [(Finding.extent_of_not_goesOn hends).1, Pattern.eq_of_split?_literal hsplit] at h
          exact absurd h hnot
        · obtain ⟨d, u, htaken, hd⟩ := Pattern.head_mayBegin_of_split? hsplit
          have happ := m.find_append c s
          rw [htaken, List.cons_append] at happ
          rw [(List.cons.inj happ).1, hothers r hr hwords hidentifier hscheme] at hd
          cases hd
  · rw [isIdentifierStart_of_unruled hnone] at hstart
    cases hstart

/-- What a rule finds has a style that words are reserved for just where it is one of them. -/
theorem style_find_iff (m : Mode) (c : Char) (s : Text) (memory : Option Memory) {style : Style}
    (hstyle : style ∈ reservedStyles) :
    (m.find c s).action.style m memory (m.find c s).extent.1 = some style ↔
      (m.find c s).extent.1 ∈ m.reserved style :=
  ⟨mem_reserved_of_style_find hstyle, fun h => style_find_of_mem_reserved hstyle h memory⟩

end Mode

namespace State

theorem style_read_iff {st : State} {s : Text} (hs : s ≠ [])
    (hdispatched : (st.read s).token.origin.isDispatched = true) {style : Style}
    (hstyle : style ∈ Mode.reservedStyles) :
    (st.read s).token.style = some style ↔
      (st.read s).token.text ∈ st.mode.reserved style := by
  rcases st.read_cases s with
    ⟨sc, -, step, -, htoken⟩ | ⟨hspace, hblank⟩ | ⟨gap, c, rest, -, -, -, hfound⟩
  · rw [htoken] at hdispatched
    cases hdispatched
  · obtain ⟨c, t, rfl⟩ := List.exists_cons_of_ne_nil hs
    rw [hblank]
    refine iff_of_false (by simp) fun h => ?_
    have hc := (Mode.first_of_mem_reserved hstyle h).1
    rw [List.all_cons, hc] at hspace
    cases hspace
  · rw [hfound]
    exact st.mode.style_find_iff c rest st.memory hstyle

/-- Reserved words and the styles they are reserved for go together.  A token that is made by
no scanner has such a style just where its text is a word that the mode reserves for it.  A
name that is defined or a variable is therefore no reserved word, whatever follows it. -/
theorem reserved_words_styled {st : State} {c : Cursor} (hc : c.isAtEnd = false)
    (hdispatched : (Cursor.call st c).origin.isDispatched = true) :
    (∀ style ∈ Mode.reservedStyles, (Cursor.call st c).style = some style ↔
      (Cursor.call st c).cursor.current ∈ st.mode.reserved style) ∧
    ((Cursor.call st c).origin = .rule .name →
      ∀ style ∈ [Style.definition, .metadata, .variable1, .variable2],
        (Cursor.call st c).style = some style →
          ∀ other ∈ Mode.reservedStyles,
            (Cursor.call st c).cursor.current ∉ st.mode.reserved other) := by
  have hiff : ∀ style ∈ Mode.reservedStyles, (Cursor.call st c).style = some style ↔
      (Cursor.call st c).cursor.current ∈ st.mode.reserved style := by
    intro style hstyle
    rw [Cursor.call_of_not_isAtEnd st hc, Cursor.current_afterToken]
    exact style_read_iff (Cursor.rest_ne_nil_of_not_isAtEnd hc) hdispatched hstyle
  refine ⟨hiff, fun _ style hname hstyle other hother hword => ?_⟩
  have hplain : ∀ style ∈ [Style.definition, .metadata, .variable1, .variable2],
      style ∉ Mode.reservedStyles := by
    decide
  have hsame : some style = some other := hstyle.symm.trans ((hiff other hother).mpr hword)
  rw [Option.some.inj hsame] at hname
  exact hplain other hname hother

/-- Behind a URI that gives up, a keyword of the theory and a longer name that begins with it. -/
theorem reserved_words_styled_behind_uri :
    ∃ st : State, st.Reachable ∧ st.suspended = [.uri] ∧
      (Cursor.call st (.ofLine " include x".toList)).origin.isDispatched = true ∧
      (Cursor.call st (.ofLine " include x".toList)).style = some .keyword ∧
      (Cursor.call st (.ofLine " include x".toList)).cursor.current ∈
        st.mode.reserved .keyword ∧
      (Cursor.call st (.ofLine " includes".toList)).origin = .rule .name ∧
      (Cursor.call st (.ofLine " includes".toList)).style = some .variable1 ∧
      (Cursor.call st (.ofLine " includes".toList)).cursor.current ∉
        st.mode.reserved .keyword := by
  have hlatched := Reachable.start.next (.ofLine "theory".toList)
  have hreachable := hlatched.next (.ofLine "http".toList)
  have hopen : (Cursor.next (Cursor.next State.start (.ofLine "theory".toList)).2.1
      (.ofLine "http".toList)).2.1 = ⟨[.uri], .within .theory, some (.style .variable2)⟩ := by
    decide +kernel
  rw [hopen] at hreachable
  have hdispatched : (Cursor.call ⟨[.uri], .within .theory, some (.style .variable2)⟩
      (.ofLine " include x".toList)).origin.isDispatched = true := by decide +kernel
  have hkeyword : (Cursor.call ⟨[.uri], .within .theory, some (.style .variable2)⟩
      (.ofLine " include x".toList)).style = some .keyword := by decide +kernel
  have hname : (Cursor.call ⟨[.uri], .within .theory, some (.style .variable2)⟩
      (.ofLine " includes".toList)).origin = .rule .name := by decide +kernel
  have hvariable : (Cursor.call ⟨[.uri], .within .theory, some (.style .variable2)⟩
      (.ofLine " includes".toList)).style = some .variable1 := by decide +kernel
  have hword := ((reserved_words_styled rfl hdispatched).1 .keyword (by decide)).mp hkeyword
  have hlonger := (reserved_words_styled rfl (by rw [hname]; rfl)).2 hname .variable1 (by decide)
    hvariable .keyword (by decide)
  exact ⟨_, hreachable, rfl, hdispatched, hkeyword, hword, hname, hvariable, hlonger⟩

end State
end Highlighter
