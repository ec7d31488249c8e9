/-
What is left without a style.

A token has no style if it is white space, a name of the shell that is nothing in particular, or
a character to which no rule applies, unless it is a quote (`State.read_unstyled_cases`).  Where
no rule applies the character is none that the pattern of a rule takes alone
(`Mode.takesOne_of_unruled`), which excludes all but a few marks.  A name of the shell is left
where it is no command and stands behind none that defines it; and it is no definer, which the
rules in front of names would have found.  All of this is about one call, and the calls that read
a line are what its fragments are reported of (`State.fragments_eq_filterMap`).
-/
import Highlighter.Document
import Highlighter.Proofs.CharacterClass
import Highlighter.Proofs.NameStyle
import Highlighter.Proofs.ReservedStyle

namespace Highlighter
namespace Mode

/-- The separators of a mode, which are characters of their own. -/
def separators : Mode → Text
  | within .grammar => [':', ';']
  | within .theory => [':', '?']
  | shell | within .logic => []

/-- The characters that are operators by themselves. -/
def operatorMarks : Text := "-+*/%&|^<>=~!@".toList

/-- Whether a character is one that a mode leaves without a style. -/
structure LeavesMark (m : Mode) (c : Char) : Prop where
  space : Unicode.isWhiteSpace c = false
  plain : c.toNat < 0xA1
  letter : c.isAlpha = false
  digit : c.isDigit = false
  underscore : c ≠ '_'
  quote : c ≠ '"' ∧ c ≠ '\''
  operator : c ∉ operatorMarks
  separator : c ∉ m.separators

/-- Whether a name in front of a rest is an identifier that the rest does not continue, is no
command and no definer, and stands behind no option, import or export, where the last token with
a style is given. -/
structure LeavesName (last : Option (Style × Text)) (name rest : Text) : Prop where
  identifier : ∃ c parts, name = c :: parts ∧ Lexeme.isIdentifierStart c = true ∧
    parts.all Lexeme.isIdentifierPart = true
  maximal : ∀ c ∈ rest.head?, Lexeme.isIdentifierPart c = false
  command : commandKind name = none
  definer : ∀ language : Sublanguage, name ∉ language.definers
  option : last.map Prod.fst ≠ some .variable2
  importing : last ≠ some (.tag, "import".toList)
  exporting : last ≠ some (.keyword, "export".toList)

/-- Where no rule applies, no rule takes the character alone. -/
theorem takesOne_of_unruled {m : Mode} {c : Char} {s : Text}
    (h : ∀ r ∈ m.rules, r.find? (c :: s) = none) :
    ∀ r ∈ m.rules, r.lexeme.pattern.takesOne c = false := by
  intro r hr
  refine Bool.eq_false_iff.mpr fun hone => ?_
  obtain ⟨parts, hparts⟩ := Lexeme.exists_split?_of_takesOne hone s
  have hnone := Rule.find?_eq_none_iff.mp (h r hr)
  rw [hparts] at hnone
  cases hnone

theorem exists_takesOne_of_mark (m : Mode) :
    ∀ c ∈ operatorMarks ++ m.separators, ∃ r ∈ m.rules, r.lexeme.pattern.takesOne c = true := by
  have hall : (operatorMarks ++ m.separators).all
      (fun c => m.rules.any fun r => r.lexeme.pattern.takesOne c) = true := by
    cases m with
    | shell => decide
    | within language => cases language <;> decide
  exact fun c hc => List.any_eq_true.mp (List.all_eq_true.mp hall c hc)

theorem leavesMark_of_unruled {m : Mode} {c : Char} {s : Text}
    (hspace : Unicode.isWhiteSpace c = false) (h : ∀ r ∈ m.rules, r.find? (c :: s) = none)
    (hquote : unruled c = .leave) : m.LeavesMark c := by
  have halone := takesOne_of_unruled h
  have hstart := isIdentifierStart_of_unruled h
  simp only [Lexeme.isIdentifierStart, Bool.or_eq_false_iff, beq_eq_false_iff_ne,
    decide_eq_false_iff_not, Nat.not_le] at hstart
  have hmark : c ∉ operatorMarks ++ m.separators := by
    intro hc
    obtain ⟨r, hr, hone⟩ := m.exists_takesOne_of_mark c hc
    rw [halone r hr] at hone
    cases hone
  rw [List.mem_append, not_or] at hmark
  have hnumber : (⟨.number, .paint .number⟩ : Rule) ∈ m.rules :=
    List.mem_append_right _ List.mem_cons_self
  have hdigit := halone _ hnumber
  have hquotes : ¬ (c = '"' ∨ c = '\'') := by
    intro hc
    rw [unruled, if_pos hc] at hquote
    cases hquote
  exact {
    space := hspace
    plain := hstart.2
    letter := hstart.1.2
    digit := by simpa [Lexeme.pattern, Pattern.someOf, Pattern.takesOne, Pattern.skips] using hdigit
    underscore := hstart.1.1
    quote := not_or.mp hquotes
    operator := hmark.1
    separator := hmark.2 }

theorem nameStyle_within_ne_none (language : Sublanguage) (memory : Option Memory) (name : Text) :
    (within language).nameStyle memory name ≠ none := by
  cases language <;> simp only [nameStyle, ne_eq] <;> repeat' split
  all_goals exact Option.some_ne_none _

/-- Only a name of the shell that is no command and is defined by nothing has no style. -/
theorem of_nameStyleAfter_eq_none {last : Option (Style × Text)} {name : Text}
    (h : shell.nameStyleAfter last name = none) :
    commandKind name = none ∧ last.map Prod.fst ≠ some .variable2 ∧
      last ≠ some (.tag, "import".toList) ∧ last ≠ some (.keyword, "export".toList) := by
  rw [nameStyleAfter] at h
  cases hkind : commandKind name with
  | some kind =>
    rw [hkind] at h
    cases kind <;> cases h
  | none =>
    rw [hkind] at h
    by_cases hdefined : last.map Prod.fst = some .variable2 ∨
        last = some (.tag, "import".toList) ∨ last = some (.keyword, "export".toList)
    · simp only [if_pos hdefined] at h
      cases h
    · rw [not_or, not_or] at hdefined
      exact ⟨rfl, hdefined⟩

theorem action_ne_leave {m : Mode} {r : Rule} (hr : r ∈ m.rules) : r.action ≠ .leave := by
  have hall : ∀ r ∈ m.rules, r.action ≠ .leave := by
    cases m with
    | shell => decide
    | within language => cases language <;> decide
  exact hall r hr

/-- What is found without a style is a character to which no rule applies, or a name. -/
theorem find_unstyled_cases {m : Mode} {memory : Option Memory} {c : Char} {s text : Text}
    (h : (m.find c s).action.style m memory text = none) :
    ((∀ r ∈ m.rules, r.find? (c :: s) = none) ∧ unruled c = .leave ∧
        m.find c s = ⟨.leave, [c], s⟩) ∨
      ((m.find c s).action = .name ∧ m.nameStyle memory text = none) := by
  by_cases hname : (m.find c s).action = .name
  · rw [hname] at h
    exact Or.inr ⟨hname, h⟩
  · rcases m.find_cases c s with ⟨r, hr, hfind⟩ | ⟨hnone, hfind⟩
    · have haction := (Rule.find?_eq_some_iff.mp hfind).1
      have hleave := action_ne_leave hr
      rw [← haction] at hleave
      rw [Action.style_eq_fixedStyle? hname] at h
      generalize (m.find c s).action = a at h hname hleave
      cases a with
      | name => exact absurd rfl hname
      | leave => exact absurd rfl hleave
      | _ => cases h
    · rcases unruled_cases c with hquote | hleave
      · rw [hfind, hquote] at h
        cases h
      · rw [hleave] at hfind
        exact Or.inl ⟨hnone, hleave, hfind⟩

end Mode

namespace State

/-- What a reading without a style is, if it is not white space. -/
theorem read_unstyled_cases {st : State} {s : Text} (hstyle : (st.read s).token.style = none)
    (hblank : (st.read s).token.isBlank = false) :
    (∃ c, (st.read s).token.text = [c] ∧ st.mode.LeavesMark c) ∨
      ∃ c rest, (st.mode.find c rest).action = .name ∧
        (st.read s).token.text = (st.mode.find c rest).taken ∧
        (st.read s).rest = (st.mode.find c rest).rest ∧
        st.mode.nameStyle st.memory (st.mode.find c rest).taken = none := by
  rcases st.read_cases s with
    ⟨sc, -, step, -, htoken⟩ | ⟨hspace, hread⟩ | ⟨gap, c, rest, -, -, hc, hread⟩
  · rw [htoken] at hstyle
    cases hstyle
  · rw [hread, Token.isBlank, hspace] at hblank
    cases hblank
  · rw [hread] at hstyle ⊢
    rcases Mode.find_unstyled_cases hstyle with ⟨hnone, hleave, hfind⟩ | ⟨hname, hunstyled⟩
    · refine Or.inl ⟨c, ?_, Mode.leavesMark_of_unruled hc hnone hleave⟩
      rw [hfind]
      rfl
    · have hends : (st.mode.find c rest).action.goesOn = false := by
        rw [hname]
        rfl
      obtain ⟨htext, hrest⟩ := Finding.extent_of_not_goesOn hends
      rw [htext] at hunstyled
      exact Or.inr ⟨c, rest, hname, htext, hrest, hunstyled⟩

/-- A name without a style is left in the shell. -/
theorem History.leavesName {history : List Cursor.Call} {st : State} (h : History history st)
    {c : Char} {s : Text} (hname : (st.mode.find c s).action = .name)
    (hunstyled : st.mode.nameStyle st.memory (st.mode.find c s).taken = none) :
    st.mode = .shell ∧ Mode.LeavesName (Cursor.lastStyled? history) (st.mode.find c s).taken
      (st.mode.find c s).rest := by
  have hshell : st.mode = .shell := by
    cases hmode : st.mode with
    | shell => rfl
    | within language =>
      rw [hmode] at hunstyled
      exact absurd hunstyled (Mode.nameStyle_within_ne_none _ _ _)
  obtain ⟨hstart, hfind⟩ := Mode.find_of_name hname
  have hdefiner : ∀ language : Sublanguage,
      (st.mode.find c s).taken ∉ language.definers := by
    intro language hword
    have hreserved : (st.mode.find c s).taken ∈ st.mode.reserved .keyword := by
      rw [hshell] at hword ⊢
      refine List.mem_append_right _ (List.mem_flatMap.mpr ⟨language, ?_, hword⟩)
      cases language <;> decide
    rw [Mode.nameStyle_of_mem_reserved hname hreserved] at hunstyled
    cases hunstyled
  have hafter : Mode.shell.nameStyleAfter (Cursor.lastStyled? history)
      (st.mode.find c s).taken = none := by
    rw [h.memory_eq, Mode.nameStyle_ofToken h.mayFollow] at hunstyled
    rwa [← hshell]
  obtain ⟨hcommand, hoption, himporting, hexporting⟩ := Mode.of_nameStyleAfter_eq_none hafter
  refine ⟨hshell, ?_, ?_, hcommand, hdefiner, hoption, himporting, hexporting⟩
  · rw [hfind]
    exact ⟨c, _, rfl, hstart, List.all_takeWhile⟩
  · rw [hfind]
    exact Pattern.head?_dropWhile _ s

end State

namespace Cursor

/-- What is reported of a call. -/
def Call.fragment? (call : Call) : Option Fragment :=
  if call.style.isNone && call.cursor.current.all Unicode.isWhiteSpace then none
  else some ⟨call.cursor.start, call.cursor.current, call.style⟩

theorem fragment?_call (st : State) {c : Cursor} (h : c.isAtEnd = false) :
    (call st c).fragment? =
      if (st.read c.rest).token.isBlank then none
      else some ⟨c.position + Text.byteLength (st.read c.rest).token.gap,
        (st.read c.rest).token.text, (st.read c.rest).token.style⟩ := by
  rw [Call.fragment?, call_of_not_isAtEnd st h, current_afterToken, start_afterToken]
  rfl

theorem of_calls_eq_cons {st : State} {c : Cursor} {first : Call} {later : List Call}
    (h : calls st c = first :: later) :
    c.isAtEnd = false ∧ first = call st c ∧ later = calls (call st c).state (call st c).cursor := by
  have hmore : c.isAtEnd = false := by
    refine Bool.eq_false_iff.mpr fun hend => ?_
    rw [calls_of_isAtEnd st hend] at h
    cases h
  rw [calls_of_not_isAtEnd st hmore] at h
  obtain ⟨hfirst, hlater⟩ := List.cons.inj h
  exact ⟨hmore, hfirst.symm, hlater.symm⟩

end Cursor

namespace State

theorem ofTokens_run (st : State) (c : Cursor) :
    Fragment.ofTokens c.position ((st.run c.rest).map Reading.token) =
      (Cursor.calls st c).filterMap Cursor.Call.fragment? := by
  fun_induction Cursor.calls st c with
  | case1 st c hend =>
    have hnil : c.rest = [] := List.isEmpty_iff.mp hend
    rw [hnil, run_nil]
    rfl
  | case2 st c hend _ ih =>
    have hmore : c.isAtEnd = false := Bool.eq_false_iff.mpr hend
    have hfragment := Cursor.fragment?_call st hmore
    rw [st.run_of_ne_nil (Cursor.rest_ne_nil_of_not_isAtEnd hmore), List.map_cons]
    have hposition : (Cursor.call st c).cursor.position = c.position +
        Text.byteLength (st.read c.rest).token.gap + Text.byteLength (st.read c.rest).token.text := by
      rw [Cursor.call_of_not_isAtEnd st hmore, Cursor.position_afterToken]
    have hlater : (Cursor.call st c).state.run (Cursor.call st c).cursor.rest =
        (st.read c.rest).state.run (st.read c.rest).rest := by
      rw [Cursor.call_of_not_isAtEnd st hmore]
      rfl
    rw [hposition, hlater] at ih
    by_cases hblank : (st.read c.rest).token.isBlank = true
    · rw [if_pos hblank] at hfragment
      rw [List.filterMap_cons_none hfragment, ← ih, Fragment.ofTokens, if_pos hblank]
    · rw [if_neg hblank] at hfragment
      rw [List.filterMap_cons_some hfragment, ← ih, Fragment.ofTokens, if_neg hblank]

/-- The fragments of a line are what is reported of the calls that read it. -/
theorem fragments_eq_filterMap (st : State) (line : Text) :
    st.fragments line = (Cursor.calls st (.ofLine line)).filterMap Cursor.Call.fragment? :=
  st.ofTokens_run (.ofLine line)

/-- The state after calls, given the state before them. -/
def afterCalls (st : State) (calls : List Cursor.Call) : State :=
  calls.foldl (fun _ call => call.state) st

/-- Each of the calls that read a line is made in the state that those before it lead to. -/
theorem History.of_calls_eq_append {history : List Cursor.Call} {st : State}
    (h : History history st) {c : Cursor} {before later : List Cursor.Call} {call : Cursor.Call}
    (hcalls : Cursor.calls st c = before ++ call :: later) :
    History (history ++ before) (st.afterCalls before) ∧
      ∃ here : Cursor, here.isAtEnd = false ∧ call = Cursor.call (st.afterCalls before) here := by
  induction before generalizing history st c with
  | nil =>
    obtain ⟨hmore, hfirst, -⟩ := Cursor.of_calls_eq_cons hcalls
    rw [List.append_nil]
    exact ⟨h, c, hmore, hfirst⟩
  | cons first before ih =>
    obtain ⟨-, rfl, hlater⟩ := Cursor.of_calls_eq_cons hcalls
    have hrest := ih (h.call c) hlater.symm
    rw [List.append_assoc, List.singleton_append] at hrest
    exact hrest

/-- Nothing that could be recognised is left without a style.  Of a line that is read behind any
history, what is reported without a style is a single character that is a mark of no kind in the
mode it is read in; or it is read in the shell and is a whole identifier, neither a command nor a
definer, and the last token with a style before it is no option, import or export. -/
theorem unstyled_left_over {history : List Cursor.Call} {st : State} (h : History history st)
    (line : Text) :
    st.fragments line = (Cursor.calls st (.ofLine line)).filterMap Cursor.Call.fragment? ∧
      ∀ before call later, Cursor.calls st (.ofLine line) = before ++ call :: later →
        ∀ f ∈ call.fragment?, f.style = none →
          (∃ c, f.text = [c] ∧ (st.afterCalls before).mode.LeavesMark c) ∨
            ((st.afterCalls before).mode = .shell ∧
              Mode.LeavesName (Cursor.lastStyled? (history ++ before)) f.text
                call.cursor.rest) := by
  refine ⟨st.fragments_eq_filterMap line, fun before call later hcalls f hf hstyle => ?_⟩
  obtain ⟨hhistory, here, hmore, rfl⟩ := h.of_calls_eq_append hcalls
  rw [Cursor.fragment?_call _ hmore] at hf
  by_cases hblank : ((st.afterCalls before).read here.rest).token.isBlank = true
  · rw [if_pos hblank] at hf
    cases hf
  · rw [if_neg hblank] at hf
    obtain rfl := Option.some.inj hf
    rcases read_unstyled_cases hstyle (Bool.eq_false_iff.mpr hblank) with
      hmark | ⟨c, s, hname, htext, hrest, hunstyled⟩
    · exact Or.inl hmark
    · refine Or.inr ?_
      have hleft := hhistory.leavesName hname hunstyled
      rw [← htext, ← hrest] at hleft
      rw [Cursor.call_of_not_isAtEnd _ hmore]
      exact hleft

/-- A bracket and a name in the shell. -/
theorem unstyled_left_over_bracket :
    let bracket := Cursor.call start (.ofLine ['(', 'x'])
    let name := Cursor.call bracket.state bracket.cursor
    Cursor.calls start (.ofLine ['(', 'x']) = [bracket, name] ∧
      bracket.fragment? = some ⟨0, ['('], none⟩ ∧ Mode.shell.LeavesMark '(' ∧
      name.fragment? = some ⟨1, ['x'], none⟩ ∧ Mode.LeavesName none ['x'] [] := by
  intro bracket name
  have hcalls : Cursor.calls start (.ofLine ['(', 'x']) = [bracket, name] := by
    rw [Cursor.calls_of_not_isAtEnd start rfl, Cursor.calls_of_not_isAtEnd _ (by decide +kernel),
      Cursor.calls_of_isAtEnd _ (by decide +kernel)]
  have hbracket : bracket.fragment? = some ⟨0, ['('], none⟩ := by decide +kernel
  have hname : name.fragment? = some ⟨1, ['x'], none⟩ := by decide +kernel
  have hmode : (start.afterCalls [bracket]).mode = .shell := by decide +kernel
  have hlast : Cursor.lastStyled? ([] ++ [bracket]) = none := by decide +kernel
  have hrest : name.cursor.rest = [] := by decide +kernel
  refine ⟨hcalls, hbracket, ?_, hname, ?_⟩
  · rcases (unstyled_left_over .start _).2 [] bracket [name] hcalls _ hbracket rfl with
      ⟨c, hc, hmark⟩ | ⟨-, hleft⟩
    · cases hc
      exact hmark
    · obtain ⟨c, parts, hc, hstart, -⟩ := hleft.identifier
      cases hc
      exact absurd hstart (by decide)
  · rcases (unstyled_left_over .start _).2 [bracket] name [] hcalls _ hname rfl with
      ⟨c, hc, hmark⟩ | ⟨-, hleft⟩
    · cases hc
      exact absurd hmark.letter (by decide)
    · rwa [hlast, hrest] at hleft

end State
end Highlighter
