/-
How far the options and the flags of shell commands go.

An option is a dash, a name, an equals sign and a value, and both the name and the value are all
of the word characters that stand there, so that no word character follows it
(`Lexeme.split?_commandOption`).  A flag is a dash and a letter, and nothing is asked of what
follows it: where there is no option, the flag is split off a longer word, and the rest of that
word is read for itself (`State.command_option_extent`).
-/
import Highlighter.Proofs.Cursor
import Highlighter.Proofs.RuleOrder

namespace Highlighter
namespace Lexeme

/-- What an option has behind its name. -/
def optionValue : Pattern := .andThen (.char '=') (.run Unicode.isWordCharacter)

theorem mayBegin_optionValue {c : Char} (h : Unicode.isWordCharacter c = true) :
    optionValue.mayBegin c = false := by
  have hequals : Unicode.isWordCharacter '=' = false := by decide +kernel
  refine Bool.eq_false_iff.mpr fun hc => ?_
  have hc' : (c == '=' || false && Unicode.isWordCharacter c) = true := hc
  rw [Bool.false_and, Bool.or_false, beq_iff_eq] at hc'
  rw [hc', hequals] at h
  cases h

theorem lengths_commandOption {name rest : Text}
    (hname : name.all Unicode.isWordCharacter = true)
    (hrest : ∀ c ∈ rest.head?, Unicode.isWordCharacter c = false) :
    commandOption.pattern.lengths ('-' :: (name ++ rest)) =
      (optionValue.lengths rest).map (1 + name.length + ·) := by
  show (Pattern.andThen (.char '-') (.andThen (.run _) optionValue)).lengths _ = _
  rw [Pattern.lengths_char_andThen,
    Pattern.lengths_run_andThen rfl (fun c => mayBegin_optionValue) hname hrest, List.map_map]
  refine List.map_congr_left fun n _ => ?_
  show 1 + (name.length + n) = 1 + name.length + n
  omega

/-- An option has all of the words before and behind its equals sign. -/
theorem split?_commandOption {name s : Text} (hname : name.all Unicode.isWordCharacter = true) :
    commandOption.split? ('-' :: (name ++ '=' :: s)) =
      some ('-' :: (name ++ '=' :: s.takeWhile Unicode.isWordCharacter),
        s.dropWhile Unicode.isWordCharacter) := by
  have hequals : ∀ c ∈ ('=' :: s).head?, Unicode.isWordCharacter c = false := by
    intro c hc
    obtain rfl := Option.some.inj hc
    decide +kernel
  refine Pattern.split?_eq_some_iff.mpr ⟨?_, List.cons_ne_nil _ _, ?_⟩
  · rw [List.cons_append, List.append_assoc, List.cons_append, List.takeWhile_append_dropWhile]
  · rw [lengths_commandOption hname hequals, optionValue, Pattern.lengths_char_andThen,
      Pattern.lengths, List.range_succ, List.reverse_append, List.reverse_singleton,
      List.singleton_append, List.map_cons, List.map_cons, List.head?_cons, List.length_cons,
      List.length_append, List.length_cons]
    refine congrArg some ?_
    omega

theorem exists_of_lengths_optionValue {s : Text} (h : optionValue.lengths s ≠ []) :
    ∃ t, s = '=' :: t := by
  cases s with
  | nil => exact absurd rfl h
  | cons c t =>
    by_cases hc : c = '='
    · exact ⟨t, by rw [hc]⟩
    · have hbegin : optionValue.mayBegin c = false := by
        show (c == '=' || false && Unicode.isWordCharacter c) = false
        simp [hc]
      exact absurd (Pattern.lengths_eq_nil rfl hbegin t) h

/-- What begins with an option begins with a name behind a dash and an equals sign behind it. -/
theorem exists_of_split?_commandOption {s : Text} {parts : Text × Text}
    (h : commandOption.split? s = some parts) :
    ∃ name t, name.all Unicode.isWordCharacter = true ∧ s = '-' :: (name ++ '=' :: t) := by
  obtain ⟨taken, rest⟩ := parts
  obtain ⟨c, t, rfl, hc⟩ := Pattern.head_mayBegin_of_split? h
  obtain ⟨rfl, -, hhead⟩ := Pattern.split?_eq_some_iff.mp h
  have hdash : c = '-' := by
    have hc' : (c == '-' || false && _) = true := hc
    simpa using hc'
  subst hdash
  rw [List.cons_append] at hhead ⊢
  rw [← List.takeWhile_append_dropWhile (p := Unicode.isWordCharacter) (l := t ++ rest),
    lengths_commandOption List.all_takeWhile (Pattern.head?_dropWhile _ _)] at hhead
  have hlengths : optionValue.lengths ((t ++ rest).dropWhile Unicode.isWordCharacter) ≠ [] := by
    intro hnil
    rw [hnil] at hhead
    cases hhead
  obtain ⟨u, hu⟩ := exists_of_lengths_optionValue hlengths
  refine ⟨(t ++ rest).takeWhile Unicode.isWordCharacter, u, List.all_takeWhile, ?_⟩
  rw [← hu, List.takeWhile_append_dropWhile]

/-- A flag is a dash and one of two letters. -/
theorem of_split?_commandFlag {s taken rest : Text}
    (h : commandFlag.split? s = some (taken, rest)) :
    ∃ letter ∈ ['v', 'c'], taken = ['-', letter] := by
  obtain ⟨rfl, -, hhead⟩ := Pattern.split?_eq_some_iff.mp h
  have hlengths : taken.length ∈
      (Pattern.literal "-v".toList).lengths (taken ++ rest) ++
        (Pattern.literal "-c".toList).lengths (taken ++ rest) := List.mem_of_head? hhead
  rcases List.mem_append.mp hlengths with hv | hc
  · exact ⟨'v', by decide, Pattern.eq_of_mem_lengths_literal hv⟩
  · exact ⟨'c', by decide, Pattern.eq_of_mem_lengths_literal hc⟩

end Lexeme

namespace Mode

/-- Where an option is found it is taken before any flag. -/
theorem find_of_option {c : Char} {s taken rest : Text}
    (h : Lexeme.commandOption.split? (c :: s) = some (taken, rest)) :
    shell.find c s = ⟨.paint .variable2, taken, rest⟩ := by
  obtain ⟨name, t, -, hs⟩ := Lexeme.exists_of_split?_commandOption h
  obtain ⟨rfl, -⟩ := List.cons.inj hs
  have hrules : shell.rules =
      shell.rules.take 4 ++ ⟨.commandOption, .paint .variable2⟩ :: shell.rules.drop 5 := by rfl
  have hbefore : ∀ r ∈ shell.rules.take 4, r.lexeme.pattern.mayBegin '-' = false := by
    decide +kernel
  refine find_of_rules hrules (fun r hr => ?_) (Rule.find?_eq_some_iff.mpr ⟨rfl, h⟩)
  exact Rule.find?_eq_none_iff.mpr (Pattern.split?_eq_none_of_mayBegin (hbefore r hr) s)

theorem nameStyle_shell_ne_variable2 (memory : Option Memory) (name : Text) :
    shell.nameStyle memory name ≠ some .variable2 := by
  simp only [nameStyle]
  split
  · simp
  · simp
  · split <;> simp

/-- In the shell only an option or a flag has the style of a second variable. -/
theorem find_variable2_cases {c : Char} {s text : Text} {memory : Option Memory}
    (h : (shell.find c s).action.style shell memory text = some .variable2) :
    (shell.find c s).action = .paint .variable2 ∧
      (Lexeme.commandOption.split? (c :: s) =
          some ((shell.find c s).taken, (shell.find c s).rest) ∨
        Lexeme.commandOption.split? (c :: s) = none ∧
          Lexeme.commandFlag.split? (c :: s) =
            some ((shell.find c s).taken, (shell.find c s).rest)) := by
  cases hoption : Lexeme.commandOption.split? (c :: s) with
  | some parts =>
    rw [find_of_option hoption]
    exact ⟨rfl, Or.inl rfl⟩
  | none =>
    have hlexeme : ∀ r ∈ shell.rules, r.action.fixedStyle? = some .variable2 →
        r.action = .paint .variable2 ∧ (r.lexeme = .commandOption ∨ r.lexeme = .commandFlag) := by
      decide
    rcases find_styled_cases h with
      ⟨-, hname⟩ | ⟨r, hr, taken, rest, hsplit, hfind, hfixed⟩ | hstring
    · exact absurd hname (nameStyle_shell_ne_variable2 memory text)
    · obtain ⟨haction, hlexeme | hlexeme⟩ := hlexeme r hr hfixed
      · rw [hlexeme, hoption] at hsplit
        cases hsplit
      · rw [hlexeme] at hsplit
        rw [hfind]
        exact ⟨haction, Or.inr ⟨rfl, hsplit⟩⟩
    · cases hstring

end Mode

/-- What a command option or a flag is, with what follows it on the line.  An option has all of
the words before and behind its equals sign, and a flag has one letter of a word that is not
followed by an equals sign. -/
inductive IsCommandOption : Text → Text → Prop
  | option {name value rest : Text} (hname : name.all Unicode.isWordCharacter = true)
    (hvalue : value.all Unicode.isWordCharacter = true)
    (hend : ∀ d ∈ rest.head?, Unicode.isWordCharacter d = false) :
    IsCommandOption ('-' :: (name ++ '=' :: value)) rest
  | flag {letter : Char} {more rest : Text} (hletter : letter ∈ ['v', 'c'])
    (hmore : more.all Unicode.isWordCharacter = true)
    (hend : ∀ d ∈ rest.head?, Unicode.isWordCharacter d = false ∧ d ≠ '=') :
    IsCommandOption ['-', letter] (more ++ rest)

namespace IsCommandOption

theorem of_option {s taken rest : Text}
    (h : Lexeme.commandOption.split? s = some (taken, rest)) : IsCommandOption taken rest := by
  obtain ⟨name, t, hname, rfl⟩ := Lexeme.exists_of_split?_commandOption h
  rw [Lexeme.split?_commandOption hname] at h
  obtain ⟨rfl, rfl⟩ := Prod.mk.inj (Option.some.inj h)
  exact .option hname List.all_takeWhile (Pattern.head?_dropWhile _ t)

theorem of_flag {s taken rest : Text} (hoption : Lexeme.commandOption.split? s = none)
    (h : Lexeme.commandFlag.split? s = some (taken, rest)) : IsCommandOption taken rest := by
  obtain ⟨letter, hletter, rfl⟩ := Lexeme.of_split?_commandFlag h
  obtain rfl := Lexeme.split?_append h
  have hletters : ['v', 'c'].all Unicode.isWordCharacter = true := by
    decide +kernel
  rw [← List.takeWhile_append_dropWhile (p := Unicode.isWordCharacter) (l := rest)]
  refine .flag hletter List.all_takeWhile fun d hd => ⟨Pattern.head?_dropWhile _ rest d hd, ?_⟩
  -- An equals sign behind the word would make an option of it.
  rintro rfl
  obtain ⟨t, ht⟩ := List.head?_eq_some_iff.mp hd
  have hname : (letter :: rest.takeWhile Unicode.isWordCharacter).all Unicode.isWordCharacter =
      true := by
    rw [List.all_cons, List.all_eq_true.mp hletters letter hletter]
    exact List.all_takeWhile
  have hsplit := Lexeme.split?_commandOption (s := t) hname
  rw [List.cons_append, ← ht, List.takeWhile_append_dropWhile] at hsplit
  have hnone : Lexeme.commandOption.split? ('-' :: letter :: rest) = none := hoption
  rw [hnone] at hsplit
  cases hsplit

theorem end_cases {text rest : Text} (h : IsCommandOption text rest) :
    text ∈ ["-v".toList, "-c".toList] ∨
      ∀ d ∈ rest.head?, Unicode.isWordCharacter d = false := by
  cases h with
  | option hname hvalue hend => exact Or.inr hend
  | flag hletter hmore hend =>
    refine Or.inl ?_
    simpa using hletter

end IsCommandOption

namespace State

/-- The options and flags that a shell command is read with.  A token of the shell that is made
by no scanner and has the style of a second variable is an option or a flag, and it can only be
a flag that more of a word follows. -/
theorem command_option_extent {st : State} (hmode : st.mode = .shell) {c : Cursor}
    (hc : c.isAtEnd = false) (hdispatched : (Cursor.call st c).origin.isDispatched = true)
    (hstyle : (Cursor.call st c).style = some .variable2) :
    IsCommandOption (Cursor.call st c).cursor.current (Cursor.call st c).cursor.rest ∧
      ((Cursor.call st c).cursor.current ∈ ["-v".toList, "-c".toList] ∨
        ∀ d ∈ (Cursor.call st c).cursor.rest.head?, Unicode.isWordCharacter d = false) := by
  rw [Cursor.call_of_not_isAtEnd st hc] at hdispatched hstyle ⊢
  rw [Cursor.current_afterToken, Cursor.rest_afterToken]
  have hshape : IsCommandOption (st.read c.rest).token.text (st.read c.rest).rest := by
    rcases st.read_cases c.rest with
      ⟨sc, -, step, -, htoken⟩ | ⟨-, hblank⟩ | ⟨gap, d, rest, -, -, -, hfound⟩
    · rw [htoken] at hdispatched
      cases hdispatched
    · rw [hblank] at hstyle
      cases hstyle
    · rw [hfound, found, hmode] at hstyle ⊢
      obtain ⟨haction, hfinding⟩ := Mode.find_variable2_cases hstyle
      have hextent := Finding.extent_of_not_goesOn (f := Mode.shell.find d rest)
        (by rw [haction]; rfl)
      show IsCommandOption (Mode.shell.find d rest).extent.1 (Mode.shell.find d rest).extent.2.1
      rw [hextent.1, hextent.2]
      rcases hfinding with hoption | ⟨hnone, hflag⟩
      · exact .of_option hoption
      · exact .of_flag hnone hflag
  exact ⟨hshape, hshape.end_cases⟩

/-- An option that begins with the letters of a flag, and a flag with more of a word behind
it. -/
theorem command_option_extent_verbose :
    start.Reachable ∧ start.mode = .shell ∧
      (Cursor.call start (.ofLine "-verbose=2 x".toList)).style = some .variable2 ∧
      IsCommandOption (Cursor.call start (.ofLine "-verbose=2 x".toList)).cursor.current
        " x".toList ∧
      (Cursor.call start (.ofLine "-verbose".toList)).style = some .variable2 ∧
      IsCommandOption (Cursor.call start (.ofLine "-verbose".toList)).cursor.current
        "erbose".toList := by
  have hoption : (Cursor.call start (.ofLine "-verbose=2 x".toList)).style = some .variable2 := by
    decide +kernel
  have hflag : (Cursor.call start (.ofLine "-verbose".toList)).style = some .variable2 := by
    decide +kernel
  have hvalued := (command_option_extent rfl rfl (by decide +kernel) hoption).1
  have hlettered := (command_option_extent rfl rfl (by decide +kernel) hflag).1
  have hspace : (Cursor.call start (.ofLine "-verbose=2 x".toList)).cursor.rest = " x".toList := by
    decide +kernel
  have hleft : (Cursor.call start (.ofLine "-verbose".toList)).cursor.rest = "erbose".toList := by
    decide +kernel
  rw [hspace] at hvalued
  rw [hleft] at hlettered
  exact ⟨.start, rfl, hoption, hvalued, hflag, hlettered⟩

/-- A flag is split off the word that begins with its letter. -/
theorem flag_split_off : ¬ ∀ st : State, st.Reachable → st.mode = .shell → ∀ c : Cursor,
    c.isAtEnd = false → (Cursor.call st c).origin.isDispatched = true →
      (Cursor.call st c).style = some .variable2 →
        ∀ d ∈ (Cursor.call st c).cursor.rest.head?, Unicode.isWordCharacter d = false := by
  intro h
  have hend := h start .start rfl (.ofLine "-verbose".toList) rfl (by decide +kernel)
    (by decide +kernel) 'e' (by decide +kernel)
  exact absurd hend (by decide +kernel)

end State
end Highlighter
