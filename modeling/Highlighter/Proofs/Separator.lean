/-
Separators and the names that run into them.

White space is skipped in front of a token, and in a theory each of the three delimiters has a
rule that comes before the one for names.  So no name begins with a separator.  But every
character beyond the no-break space may be part of an identifier, separators among them, and a
name that has begun goes on over them (`Mode.find_of_name`).  All the other tokens of a theory
but comments and strings have only characters of URIs, and no delimiter is one, so that a
delimiter is a token of its own unless it stands behind the first character of a name
(`State.names_and_separators`).
-/
import Highlighter.Proofs.Latch
import Highlighter.Proofs.RuleOrder
import Highlighter.Proofs.Tiling
import Highlighter.Proofs.Uri

namespace Highlighter

/-- The delimiters of theories with the styles of their tokens. -/
def delimiters : List (Char × Style) := [('❘', .variable3), ('❙', .metadata), ('❚', .atom)]

theorem character_of_mem_delimiters {d : Char} {style : Style} (h : (d, style) ∈ delimiters) :
    Unicode.isWhiteSpace d = false ∧ isUriCharacter d = false ∧
      Lexeme.isIdentifierStart d = true := by
  have hall : ∀ p ∈ delimiters, Unicode.isWhiteSpace p.1 = false ∧ isUriCharacter p.1 = false ∧
      Lexeme.isIdentifierStart p.1 = true := by
    decide +kernel
  exact hall (d, style) h

namespace Lexeme

/-- White space in an identifier comes beyond the no-break space. -/
theorem beyond_of_isWhiteSpace {d : Char} (hpart : isIdentifierPart d = true)
    (hspace : Unicode.isWhiteSpace d = true) : 0xA1 ≤ d.toNat := by
  refine Nat.le_of_not_lt fun hlow => ?_
  have hword := isWordCharacter_of_isIdentifierPart hpart hlow
  rw [Unicode.isWordCharacter_of_isWhiteSpace hspace] at hword
  cases hword

theorem isUriCharacter_of_isWordCharacter {c : Char} (h : Unicode.isWordCharacter c = true) :
    isUriCharacter c = true := by
  rw [isUriCharacter, h, Bool.or_true]

theorem takesOnly_number : number.pattern.TakesOnly isUriCharacter := by
  have hdigit : ∀ c : Char, c.isDigit = true → isUriCharacter c = true := by
    intro c hc
    have hlow : c.toNat < 0xA1 := by
      obtain ⟨-, hlast⟩ := Bool.and_eq_true_iff.mp hc
      exact Nat.lt_of_le_of_lt (of_decide_eq_true hlast) (by decide)
    refine isUriCharacter_of_isWordCharacter (isWordCharacter_of_isIdentifierPart ?_ hlow)
    rw [isIdentifierPart, hc, Bool.or_true]
  exact ⟨hdigit, hdigit⟩

end Lexeme

/-- What a rule of a theory finds: what a comment or a string begins with, a name, a delimiter,
or a text that has only characters of URIs. -/
inductive Rule.InTheory (r : Rule) : Prop
  | beginning (h : r.action.goesOn = true)
  | name (h : r.action = .name)
  | delimiter {d : Char} {style : Style} (hd : (d, style) ∈ delimiters)
    (hpattern : r.lexeme.pattern = .char d) (haction : r.action = .paint style)
  | uriText (h : r.action.goesOn = false) (htakes : r.lexeme.pattern.TakesOnly isUriCharacter)

namespace Mode

theorem inTheory_of_mem_rules {r : Rule} (hr : r ∈ (within .theory).rules) : r.InTheory := by
  simp only [rules, ownRules, commonRules, List.cons_append, List.nil_append, List.mem_cons,
    List.not_mem_nil, or_false] at hr
  rcases hr with rfl | rfl | rfl | rfl | rfl | rfl | rfl | rfl | rfl | rfl | rfl | rfl
  · exact .delimiter (d := '❘') (by decide) rfl rfl
  · exact .delimiter (d := '❙') (by decide) rfl rfl
  · exact .delimiter (d := '❚') (by decide) rfl rfl
  · exact .uriText rfl (Pattern.takesOnly_wholeWord (by decide +kernel))
  · exact .uriText rfl (Pattern.takesOnly_wholeWord (by decide +kernel))
  · exact .uriText rfl (Pattern.takesOnly_wholeWord (by decide +kernel))
  · exact .uriText rfl (Pattern.takesOnly_literal (by decide +kernel))
  · exact .beginning rfl
  · exact .name rfl
  · exact .uriText rfl (Pattern.takesOnly_oneOf (by decide))
  · exact .uriText rfl Lexeme.takesOnly_number
  · exact .uriText rfl (Lexeme.takesOnly_operator (by decide))

/-- In a theory no name begins with a delimiter, whose rule comes before. -/
theorem not_mem_delimiters_of_name {c : Char} {s : Text}
    (h : ((within .theory).find c s).action = .name) (style : Style) : (c, style) ∉ delimiters := by
  intro hc
  have hrule : ∀ p ∈ delimiters, ∃ x ∈ (within .theory).lexemesBefore .name,
      x.pattern = .char p.1 := by
    simp only [delimiters, List.forall_mem_cons]
    exact ⟨⟨.objectDelimiter, by decide, rfl⟩, ⟨.declarationDelimiter, by decide, rfl⟩,
      ⟨.moduleDelimiter, by decide, rfl⟩, List.forall_mem_nil _⟩
  obtain ⟨x, hx, hpattern⟩ := hrule (c, style) hc
  rw [← h] at hx
  have hnone := split?_eq_none_of_mem_lexemesBefore hx
  rw [Lexeme.split?, hpattern, Pattern.split?_char] at hnone
  cases hnone

end Mode

namespace Action

theorem style_of_goesOn {a : Action} (h : a.goesOn = true) (m : Mode) (memory : Option Memory)
    (text : Text) :
    a.style m memory text = some .comment ∨ a.style m memory text = some .string := by
  cases a with
  | lineComment | openComment syn => exact Or.inl rfl
  | openString quote => exact Or.inr rfl
  | _ => cases h

end Action

/-- Whether a token that has a delimiter in it behind some characters, and others behind the
delimiter, is a comment or a string, or the delimiter alone with its style, or a name that has
begun before the delimiter. -/
inductive Token.Allots (t : Token) (style : Style) (inside after : Text) : Prop
  | aside (h : t.style = some .comment ∨ t.style = some .string)
  | alone (hinside : inside = []) (hafter : after = []) (hstyle : t.style = some style)
  | named (horigin : t.origin = .rule .name) (hinside : inside ≠ [])
    (hall : inside.all Lexeme.isIdentifierPart = true)

/-- A reading of a name in front of a text, given by its first character and its rest.  The name
begins behind the white space, and in a theory not with a delimiter, and goes on as long as
there are parts of identifiers. -/
structure Reading.IsNameAt (r : Reading) (m : Mode) (c : Char) (s : Text) : Prop where
  text : r.token.text = c :: s.takeWhile Lexeme.isIdentifierPart
  rest : r.rest = s.dropWhile Lexeme.isIdentifierPart
  start : Lexeme.isIdentifierStart c = true
  isWhiteSpace : Unicode.isWhiteSpace c = false
  delimiter : m = .within .theory → ∀ style, (c, style) ∉ delimiters

namespace Reading.IsNameAt

variable {r : Reading} {m : Mode} {c : Char} {s : Text}

theorem all (h : r.IsNameAt m c s) : r.token.text.all Lexeme.isIdentifierPart = true := by
  rw [h.text, List.all_cons, Lexeme.isIdentifierPart, h.start, Bool.true_or]
  exact List.all_takeWhile

theorem beyond (h : r.IsNameAt m c s) :
    ∀ d ∈ r.token.text, Unicode.isWhiteSpace d = true → 0xA1 ≤ d.toNat :=
  fun d hd hspace => Lexeme.beyond_of_isWhiteSpace (List.all_eq_true.mp h.all d hd) hspace

/-- A delimiter in a name stands behind characters of the name. -/
theorem of_delimiter (h : r.IsNameAt (.within .theory) c s) {d : Char} {style : Style}
    (hd : (d, style) ∈ delimiters) {inside after : Text}
    (htext : r.token.text = inside ++ d :: after) :
    inside ≠ [] ∧ inside.all Lexeme.isIdentifierPart = true := by
  constructor
  · rintro rfl
    rw [h.text] at htext
    exact h.delimiter rfl style ((List.cons.inj htext).1 ▸ hd)
  · have hall := h.all
    rw [htext, List.all_append, Bool.and_eq_true] at hall
    exact hall.1

end Reading.IsNameAt

section Occurrence

variable {d c : Char} {inside after : Text}

theorem eq_nil_of_append_cons_eq_singleton (h : inside ++ d :: after = [c]) :
    inside = [] ∧ d = c ∧ after = [] := by
  cases inside with
  | nil => exact ⟨rfl, List.cons.inj h⟩
  | cons e inside => simp at h

theorem all_append_cons_eq_false {isMember : Char → Bool} (h : isMember d = false) :
    (inside ++ d :: after).all isMember = false := by
  rw [List.all_append, List.all_cons, h, Bool.false_and, Bool.and_false]

end Occurrence

namespace State

theorem exists_isNameAt {st : State} {s : Text} (h : (st.read s).token.origin = .rule .name) :
    ∃ c t, (st.read s).IsNameAt st.mode c t := by
  rcases st.read_cases s with
    ⟨sc, -, step, -, htoken⟩ | ⟨-, hblank⟩ | ⟨gap, c, rest, -, -, hc, hfound⟩
  · rw [htoken] at h
    cases h
  · rw [hblank] at h
    cases h
  · rw [hfound] at h ⊢
    have haction : (st.mode.find c rest).action = .name := Origin.rule.inj h
    obtain ⟨hstart, hname⟩ := Mode.find_of_name haction
    refine ⟨c, rest, ?_, ?_, hstart, hc, fun hmode style => ?_⟩
    · rw [found, hname]
      rfl
    · rw [found, hname]
      rfl
    · rw [hmode] at haction
      exact Mode.not_mem_delimiters_of_name haction style

section Delimiter

variable {st : State} {d : Char} {style : Style} {inside after : Text}

theorem allots_found (hd : (d, style) ∈ delimiters) (hmode : st.mode = .within .theory)
    {gap : Text} {c : Char} {rest : Text} (hname : (st.mode.find c rest).action ≠ .name)
    (htext : (st.mode.find c rest).extent.1 = inside ++ d :: after) :
    (st.found gap (st.mode.find c rest)).token.Allots style inside after := by
  obtain ⟨-, huri, hstart⟩ := character_of_mem_delimiters hd
  rw [hmode] at hname htext
  rw [found, hmode]
  rcases Mode.find_cases (.within .theory) c rest with ⟨r, hr, hfind⟩ | ⟨hnone, hfind⟩
  · obtain ⟨haction, hsplit⟩ := Rule.find?_eq_some_iff.mp hfind
    cases Mode.inTheory_of_mem_rules hr with
    | beginning hgoes =>
      rw [← haction] at hgoes
      exact .aside (Action.style_of_goesOn hgoes _ _ _)
    | name hrule => exact absurd (haction.trans hrule) hname
    | @delimiter e painted he hpattern hpaint =>
      rw [hpaint] at haction
      have hextent := (Finding.extent_of_not_goesOn (f := (Mode.within .theory).find c rest)
        (by rw [haction]; rfl)).1
      rw [Lexeme.split?, hpattern] at hsplit
      rw [hextent, Pattern.eq_of_split?_char hsplit] at htext
      obtain ⟨hinside, rfl, hafter⟩ := eq_nil_of_append_cons_eq_singleton htext.symm
      have hsame : ∀ p ∈ delimiters, ∀ q ∈ delimiters, p.1 = q.1 → p.2 = q.2 := by decide
      have hstyle : painted = style := hsame _ he _ hd rfl
      refine .alone hinside hafter ?_
      show ((Mode.within .theory).find c rest).action.style _ _ _ = _
      rw [haction, ← hstyle]
      rfl
    | uriText hends htakes =>
      rw [← haction] at hends
      rw [(Finding.extent_of_not_goesOn hends).1] at htext
      have hall := Pattern.all_of_split? htakes hsplit
      rw [htext, all_append_cons_eq_false huri] at hall
      cases hall
  · rw [hfind] at htext ⊢
    rcases Mode.unruled_cases c with hunruled | hunruled
    · rw [hunruled]
      exact .aside (Or.inr rfl)
    · rw [hunruled] at htext
      obtain ⟨-, rfl, -⟩ := eq_nil_of_append_cons_eq_singleton htext.symm
      rw [Mode.isIdentifierStart_of_unruled hnone] at hstart
      cases hstart

/-- In a theory a delimiter is a token of its own, or it stands in a comment, in a string, or
behind the first character of a name. -/
theorem read_allots (hd : (d, style) ∈ delimiters) (hmode : st.mode = .within .theory) {s : Text}
    (htext : (st.read s).token.text = inside ++ d :: after) :
    (st.read s).token.Allots style inside after := by
  obtain ⟨hspace, huri, -⟩ := character_of_mem_delimiters hd
  by_cases horigin : (st.read s).token.origin = .rule .name
  · obtain ⟨c, t, hname⟩ := exists_isNameAt horigin
    rw [hmode] at hname
    obtain ⟨hinside, hall⟩ := hname.of_delimiter hd htext
    exact .named horigin hinside hall
  · rcases st.read_cases s with
      ⟨sc, -, step, hstep, htoken⟩ | ⟨hall, hblank⟩ | ⟨gap, c, rest, -, -, -, hfound⟩
    · rw [htoken] at htext ⊢
      have hstyle := Scanner.step_style_mem hstep
      cases sc with
      | comment syn => exact .aside (Or.inl (congrArg some (List.mem_singleton.mp hstyle)))
      | string quote => exact .aside (Or.inr (congrArg some (List.mem_singleton.mp hstyle)))
      | uri =>
        have htaken : step.taken = inside ++ d :: after := htext
        have hall := (Scanner.uri_step_all hstep).1
        rw [htaken, all_append_cons_eq_false huri] at hall
        cases hall
    · rw [hblank] at htext
      have hs : s = inside ++ d :: after := htext
      rw [hs, all_append_cons_eq_false hspace] at hall
      cases hall
    · rw [hfound] at htext horigin ⊢
      exact allots_found hd hmode (fun haction => horigin (congrArg Origin.rule haction)) htext

end Delimiter

theorem run_eq_cons {st : State} {line : Text} {r : Reading} {later : List Reading}
    (h : st.run line = r :: later) :
    line ≠ [] ∧ r = st.read line ∧ r.state.run r.rest = later := by
  have hne : line ≠ [] := by
    rintro rfl
    rw [run_nil] at h
    cases h
  rw [st.run_of_ne_nil hne] at h
  obtain ⟨rfl, hlater⟩ := List.cons.inj h
  exact ⟨hne, rfl, hlater⟩

/-- A reading of a line is the reading of what the ones before it have left. -/
theorem reading_of_run {st : State} {line : Text} {before later : List Reading} {r : Reading}
    (h : st.run line = before ++ r :: later) : ∃ s, r = (st.afterReadings before).read s := by
  induction before generalizing st line with
  | nil => exact ⟨line, (run_eq_cons h).2.1⟩
  | cons q before ih =>
    rw [afterReadings_cons]
    exact ih (run_eq_cons h).2.2

/-- A line that begins in a sublanguage is read in it. -/
theorem mode_afterReadings_of_within {st : State} {language : Sublanguage}
    (hmode : st.mode = .within language) {line : Text} {before later : List Reading}
    (h : st.run line = before ++ later) : (st.afterReadings before).mode = .within language := by
  induction before generalizing st line with
  | nil => exact hmode
  | cons q before ih =>
    obtain ⟨-, rfl, hlater⟩ := run_eq_cons h
    rw [afterReadings_cons]
    exact ih (mode_read_of_within hmode line) hlater

/-- A reading of a line in whose token a character stands, behind a front of the line. -/
structure Locates (st : State) (line front : Text) (c : Char) (before : List Reading)
    (r : Reading) (inside after : Text) : Prop where
  run : ∃ later, st.run line = before ++ r :: later
  text : r.token.text = inside ++ c :: after
  front : front =
    before.flatMap (fun q => q.token.gap ++ q.token.text) ++ (r.token.gap ++ inside)

/-- A character of a line that is no white space stands in a token. -/
theorem exists_locates (st : State) {line front back : Text} {c : Char}
    (hline : line = front ++ c :: back) (hc : Unicode.isWhiteSpace c = false) :
    ∃ before r inside after, st.Locates line front c before r inside after := by
  fun_induction run st line generalizing front with
  | case1 st => simp at hline
  | case2 st line hne _ ih =>
    have happ := (st.read_append line).trans hline
    rw [List.append_assoc] at happ
    rcases Fragment.append_eq_append_cons_cases happ with ⟨t, hgap⟩ | ⟨behind, rfl, hbehind⟩
    · have hall := Cut.gap_all st.mode st.suspended line
      have hgap' : (cut st.mode st.suspended line).gap = front ++ c :: t := hgap
      rw [hgap', all_append_cons_eq_false hc] at hall
      cases hall
    · rcases Fragment.append_eq_append_cons_cases hbehind with ⟨after, htext⟩ | ⟨more, rfl, hrest⟩
      · exact ⟨[], st.read line, behind, after, ⟨_, st.run_of_ne_nil hne⟩, htext, rfl⟩
      · obtain ⟨before, r, inside, after, ⟨later, hrun⟩, htext, hmore⟩ := ih hrest
        refine ⟨st.read line :: before, r, inside, after, ⟨later, ?_⟩, htext, ?_⟩
        · rw [st.run_of_ne_nil hne, hrun, List.cons_append]
        · rw [hmore, List.flatMap_cons, List.append_assoc, List.append_assoc]

theorem reachable_theory : Reachable ⟨[], .within .theory, some (.word "theory".toList)⟩ := by
  have hstate : (Cursor.next start (.ofLine "theory".toList)).2.1 =
      ⟨[], .within .theory, some (.word "theory".toList)⟩ := by decide +kernel
  rw [← hstate]
  exact Reachable.start.next _

/-- How names and separators share a line.  A name begins with a character that is no white
space, and in a theory no delimiter either, and takes all the parts of identifiers that follow.
So it has white space in it only from beyond the no-break space.  A character that is no white
space stands in some token, and a delimiter that is read in a theory is a token of its own with
its style, unless it stands in a comment, in a string, or behind the first character of a
name. -/
theorem names_and_separators (st : State) (line : Text) :
    (∀ before r later, st.run line = before ++ r :: later → r.token.origin = .rule .name →
      (∃ c s, r.IsNameAt (st.afterReadings before).mode c s) ∧
        ∀ d ∈ r.token.text, Unicode.isWhiteSpace d = true → 0xA1 ≤ d.toNat) ∧
    ∀ front c back, line = front ++ c :: back → Unicode.isWhiteSpace c = false →
      ∃ before r inside after, st.Locates line front c before r inside after ∧
        ((st.afterReadings before).mode = .within .theory → ∀ style, (c, style) ∈ delimiters →
          r.token.Allots style inside after) := by
  constructor
  · intro before r later hrun horigin
    obtain ⟨s, rfl⟩ := reading_of_run hrun
    obtain ⟨c, t, hname⟩ := exists_isNameAt horigin
    exact ⟨⟨c, t, hname⟩, hname.beyond⟩
  · intro front c back hline hc
    obtain ⟨before, r, inside, after, hlocates⟩ := st.exists_locates hline hc
    refine ⟨before, r, inside, after, hlocates, fun hmode style hdelimiter => ?_⟩
    obtain ⟨later, hrun⟩ := hlocates.run
    obtain ⟨s, rfl⟩ := reading_of_run hrun
    exact read_allots hdelimiter hmode hlocates.text

/-- Behind a letter a delimiter is part of the name, and behind a space it is a token of its
own. -/
theorem names_and_separators_theory :
    ∃ st : State, st.Reachable ∧ st.mode = .within .theory ∧
      (st.read "x❙ ❙".toList).token.text = "x❙".toList ∧
      (∃ c s, (st.read "x❙ ❙".toList).IsNameAt (.within .theory) c s) ∧
      ∃ before r inside after,
        st.Locates "x❙ ❙".toList "x❙ ".toList '❙' before r inside after ∧
          r.token.Allots .metadata inside after := by
  obtain ⟨hnames, hcharacters⟩ := names_and_separators
    ⟨[], .within .theory, some (.word "theory".toList)⟩ "x❙ ❙".toList
  have hname := (hnames [] _ _ (run_of_ne_nil _ (by decide)) (by decide +kernel)).1
  obtain ⟨before, r, inside, after, hlocates, hallots⟩ :=
    hcharacters "x❙ ".toList '❙' [] (by decide) (by decide +kernel)
  obtain ⟨later, hrun⟩ := hlocates.run
  have hmode := mode_afterReadings_of_within rfl hrun
  exact ⟨_, reachable_theory, rfl, by decide +kernel, hname, before, r, inside, after, hlocates,
    hallots hmode .metadata (by decide)⟩

/-- A name goes on over a wide space, and over a delimiter. -/
theorem separators_within_names :
    (¬ ∀ st : State, st.Reachable → ∀ line, ∀ r ∈ st.run line, r.token.origin = .rule .name →
      ∀ d ∈ r.token.text, Unicode.isWhiteSpace d = false) ∧
    ¬ ∀ st : State, st.Reachable → st.mode = .within .theory → ∀ line, ∀ r ∈ st.run line,
      r.token.origin = .rule .name → ∀ d ∈ r.token.text, ∀ style, (d, style) ∉ delimiters := by
  constructor
  · intro h
    have hmem : start.read "a\u3000b".toList ∈ start.run "a\u3000b".toList := by
      rw [start.run_of_ne_nil (by decide)]
      exact List.mem_cons_self
    have hspace := h start .start _ _ hmem (by decide +kernel) '\u3000' (by decide +kernel)
    exact absurd hspace (by decide +kernel)
  · intro h
    have hmem : read ⟨[], .within .theory, some (.word "theory".toList)⟩ "x❙".toList ∈
        run ⟨[], .within .theory, some (.word "theory".toList)⟩ "x❙".toList := by
      rw [run_of_ne_nil _ (by decide)]
      exact List.mem_cons_self
    exact h _ reachable_theory rfl _ _ hmem (by decide +kernel) '❙' (by decide +kernel) .metadata
      (by decide)

end State
end Highlighter
