/-
A document is in one sublanguage at most, and stays in it.

The mode changes only where a definer is found in the shell with no scanner at work
(`Cut.of_latch_origin`), and there it always changes (`Cut.of_definer`).  The definers
of two sublanguages begin with different letters, so that a text begins with a definer
of one of them at most.  Within a sublanguage no rule changes the mode, and a run is in
the shell for some calls and in one sublanguage from then on (`History.mode_split`).
-/
import Highlighter.Proofs.History
import Highlighter.Proofs.Machine.Invariant

namespace Highlighter

/-- The sublanguage of which a definer begins with a letter. -/
def Sublanguage.ofInitial? (c : Char) : Option Sublanguage :=
  if c ∈ ['a', 'c', 'r', 'i'] then some .grammar
  else if c = 'e' then some .logic
  else if c ∈ ['t', 'v'] then some .theory
  else none

namespace Lexeme

theorem ofInitial?_of_mayBegin {language : Sublanguage} {c : Char}
    (h : (definer language).pattern.mayBegin c = true) :
    Sublanguage.ofInitial? c = some language := by
  have hinitial : c ∈ language.definers.filterMap List.head? := by
    cases language <;>
      simpa [pattern, Pattern.wholeWord, Pattern.mayBegin, Pattern.isNullable, Pattern.anyOf,
        Sublanguage.definers, wordList] using h
  have hall : (language.definers.filterMap List.head?).all
      (Sublanguage.ofInitial? · == some language) = true := by cases language <;> decide
  exact eq_of_beq (List.all_eq_true.mp hall c hinitial)

/-- A text begins with a definer of one sublanguage at most. -/
theorem split?_definer_eq_none {language other : Sublanguage} {s word rest : Text}
    (h : (definer language).split? s = some (word, rest)) (hne : other ≠ language) :
    (definer other).split? s = none := by
  refine Option.eq_none_iff_forall_ne_some.mpr fun ⟨wordOther, restOther⟩ hother => hne ?_
  have happ := (split?_append h).trans (split?_append hother).symm
  obtain ⟨c, t, rfl, hc⟩ := Pattern.head_mayBegin_of_split? h
  obtain ⟨d, u, rfl, hd⟩ := Pattern.head_mayBegin_of_split? hother
  rw [List.cons_append, List.cons_append] at happ
  obtain ⟨rfl, -⟩ := List.cons.inj happ
  exact Option.some.inj ((ofInitial?_of_mayBegin hd).symm.trans (ofInitial?_of_mayBegin hc))

end Lexeme

namespace Mode

/-- Only the rules for definers in the shell change the mode. -/
theorem lexeme_of_latch {m : Mode} {r : Rule} (hr : r ∈ m.rules) {language : Sublanguage}
    (h : r.action = .latch language) : m = .shell ∧ r.lexeme = .definer language := by
  cases m with
  | shell =>
    have hlatch : ∀ r ∈ shell.rules, r.action = .latch language →
        r.lexeme = .definer language := by cases language <;> decide
    exact ⟨rfl, hlatch r hr h⟩
  | within current =>
    have hnone : ∀ r ∈ (within current).rules, r.action ≠ .latch language := by
      cases current <;> cases language <;> decide
    exact absurd h (hnone r hr)

theorem find_latch {m : Mode} {c : Char} {s : Text} {language : Sublanguage}
    (h : (m.find c s).action = .latch language) :
    m = .shell ∧ (Lexeme.definer language).split? (c :: s) =
      some ((m.find c s).taken, (m.find c s).rest) := by
  rcases find_cases m c s with ⟨r, hr, hfind⟩ | ⟨-, hfind⟩
  · obtain ⟨⟨taken, rest⟩, hsplit, hf⟩ := Option.map_eq_some_iff.mp hfind
    rw [← hf] at h ⊢
    obtain ⟨hshell, hlexeme⟩ := lexeme_of_latch hr h
    rw [hlexeme] at hsplit
    exact ⟨hshell, hsplit⟩
  · have hunruled : unruled c ≠ .latch language := by
      unfold unruled
      split <;> simp
    rw [hfind] at h
    exact absurd h hunruled

theorem find_of_definer {language : Sublanguage} {c : Char} {s word rest : Text}
    (h : (Lexeme.definer language).split? (c :: s) = some (word, rest)) :
    shell.find c s = ⟨.latch language, word, rest⟩ := by
  have hfound : (⟨.definer language, .latch language⟩ : Rule).find? (c :: s) =
      some ⟨.latch language, word, rest⟩ := by rw [Rule.find?, h]; rfl
  -- The definers of the sublanguages that are asked for first are not found.
  have hbefore : ∀ others : List Sublanguage, language ∉ others →
      ∀ r ∈ others.map (fun other => (⟨.definer other, .latch other⟩ : Rule)),
        r.find? (c :: s) = none := by
    intro others hnot r hr
    obtain ⟨other, hother, rfl⟩ := List.mem_map.mp hr
    have hne : other ≠ language := fun heq => hnot (heq ▸ hother)
    rw [Rule.find?, Lexeme.split?_definer_eq_none h hne]
    rfl
  cases language with
  | grammar => exact find_of_rules (by rfl) (hbefore [] (by decide)) hfound
  | logic => exact find_of_rules (by rfl) (hbefore [.grammar] (by decide)) hfound
  | theory => exact find_of_rules (by rfl) (hbefore [.grammar, .logic] (by decide)) hfound

end Mode

namespace Cut

/-- The cut that changes the mode. -/
def latching (language : Sublanguage) (s word rest : Text) : Cut :=
  ⟨.rule (.latch language), s.takeWhile Unicode.isWhiteSpace, word, rest, [], .within language⟩

theorem of_definer {language : Sublanguage} {suspended : List Scanner} {s word rest : Text}
    (hgave : ∀ sc ∈ suspended, sc.step s = none)
    (h : (Lexeme.definer language).split? (s.dropWhile Unicode.isWhiteSpace) =
      some (word, rest)) : cut .shell suspended s = latching language s word rest := by
  rw [cut_of_gaveUp .shell hgave]
  cases hdrop : s.dropWhile Unicode.isWhiteSpace with
  | nil =>
    rw [hdrop] at h
    have happ := Lexeme.split?_append h
    exact absurd (List.append_eq_nil_iff.mp happ).1 (Lexeme.split?_ne_nil h)
  | cons c t =>
    rw [hdrop] at h
    rw [Mode.cut_of_dropWhile .shell hdrop, Mode.find_of_definer h]
    rfl

theorem of_latch_origin {m : Mode} {language : Sublanguage} {suspended : List Scanner} {s : Text}
    (h : (cut m suspended s).origin = .rule (.latch language)) :
    m = .shell ∧ (∀ sc ∈ suspended, sc.step s = none) ∧
      ∃ word rest, (Lexeme.definer language).split? (s.dropWhile Unicode.isWhiteSpace) =
        some (word, rest) := by
  rcases cut_cases m suspended s with ⟨_, _, _, _, -, -, -, hcut⟩ | ⟨hgave, hcut⟩
  · rw [hcut] at h
    cases h
  · rw [hcut] at h
    cases hdrop : s.dropWhile Unicode.isWhiteSpace with
    | nil =>
      rw [Mode.cut, hdrop] at h
      cases h
    | cons c t =>
      rw [Mode.cut_of_dropWhile m hdrop] at h
      have haction : (m.find c t).action = .latch language := Origin.rule.inj h
      obtain ⟨hshell, hsplit⟩ := Mode.find_latch haction
      exact ⟨hshell, hgave, _, _, hsplit⟩

end Cut

namespace State

theorem mode_read_of_within {st : State} {language : Sublanguage} (h : st.mode = .within language)
    (s : Text) : (st.read s).state.mode = .within language := by
  rw [← h]
  refine mode_read_of_ne_latch fun other hlatch => ?_
  rw [(Cut.of_latch_origin hlatch).1] at h
  cases h

/-- What reading a token in the shell has found where it has changed the mode. -/
theorem definer_of_mode_read_ne_shell {st : State} (hmode : st.mode = .shell) {s : Text}
    (h : (st.read s).state.mode ≠ .shell) :
    (∀ sc ∈ st.suspended, sc.step s = none) ∧ ∃ language word rest,
      (Lexeme.definer language).split? (s.dropWhile Unicode.isWhiteSpace) =
        some (word, rest) := by
  refine Classical.byContradiction fun hnone => h ?_
  rw [← hmode]
  refine mode_read_of_ne_latch fun language hlatch => hnone ?_
  obtain ⟨-, hgave, hfound⟩ := Cut.of_latch_origin hlatch
  exact ⟨hgave, language, hfound⟩

/-- In the shell only strings are suspended, and a string does not give up. -/
theorem Steady.suspended_eq_nil {st : State} (h : st.Steady) (hmode : st.mode = .shell) {s : Text}
    (hgave : ∀ sc ∈ st.suspended, sc.step s = none) : st.suspended = [] := by
  cases h with
  | idle mode memory => rfl
  | @busy sc mode style hsc hstyle =>
    have hnone := hgave sc (List.mem_singleton_self sc)
    obtain rfl : mode = .shell := hmode
    cases sc with
    | comment syn => cases hsc
    | string quote => cases hnone
    | uri => cases hsc

end State

namespace Cursor

theorem mode_next_of_within {st : State} {language : Sublanguage} (h : st.mode = .within language)
    (c : Cursor) : (next st c).2.1.mode = .within language := by
  cases hend : c.isAtEnd with
  | true =>
    rw [next_of_isAtEnd st hend]
    exact h
  | false =>
    rw [next_of_not_isAtEnd st hend]
    exact State.mode_read_of_within h c.rest

theorem mode_next_of_string {st : State} {quote : Char} {around : List Scanner}
    (h : st.suspended = .string quote :: around) (c : Cursor) :
    (next st c).2.1.mode = st.mode := by
  cases hend : c.isAtEnd with
  | true => rw [next_of_isAtEnd st hend]
  | false =>
    rw [next_of_not_isAtEnd st hend]
    refine State.mode_read_of_ne_latch fun language hlatch => ?_
    obtain ⟨-, hgave, -⟩ := Cut.of_latch_origin hlatch
    have hnone := hgave (.string quote) (h ▸ List.mem_cons_self)
    cases hnone

theorem next_of_definer {st : State} (hmode : st.mode = .shell) (hidle : st.suspended = [])
    {c : Cursor} {language : Sublanguage} {word rest : Text}
    (h : (Lexeme.definer language).split? (c.rest.dropWhile Unicode.isWhiteSpace) =
      some (word, rest)) :
    next st c = (some .keyword, ⟨[], .within language, some (.word word)⟩,
      c.startToken.afterToken (c.rest.takeWhile Unicode.isWhiteSpace) word rest) := by
  have hend : c.isAtEnd = false := by
    refine Bool.eq_false_iff.mpr fun hend => Lexeme.split?_ne_nil h ?_
    have happ := Lexeme.split?_append h
    rw [List.isEmpty_iff.mp hend, List.dropWhile_nil] at happ
    exact (List.append_eq_nil_iff.mp happ).1
  have hcut : cut st.mode st.suspended c.rest = .latching language c.rest word rest := by
    rw [hmode]
    refine Cut.of_definer (fun sc hsc => ?_) h
    rw [hidle] at hsc
    exact absurd hsc List.not_mem_nil
  rw [next_of_not_isAtEnd st hend, State.read, hcut]
  rfl

/-- In the shell the mode changes where the dispatcher finds a definer, and nowhere else. -/
theorem mode_next_ne_shell_iff {st : State} (h : st.Steady) (hmode : st.mode = .shell)
    (c : Cursor) :
    (next st c).2.1.mode ≠ .shell ↔ st.suspended = [] ∧ ∃ language word rest,
      (Lexeme.definer language).split? (c.rest.dropWhile Unicode.isWhiteSpace) =
        some (word, rest) := by
  constructor
  · intro hchanged
    cases hend : c.isAtEnd with
    | true =>
      rw [next_of_isAtEnd st hend] at hchanged
      exact absurd hmode hchanged
    | false =>
      rw [next_of_not_isAtEnd st hend] at hchanged
      obtain ⟨hgave, hfound⟩ := State.definer_of_mode_read_ne_shell hmode hchanged
      exact ⟨h.suspended_eq_nil hmode hgave, hfound⟩
  · rintro ⟨hidle, language, word, rest, hfound⟩
    rw [next_of_definer hmode hidle hfound]
    exact Mode.noConfusion

end Cursor

/-- Whether a text has no definer of any sublanguage in it, not even within a word. -/
def Text.AvoidsDefiners (s : Text) : Prop :=
  ∀ language : Sublanguage, ∀ w ∈ language.definers, ¬ w <:+: s

namespace State

theorem mode_read_of_avoidsDefiners {st : State} (hmode : st.mode = .shell) {s : Text}
    (h : s.AvoidsDefiners) : (st.read s).state.mode = .shell := by
  refine Classical.byContradiction fun hchanged => ?_
  obtain ⟨-, language, word, rest, hfound⟩ := definer_of_mode_read_ne_shell hmode hchanged
  have hfront : word <+: s.dropWhile Unicode.isWhiteSpace := ⟨rest, Lexeme.split?_append hfound⟩
  exact h language word (Lexeme.mem_definers_of_split? hfound)
    (hfront.isInfix.trans (List.dropWhile_suffix _).isInfix)

theorem mode_afterLine_of_avoidsDefiners {st : State} (hmode : st.mode = .shell) {line : Text}
    (h : line.AvoidsDefiners) : (st.afterLine line).mode = .shell := by
  fun_induction State.run st line with
  | case1 st =>
    rw [afterLine_nil]
    exact hmode
  | case2 st line hne _ ih =>
    rw [st.afterLine_of_ne_nil hne]
    have hrest : (st.read line).rest <:+ line := ⟨_, st.read_append line⟩
    refine ih (mode_read_of_avoidsDefiners hmode h) fun language w hw hoccurs => ?_
    exact h language w hw (hoccurs.trans hrest.isInfix)

theorem mode_afterLines_of_avoidsDefiners {st : State} (hmode : st.mode = .shell)
    {lines : List Text} (h : ∀ line ∈ lines, Text.AvoidsDefiners line) :
    (lines.foldl afterLine st).mode = .shell := by
  induction lines generalizing st with
  | nil => exact hmode
  | cons line rest ih =>
    refine ih (mode_afterLine_of_avoidsDefiners hmode (h line List.mem_cons_self)) ?_
    exact fun other hother => h other (List.mem_cons_of_mem _ hother)

/-- A history in the shell has always been there. -/
theorem History.shell {calls : List Cursor.Call} {st : State} (h : History calls st)
    (hmode : st.mode = .shell) : ∀ call ∈ calls, call.state.mode = .shell := by
  induction h with
  | start => exact fun call hcall => absurd hcall List.not_mem_nil
  | @call calls st _ c ih =>
    have hbefore : st.mode = .shell := by
      cases hst : st.mode with
      | shell => rfl
      | within language =>
        have hlater : (Cursor.call st c).state.mode = .within language :=
          Cursor.mode_next_of_within hst c
        rw [hmode] at hlater
        cases hlater
    intro call hcall
    rcases List.mem_append.mp hcall with hcall | hcall
    · exact ih hbefore call hcall
    · rw [List.mem_singleton.mp hcall]
      exact hmode

/-- Once in a sublanguage, a history stays there. -/
theorem History.within {calls : List Cursor.Call} {st : State} (h : History calls st)
    {language : Sublanguage} (hmode : st.mode = .within language) :
    ∃ before after, calls = before ++ after ∧ (∀ call ∈ before, call.state.mode = .shell) ∧
      ∀ call ∈ after, call.state.mode = .within language := by
  induction h with
  | start => cases hmode
  | @call calls st hcalls c ih =>
    have hnewest : ∀ call ∈ [Cursor.call st c], call.state.mode = .within language := by
      intro call hcall
      rw [List.mem_singleton.mp hcall]
      exact hmode
    cases hst : st.mode with
    | shell => exact ⟨calls, [Cursor.call st c], rfl, hcalls.shell hst, hnewest⟩
    | within current =>
      have hlater : (Cursor.call st c).state.mode = .within current :=
        Cursor.mode_next_of_within hst c
      obtain rfl : current = language := Mode.within.inj (hlater.symm.trans hmode)
      obtain ⟨before, after, rfl, hbefore, hafter⟩ := ih hst
      refine ⟨before, after ++ [Cursor.call st c], List.append_assoc .., hbefore, ?_⟩
      intro call hcall
      rcases List.mem_append.mp hcall with hcall | hcall
      · exact hafter call hcall
      · exact hnewest call hcall

/-- The calls of a history are in the shell up to some call, and in one sublanguage
from there on. -/
theorem History.mode_split {calls : List Cursor.Call} {st : State} (h : History calls st) :
    ∃ before after language, calls = before ++ after ∧
      (∀ call ∈ before, call.state.mode = .shell) ∧
      ∀ call ∈ after, call.state.mode = .within language := by
  cases hmode : st.mode with
  | shell =>
    exact ⟨calls, [], .grammar, (List.append_nil calls).symm, h.shell hmode,
      fun call hcall => absurd hcall List.not_mem_nil⟩
  | within language =>
    obtain ⟨before, after, hsplit⟩ := h.within hmode
    exact ⟨before, after, language, hsplit⟩

/-- The mode is a latch.  Within a sublanguage no call changes it.  In the shell a call
changes it if and only if no scanner is at work and a definer is found behind the white
space, which is a definer of one sublanguage only and becomes the token, a keyword.  So
a latch is only ever met in the shell, no step of a string changes the mode, a history
divides into calls that leave the shell on and calls in one sublanguage, and lines that
have no definer in them stay in the shell. -/
theorem one_way_latch :
    (∀ st : State, st.Reachable → ∀ c : Cursor,
      (st.mode ≠ .shell → (Cursor.next st c).2.1.mode = st.mode) ∧
      (st.mode = .shell →
        ((Cursor.next st c).2.1.mode ≠ .shell ↔ st.suspended = [] ∧ ∃ language word rest,
          (Lexeme.definer language).split? (c.rest.dropWhile Unicode.isWhiteSpace) =
            some (word, rest)) ∧
        (st.suspended = [] → ∀ language word rest,
          (Lexeme.definer language).split? (c.rest.dropWhile Unicode.isWhiteSpace) =
            some (word, rest) →
          word ∈ language.definers ∧
          (∀ other, other ≠ language →
            (Lexeme.definer other).split? (c.rest.dropWhile Unicode.isWhiteSpace) = none) ∧
          Cursor.next st c = (some .keyword, ⟨[], .within language, some (.word word)⟩,
            c.startToken.afterToken (c.rest.takeWhile Unicode.isWhiteSpace) word rest)))) ∧
    (∀ (st : State) (c : Cursor) (language : Sublanguage),
      (Cursor.call st c).origin = .rule (.latch language) → st.mode = .shell) ∧
    (∀ (st : State) (quote : Char) (around : List Scanner) (c : Cursor),
      st.suspended = .string quote :: around → (Cursor.next st c).2.1.mode = st.mode) ∧
    (∀ calls st, History calls st → ∃ before after language, calls = before ++ after ∧
      (∀ call ∈ before, call.state.mode = .shell) ∧
      ∀ call ∈ after, call.state.mode = .within language) ∧
    ∀ lines : List Text, (∀ line ∈ lines, Text.AvoidsDefiners line) →
      (lines.foldl afterLine start).mode = .shell := by
  refine ⟨?_, ?_, ?_, fun calls st h => h.mode_split,
    fun lines h => mode_afterLines_of_avoidsDefiners rfl h⟩
  · intro st hst c
    refine ⟨?_, fun hshell => ⟨Cursor.mode_next_ne_shell_iff hst.steady hshell c, ?_⟩⟩
    · intro hne
      cases hmode : st.mode with
      | shell => exact absurd hmode hne
      | within language => exact Cursor.mode_next_of_within hmode c
    · intro hidle language word rest hfound
      exact ⟨Lexeme.mem_definers_of_split? hfound,
        fun other hne => Lexeme.split?_definer_eq_none hfound hne,
        Cursor.next_of_definer hshell hidle hfound⟩
  · intro st c language horigin
    exact (Cut.of_latch_origin horigin).1
  · exact fun st quote around c h => Cursor.mode_next_of_string h c

/-- A definer behind white space, the definer of another sublanguage on the next line,
a definer within a string, and a document without a definer. -/
theorem one_way_latch_logic :
    let latched : State := ⟨[], .within .logic, some (.word "elpi".toList)⟩
    Cursor.next start (.ofLine " elpi p".toList) =
        (some .keyword, latched, (Cursor.ofLine " elpi p".toList).startToken.afterToken " ".toList
          "elpi".toList " p".toList) ∧
      (Lexeme.definer .theory).split?
        ((Cursor.ofLine " elpi p".toList).rest.dropWhile Unicode.isWhiteSpace) = none ∧
      start.mode = .shell ∧
      (Cursor.next latched (.ofLine "theory T".toList)).2.1.mode = .within .logic ∧
      (Cursor.next ⟨[.string '"'], .shell, some (.style .string)⟩ (.ofLine "elpi".toList)).2.1.mode
        = .shell ∧
      (["help 'x".toList, "y' -k=v".toList].foldl afterLine start).mode = .shell := by
  intro latched
  obtain ⟨hcalls, horigin, hstring, -, hlines⟩ := one_way_latch
  have hfound : (Lexeme.definer .logic).split?
      ((Cursor.ofLine " elpi p".toList).rest.dropWhile Unicode.isWhiteSpace) =
        some ("elpi".toList, " p".toList) := by decide +kernel
  obtain ⟨-, hothers, hnext⟩ :=
    ((hcalls start .start (.ofLine " elpi p".toList)).2 rfl).2 rfl .logic _ _ hfound
  have hgap : (Cursor.ofLine " elpi p".toList).rest.takeWhile Unicode.isWhiteSpace = " ".toList := by
    decide +kernel
  rw [hgap] at hnext
  have hother : (Lexeme.definer .theory).split?
      ((Cursor.ofLine " elpi p".toList).rest.dropWhile Unicode.isWhiteSpace) = none :=
    hothers .theory (by decide)
  have hlatch : (Cursor.call start (.ofLine " elpi p".toList)).origin = .rule (.latch .logic) := by
    decide +kernel
  have hreach : latched.Reachable := by
    have hreach := Reachable.start.next (.ofLine " elpi p".toList)
    rw [hnext] at hreach
    exact hreach
  have havoid : ∀ line ∈ ["help 'x".toList, "y' -k=v".toList], Text.AvoidsDefiners line := by
    intro line hline language
    cases language <;> revert line <;> decide +kernel
  have hwithin : latched.mode ≠ .shell := Mode.noConfusion
  have hstays := (hcalls latched hreach (.ofLine "theory T".toList)).1 hwithin
  exact ⟨hnext, hother, horigin _ _ _ hlatch, hstays, hstring _ '"' [] _ rfl, hlines _ havoid⟩

end State
end Highlighter
