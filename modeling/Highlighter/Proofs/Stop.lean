/-
What a space cannot be told from.

A pattern stops at a character if it does there what it does at the end of the text: it
does not take the character, and a word ends in front of it (`Pattern.stopsAt`).  Every
lexeme stops at a space.  So what is found in front of a space is what is found where the
text ends instead, by a rule (`Mode.find_space`), by a scanner (`Scanner.step_space`) and by
both of them in one token (`Finding.toCut_space_cases`).  Two things are apart: a comment to the
end of the line goes on behind the space, and a comment or a string that is opened at the
end takes the space as its first character (`Enclosure.toCut_opening`).
-/
import Highlighter.Proofs.Enclosure

namespace Highlighter

namespace Pattern

/-- Whether a pattern takes a character for the end of the text. -/
def stopsAt (c : Char) : Pattern → Bool
  | nothing => true
  | one isMember | run isMember => !isMember c
  | wordEnd => !Unicode.isWordCharacter c
  | andThen first second | orElse first second => first.stopsAt c && second.stopsAt c

section StopsAt

variable {p : Pattern} {c : Char}

theorem takeWhile_append_cons {isMember : Char → Bool} (h : isMember c = false)
    (s more : Text) : (s ++ c :: more).takeWhile isMember = s.takeWhile isMember := by
  induction s with
  | nil => exact List.takeWhile_cons_of_neg (by rw [h]; decide)
  | cons d s ih =>
    rw [List.cons_append, List.takeWhile_cons, List.takeWhile_cons, ih]

theorem lengths_append (h : p.stopsAt c = true) (s more : Text) :
    p.lengths (s ++ c :: more) = p.lengths s := by
  induction p generalizing s with
  | nothing => rfl
  | one isMember =>
    cases s with
    | nil =>
      rw [stopsAt, Bool.not_eq_true'] at h
      show (if isMember c then [1] else []) = []
      rw [h]
      rfl
    | cons d s => rfl
  | run isMember =>
    rw [stopsAt, Bool.not_eq_true'] at h
    rw [lengths, lengths, takeWhile_append_cons h]
  | wordEnd =>
    cases s with
    | nil =>
      rw [stopsAt, Bool.not_eq_true'] at h
      show (if Unicode.isWordCharacter c then [] else [0]) = [0]
      rw [h]
      rfl
    | cons d s => rfl
  | andThen first second ih₁ ih₂ =>
    rw [stopsAt, Bool.and_eq_true] at h
    rw [lengths, lengths, ih₁ h.1, List.flatMap_def, List.flatMap_def]
    refine congrArg List.flatten (List.map_congr_left fun n hn => ?_)
    rw [List.drop_append_of_le_length (le_length_of_mem_lengths hn), ih₂ h.2]
  | orElse first second ih₁ ih₂ =>
    rw [stopsAt, Bool.and_eq_true] at h
    rw [lengths, lengths, ih₁ h.1, ih₂ h.2]

theorem split?_append_cons (h : p.stopsAt c = true) (s more : Text) :
    p.split? (s ++ c :: more) =
      (p.split? s).map fun (taken, rest) => (taken, rest ++ c :: more) := by
  rw [split?, split?, lengths_append h]
  split
  · case h_1 n others hcons =>
    have hle : n + 1 ≤ s.length := le_length_of_mem_lengths (hcons ▸ List.mem_cons_self)
    rw [List.take_append_of_le_length hle, List.drop_append_of_le_length hle]
    rfl
  · rfl

end StopsAt
end Pattern

namespace Lexeme

/-- No lexeme takes a space, and every word ends at one. -/
theorem stopsAt_space (x : Lexeme) : x.pattern.stopsAt ' ' = true := by
  cases x with
  | keyword language | builtin language | definer language | lineComment language =>
    cases language <;> decide +kernel
  | commentOpen syn | commentClose syn => cases syn <;> decide +kernel
  | _ => decide +kernel

theorem split?_space (x : Lexeme) (s more : Text) :
    x.split? (s ++ ' ' :: more) =
      (x.split? s).map fun (taken, rest) => (taken, rest ++ ' ' :: more) :=
  Pattern.split?_append_cons x.stopsAt_space s more

end Lexeme

/-- The same finding in front of more text. -/
def Finding.extend (f : Finding) (more : Text) : Finding := { f with rest := f.rest ++ more }

def Scanner.Step.extend (st : Step) (more : Text) : Step := { st with rest := st.rest ++ more }

def Cut.extend (c : Cut) (more : Text) : Cut := { c with rest := c.rest ++ more }

theorem Rule.find?_space (r : Rule) (s more : Text) :
    r.find? (s ++ ' ' :: more) = (r.find? s).map (·.extend (' ' :: more)) := by
  rw [find?, find?, Lexeme.split?_space, Option.map_map, Option.map_map]
  rfl

namespace Mode

theorem find_space (m : Mode) (c : Char) (s more : Text) :
    m.find c (s ++ ' ' :: more) = (m.find c s).extend (' ' :: more) := by
  have hrule : (fun r : Rule => r.find? (c :: (s ++ ' ' :: more))) =
      Option.map (·.extend (' ' :: more)) ∘ fun r => r.find? (c :: s) :=
    funext fun r => r.find?_space (c :: s) more
  rw [find, find, hrule, ← List.map_findSome?]
  cases m.rules.findSome? fun r => r.find? (c :: s) <;> rfl

theorem cut_space (m : Mode) {gap : Text} {c : Char} {s : Text}
    (hgap : gap.all Unicode.isWhiteSpace = true) (hc : Unicode.isWhiteSpace c = false)
    (more : Text) : m.cut (gap ++ c :: s ++ ' ' :: more) =
      ((m.find c s).extend (' ' :: more)).toCut m gap := by
  rw [List.append_assoc, List.cons_append, cut_of_gap m hgap hc, find_space]

end Mode

namespace Scanner

theorem step_space (sc : Scanner) {s : Text} (hs : s ≠ []) (more : Text) :
    sc.step (s ++ ' ' :: more) = (sc.step s).map (·.extend (' ' :: more)) := by
  obtain ⟨c, s, rfl⟩ := List.exists_cons_of_ne_nil hs
  cases sc with
  | comment syn =>
    rw [step, step, Lexeme.split?_space]
    cases (Lexeme.commentClose syn).split? (c :: s) <;> rfl
  | string quote => rfl
  | uri =>
    rw [step, step, List.map_findSome?]
    refine congrArg (List.findSome? · uriLexemes) (funext fun p => ?_)
    obtain ⟨x, style⟩ := p
    show (x.split? (c :: s ++ ' ' :: more)).map _ = ((x.split? (c :: s)).map _).map _
    rw [Lexeme.split?_space, Option.map_map, Option.map_map]
    rfl

theorem gaveUp_space {suspended : List Scanner} {s : Text} (hs : s ≠ [])
    (h : ∀ sc ∈ suspended, sc.step s = none) (more : Text) :
    ∀ sc ∈ suspended, sc.step (s ++ ' ' :: more) = none := by
  intro sc hsc
  rw [sc.step_space hs, h sc hsc]
  rfl

theorem opened_space (sc : Scanner) {s : Text} (hs : s ≠ []) (more : Text) :
    sc.opened (s ++ ' ' :: more) =
      ((sc.opened s).1, (sc.opened s).2.1 ++ ' ' :: more, (sc.opened s).2.2) := by
  rw [opened, opened, step_space sc hs]
  cases sc.step s <;> rfl

end Scanner

theorem Cut.cut_space (m : Mode) {suspended : List Scanner} {s : Text} (hs : s ≠ []) (more : Text)
    (h : (∀ sc ∈ suspended, sc.step s = none) →
      m.cut (s ++ ' ' :: more) = (m.cut s).extend (' ' :: more)) :
    cut m suspended (s ++ ' ' :: more) = (cut m suspended s).extend (' ' :: more) := by
  induction suspended with
  | nil => exact h fun sc hsc => absurd hsc List.not_mem_nil
  | cons sc around ih =>
    rw [cut, cut, sc.step_space hs]
    cases hstep : sc.step s with
    | some st => rfl
    | none =>
      refine ih fun hgave => h fun g hg => ?_
      rcases List.mem_cons.mp hg with rfl | hg
      · exact hstep
      · exact hgave g hg

namespace Enclosure

theorem not_closing_isPrefix_space {e : Enclosure} {m : Mode} (h : e.scanner.BelongsTo m)
    (more : Text) : ¬ e.closing <+: ' ' :: more := by
  intro hpre
  cases e with
  | comment syn => cases syn <;> exact absurd (List.cons_prefix_cons.mp hpre).1 (by decide)
  | string quote =>
    obtain rfl : quote = ' ' := (List.cons_prefix_cons.mp hpre).1
    rcases h with h | h <;> exact absurd h (by decide)

theorem toCut_eq (e : Enclosure) (m : Mode) (taken rest gap : Text) :
    (⟨e.action, taken, rest⟩ : Finding).toCut m gap =
      ⟨.rule e.action, gap, taken ++ (e.scanner.opened rest).1, (e.scanner.opened rest).2.1,
        (e.scanner.opened rest).2.2, m⟩ := by
  cases e <;> rfl

/-- What opens a comment or a string at the end of a text takes the space behind it. -/
theorem toCut_opening {e : Enclosure} {m : Mode} (h : e.scanner.BelongsTo m)
    (taken gap more : Text) :
    (⟨e.action, taken, []⟩ : Finding).toCut m gap =
        ⟨.rule e.action, gap, taken, [], [e.scanner], m⟩ ∧
      (⟨e.action, taken, ' ' :: more⟩ : Finding).toCut m gap =
        ⟨.rule e.action, gap, taken ++ [' '], more, [e.scanner], m⟩ := by
  rw [toCut_eq, toCut_eq, Scanner.opened, Scanner.opened, step_nil,
    step_cons (not_closing_isPrefix_space h more), List.append_nil]
  exact ⟨rfl, rfl⟩

theorem belongsTo_of_find {e : Enclosure} {m : Mode} {c : Char} {s : Text}
    (h : (m.find c s).action = e.action) : e.scanner.BelongsTo m := by
  refine Mode.belongsTo_of_find (c := c) (s := s) ?_
  rw [h]
  cases e <;> rfl

end Enclosure

/-- How the token of a finding differs in front of a space: not at all, or it has only just
opened a comment or a string, and the space is the first character of that. -/
theorem Finding.toCut_space_cases {f : Finding} {m : Mode} (hline : f.action ≠ .lineComment)
    (hbelongs : ∀ e : Enclosure, f.action = e.action → e.scanner.BelongsTo m) (gap more : Text) :
    (f.extend (' ' :: more)).toCut m gap = (f.toCut m gap).extend (' ' :: more) ∨
      ∃ e : Enclosure,
        f.toCut m gap = ⟨.rule e.action, gap, f.taken, [], [e.scanner], m⟩ ∧
        (f.extend (' ' :: more)).toCut m gap =
          ⟨.rule e.action, gap, f.taken ++ [' '], more, [e.scanner], m⟩ := by
  obtain ⟨action, taken, rest⟩ := f
  by_cases hopens : ∃ e : Enclosure, action = e.action
  · obtain ⟨e, rfl⟩ := hopens
    cases rest with
    | nil => exact Or.inr ⟨e, e.toCut_opening (hbelongs e rfl) taken gap more⟩
    | cons c s =>
      have hopened := e.scanner.opened_space (List.cons_ne_nil c s) more
      rw [extend, e.toCut_eq, e.toCut_eq, hopened]
      exact Or.inl rfl
  · cases action with
    | lineComment => exact absurd rfl hline
    | openComment syn => exact absurd ⟨.comment syn, rfl⟩ hopens
    | openString quote => exact absurd ⟨.string quote, rfl⟩ hopens
    | _ => exact Or.inl rfl

end Highlighter
