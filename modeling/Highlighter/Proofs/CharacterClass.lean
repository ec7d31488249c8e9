/-
The characters that a pattern takes.

A pattern takes characters of a class only if all of its parts do (`Pattern.TakesOnly`), and it
takes a character alone, whatever follows, if one part takes the character and the others can
take nothing (`Pattern.takesOne`).  Both are read off the pattern, and together they say that
lexemes which are tried one after the other take the longest front of a text with characters
of a class, however each of them divides it.
-/
import Highlighter.Proofs.WholeWord

namespace Highlighter
namespace Pattern

/-- Whether a pattern takes nothing but characters of a class. -/
def TakesOnly (isMember : Char → Bool) : Pattern → Prop
  | nothing | wordEnd => True
  | one isTaken | run isTaken => ∀ c, isTaken c = true → isMember c = true
  | andThen first second | orElse first second =>
    first.TakesOnly isMember ∧ second.TakesOnly isMember

/-- Whether a pattern can take nothing of any text. -/
def skips : Pattern → Bool
  | nothing | run _ => true
  | one _ | wordEnd => false
  | andThen first second => first.skips && second.skips
  | orElse first second => first.skips || second.skips

/-- Whether a pattern can take a character alone, whatever follows it. -/
def takesOne : Pattern → Char → Bool
  | nothing, _ | wordEnd, _ => false
  | one isMember, c | run isMember, c => isMember c
  | andThen first second, c => first.takesOne c && second.skips || first.skips && second.takesOne c
  | orElse first second, c => first.takesOne c || second.takesOne c

section TakesOnly

variable {isMember : Char → Bool}

theorem takesOnly_oneOf {chars : Text} (h : chars.all isMember = true) :
    (oneOf chars).TakesOnly isMember :=
  fun c hc => List.all_eq_true.mp h c (List.contains_iff_mem.mp hc)

theorem takesOnly_char {d : Char} (h : isMember d = true) : (char d).TakesOnly isMember := by
  intro c hc
  rw [eq_of_beq hc]
  exact h

theorem takesOnly_literal {w : Text} (h : w.all isMember = true) :
    (literal w).TakesOnly isMember := by
  induction w with
  | nil => trivial
  | cons d w ih =>
    rw [List.all_cons, Bool.and_eq_true] at h
    exact ⟨takesOnly_char h.1, ih h.2⟩

theorem takesOnly_anyOf {ps : List Pattern} (h : ∀ p ∈ ps, p.TakesOnly isMember) :
    (anyOf ps).TakesOnly isMember := by
  induction ps with
  | nil => exact fun c hc => absurd hc Bool.false_ne_true
  | cons p ps ih =>
    exact ⟨h p List.mem_cons_self, ih fun q hq => h q (List.mem_cons_of_mem _ hq)⟩

theorem takesOnly_wholeWord {words : List Text}
    (h : ∀ word ∈ words, word.all isMember = true) : (wholeWord words).TakesOnly isMember := by
  refine ⟨takesOnly_anyOf fun p hp => ?_, trivial⟩
  obtain ⟨word, hword, rfl⟩ := List.mem_map.mp hp
  exact takesOnly_literal (h word hword)

end TakesOnly

theorem all_take_of_mem_lengths {p : Pattern} {isMember : Char → Bool}
    (h : p.TakesOnly isMember) {s : Text} {n : Nat} (hn : n ∈ p.lengths s) :
    (s.take n).all isMember = true := by
  induction p generalizing s n with
  | nothing =>
    rw [List.mem_singleton.mp hn]
    rfl
  | one isTaken =>
    cases s with
    | nil => exact absurd hn List.not_mem_nil
    | cons c s =>
      rw [lengths] at hn
      split at hn
      · case isTrue hc =>
        rw [List.mem_singleton.mp hn]
        simpa using h c hc
      · exact absurd hn List.not_mem_nil
  | run isTaken =>
    have hlt := List.mem_range.mp (List.mem_reverse.mp hn)
    have hpre : s.take n <+: s.takeWhile isTaken := by
      refine List.prefix_of_prefix_length_le (List.take_prefix n s)
        (List.takeWhile_prefix isTaken) ?_
      rw [List.length_take]
      omega
    refine List.all_eq_true.mpr fun c hc => h c ?_
    exact List.all_eq_true.mp List.all_takeWhile c (hpre.subset hc)
  | wordEnd =>
    rw [(mem_lengths_wordEnd.mp hn).1]
    rfl
  | andThen first second ih₁ ih₂ =>
    obtain ⟨k, hk, hmap⟩ := List.mem_flatMap.mp hn
    obtain ⟨m, hm, rfl⟩ := List.mem_map.mp hmap
    rw [List.take_add, List.all_append, ih₁ h.1 hk, ih₂ h.2 hm]
    rfl
  | orElse first second ih₁ ih₂ =>
    rcases List.mem_append.mp hn with hn | hn
    · exact ih₁ h.1 hn
    · exact ih₂ h.2 hn

/-- What a pattern takes has only characters of a class that all of its parts keep to. -/
theorem all_of_split? {p : Pattern} {isMember : Char → Bool} (h : p.TakesOnly isMember)
    {s taken rest : Text} (hsplit : p.split? s = some (taken, rest)) :
    taken.all isMember = true := by
  obtain ⟨rfl, -, hhead⟩ := split?_eq_some_iff.mp hsplit
  have hall := all_take_of_mem_lengths h (List.mem_of_head? hhead)
  rwa [List.take_left] at hall

theorem zero_mem_lengths {p : Pattern} (h : p.skips = true) (s : Text) : 0 ∈ p.lengths s := by
  induction p generalizing s with
  | nothing => exact List.mem_singleton_self 0
  | one isMember | wordEnd => exact absurd h Bool.false_ne_true
  | run isMember => exact List.mem_reverse.mpr (List.mem_range.mpr (Nat.succ_pos _))
  | andThen first second ih₁ ih₂ =>
    rw [skips, Bool.and_eq_true] at h
    exact List.mem_flatMap.mpr ⟨0, ih₁ h.1 s, List.mem_map.mpr ⟨0, ih₂ h.2 _, rfl⟩⟩
  | orElse first second ih₁ ih₂ =>
    rw [skips, Bool.or_eq_true] at h
    exact List.mem_append.mpr (h.imp (ih₁ · s) (ih₂ · s))

theorem one_mem_lengths {p : Pattern} {c : Char} (h : p.takesOne c = true) (s : Text) :
    1 ∈ p.lengths (c :: s) := by
  induction p with
  | nothing | wordEnd => exact absurd h Bool.false_ne_true
  | one isMember =>
    rw [takesOne] at h
    rw [lengths, if_pos h]
    exact List.mem_singleton_self 1
  | run isMember =>
    rw [takesOne] at h
    rw [lengths, List.takeWhile_cons_of_pos h]
    exact List.mem_reverse.mpr (List.mem_range.mpr (by simp))
  | andThen first second ih₁ ih₂ =>
    rw [takesOne, Bool.or_eq_true, Bool.and_eq_true, Bool.and_eq_true] at h
    -- Either the first pattern takes the character and the second one nothing, or the
    -- other way round.
    rcases h with ⟨hfirst, hsecond⟩ | ⟨hfirst, hsecond⟩
    · exact List.mem_flatMap.mpr ⟨1, ih₁ hfirst,
        List.mem_map.mpr ⟨0, zero_mem_lengths hsecond _, rfl⟩⟩
    · exact List.mem_flatMap.mpr ⟨0, zero_mem_lengths hfirst _,
        List.mem_map.mpr ⟨1, ih₂ hsecond, rfl⟩⟩
  | orElse first second ih₁ ih₂ =>
    rw [takesOne, Bool.or_eq_true] at h
    exact List.mem_append.mpr (h.imp ih₁ ih₂)

/-- A pattern that takes a character alone and never takes nothing takes something of every
text that begins with the character. -/
theorem exists_split?_of_takesOne {p : Pattern} {c : Char} (h : p.takesOne c = true)
    (hnull : p.isNullable = false) (s : Text) : ∃ parts, p.split? (c :: s) = some parts := by
  have hmem := one_mem_lengths h s
  rw [split?]
  cases hlengths : p.lengths (c :: s) with
  | nil =>
    rw [hlengths] at hmem
    exact absurd hmem List.not_mem_nil
  | cons n others =>
    cases n with
    | zero =>
      have hzero : 0 ∈ p.lengths (c :: s) := hlengths ▸ List.mem_cons_self
      rw [isNullable_of_zero_mem hzero] at hnull
      exact absurd hnull (by decide)
    | succ n => exact ⟨_, rfl⟩

end Pattern

namespace Lexeme

theorem isNullable_pattern (x : Lexeme) : x.pattern.isNullable = false := by
  cases x with
  | keyword language | builtin language | definer language | lineComment language =>
    cases language <;> decide +kernel
  | commentOpen syn | commentClose syn => cases syn <;> rfl
  | _ => rfl

/-- Operators have nothing but their marks. -/
theorem takesOnly_operator {isMember : Char → Bool}
    (h : "-+*/%&|^<>=!~@".toList.all isMember = true) : operator.pattern.TakesOnly isMember := by
  have hmarks : ∀ marks : Text, marks.all "-+*/%&|^<>=!~@".toList.contains = true →
      marks.all isMember = true := by
    intro marks hsub
    refine List.all_eq_true.mpr fun c hc => List.all_eq_true.mp h c ?_
    exact List.contains_iff_mem.mp (List.all_eq_true.mp hsub c hc)
  have hequals : (Pattern.maybe (.char '=')).TakesOnly isMember :=
    ⟨Pattern.takesOnly_char (List.all_eq_true.mp h '=' (by decide)), trivial⟩
  have hcompare : ∀ c, "<>=".toList.contains c = true → isMember c = true :=
    Pattern.takesOnly_oneOf (hmarks _ (by decide))
  refine Pattern.takesOnly_anyOf ?_
  simp only [operatorAlternatives, List.forall_mem_cons]
  exact ⟨⟨Pattern.takesOnly_oneOf (hmarks _ (by decide)), hequals⟩, ⟨hcompare, hcompare⟩,
    ⟨Pattern.takesOnly_literal (hmarks _ (by decide)), hequals⟩,
    ⟨Pattern.takesOnly_literal (hmarks _ (by decide)), hequals⟩,
    Pattern.takesOnly_literal (hmarks _ (by decide)),
    Pattern.takesOnly_oneOf (hmarks _ (by decide)), List.forall_mem_nil _⟩

/-- A lexeme that takes a character alone is found wherever the character stands. -/
theorem exists_split?_of_takesOne {x : Lexeme} {c : Char} (h : x.pattern.takesOne c = true)
    (s : Text) : ∃ parts, x.split? (c :: s) = some parts :=
  Pattern.exists_split?_of_takesOne h x.isNullable_pattern s

end Lexeme
end Highlighter
