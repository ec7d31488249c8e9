/-
What literal texts, whole words and runs take.

A literal takes its own text and nothing else, and a whole word takes one of the
words of its list where no word character follows.  Where the words have nothing but
word characters, at most one of them stands in front of a text in this way, and it is
taken (`Pattern.split?_wholeWord_append`).  A run takes all that its class allows behind
a first character, and in front of what may not begin with a character of the class
(`Pattern.lengths_run_andThen`).  A lexeme that may not begin with a character takes
nothing in front of it.
-/
import Highlighter.Proofs.FirstCharacter

namespace Highlighter
namespace Pattern

theorem mem_lengths_literal {w s : Text} {n : Nat} :
    n ∈ (literal w).lengths s ↔ w <+: s ∧ n = w.length := by
  induction w generalizing s n with
  | nil => simp [literal, lengths]
  | cons c w ih =>
    cases s with
    | nil => simp [literal, lengths, char]
    | cons d s =>
      by_cases hd : d = c
      · subst hd
        have hstep : n ∈ (literal (d :: w)).lengths (d :: s) ↔
            ∃ k ∈ (literal w).lengths s, 1 + k = n := by
          simp [literal, lengths, char]
        rw [hstep, List.cons_prefix_cons, List.length_cons]
        constructor
        · rintro ⟨k, hk, rfl⟩
          obtain ⟨hpre, rfl⟩ := ih.mp hk
          exact ⟨⟨rfl, hpre⟩, Nat.add_comm 1 _⟩
        · rintro ⟨⟨-, hpre⟩, rfl⟩
          exact ⟨w.length, ih.mpr ⟨hpre, rfl⟩, Nat.add_comm 1 _⟩
      · have hnone : (literal (c :: w)).lengths (d :: s) = [] := by
          simp [literal, lengths, char, hd]
        have hpre : ¬ c :: w <+: d :: s := fun h => hd (List.cons_prefix_cons.mp h).1.symm
        simp [hnone, hpre]

/-- Alternatives have the ways of each of them, in their order. -/
theorem lengths_anyOf (ps : List Pattern) (s : Text) :
    (anyOf ps).lengths s = ps.flatMap (·.lengths s) := by
  induction ps with
  | nil => cases s <;> rfl
  | cons p ps ih => rw [anyOf, lengths, ih, List.flatMap_cons]

theorem mem_lengths_anyOf {ps : List Pattern} {s : Text} {n : Nat} :
    n ∈ (anyOf ps).lengths s ↔ ∃ p ∈ ps, n ∈ p.lengths s := by
  rw [lengths_anyOf, List.mem_flatMap]

theorem mem_lengths_wordEnd {s : Text} {n : Nat} :
    n ∈ wordEnd.lengths s ↔ n = 0 ∧ ∀ c ∈ s.head?, Unicode.isWordCharacter c = false := by
  cases s with
  | nil => simp [lengths]
  | cons c s => cases hc : Unicode.isWordCharacter c <;> simp [lengths, hc]

/-- The ways of a whole word are the words of the list that stand in front, each of them where
no word character follows it. -/
theorem mem_lengths_wholeWord {words : List Text} {s : Text} {n : Nat} :
    n ∈ (wholeWord words).lengths s ↔ ∃ word ∈ words, ∃ rest, s = word ++ rest ∧
      n = word.length ∧ ∀ c ∈ rest.head?, Unicode.isWordCharacter c = false := by
  constructor
  · intro h
    obtain ⟨k, hk, hmap⟩ := List.mem_flatMap.mp h
    obtain ⟨m, hm, rfl⟩ := List.mem_map.mp hmap
    obtain ⟨rfl, hend⟩ := mem_lengths_wordEnd.mp hm
    obtain ⟨p, hp, hkp⟩ := mem_lengths_anyOf.mp hk
    obtain ⟨word, hword, rfl⟩ := List.mem_map.mp hp
    obtain ⟨⟨rest, rfl⟩, rfl⟩ := mem_lengths_literal.mp hkp
    rw [List.drop_left] at hend
    exact ⟨word, hword, rest, rfl, rfl, hend⟩
  · rintro ⟨word, hword, rest, rfl, rfl, hend⟩
    have hliteral : word.length ∈ (literal word).lengths (word ++ rest) :=
      mem_lengths_literal.mpr ⟨List.prefix_append word rest, rfl⟩
    refine List.mem_flatMap.mpr
      ⟨word.length, mem_lengths_anyOf.mpr ⟨_, List.mem_map_of_mem hword, hliteral⟩, ?_⟩
    refine List.mem_map.mpr ⟨0, mem_lengths_wordEnd.mpr ⟨rfl, ?_⟩, rfl⟩
    rwa [List.drop_left]

/-- A front that is as long as every way to begin is what the pattern takes. -/
theorem split?_of_lengths {p : Pattern} {taken rest : Text} (hne : taken ≠ [])
    (hmem : taken.length ∈ p.lengths (taken ++ rest))
    (hall : ∀ n ∈ p.lengths (taken ++ rest), n = taken.length) :
    p.split? (taken ++ rest) = some (taken, rest) := by
  refine split?_eq_some_iff.mpr ⟨rfl, hne, ?_⟩
  cases hlengths : p.lengths (taken ++ rest) with
  | nil =>
    rw [hlengths] at hmem
    exact absurd hmem List.not_mem_nil
  | cons n others =>
    have hn : n ∈ p.lengths (taken ++ rest) := hlengths ▸ List.mem_cons_self
    rw [List.head?_cons, hall n hn]

/-- A literal takes its own text where it stands in front. -/
theorem split?_literal_append {w : Text} (hw : w ≠ []) (after : Text) :
    (literal w).split? (w ++ after) = some (w, after) :=
  split?_of_lengths hw (mem_lengths_literal.mpr ⟨List.prefix_append w after, rfl⟩)
    fun _ hn => (mem_lengths_literal.mp hn).2

theorem eq_of_mem_lengths_literal {w taken rest : Text}
    (h : taken.length ∈ (literal w).lengths (taken ++ rest)) : taken = w := by
  obtain ⟨hpre, hlength⟩ := mem_lengths_literal.mp h
  have hfront := List.prefix_of_prefix_length_le hpre (List.prefix_append taken rest)
    (Nat.le_of_eq hlength.symm)
  exact (hfront.eq_of_length hlength.symm).symm

theorem eq_of_split?_literal {w s taken rest : Text}
    (h : (literal w).split? s = some (taken, rest)) : taken = w := by
  obtain ⟨rfl, -, hhead⟩ := split?_eq_some_iff.mp h
  exact eq_of_mem_lengths_literal (List.mem_of_head? hhead)

theorem split?_literal_eq_none {w s : Text} (h : ¬ w <+: s) : (literal w).split? s = none := by
  refine Option.eq_none_iff_forall_ne_some.mpr fun ⟨taken, rest⟩ hsplit => h ?_
  obtain ⟨-, -, hhead⟩ := split?_eq_some_iff.mp hsplit
  exact (mem_lengths_literal.mp (List.mem_of_head? hhead)).1

/-- What is taken as a whole word is a word of the list, and no word character follows. -/
theorem of_split?_wholeWord {words : List Text} {s taken rest : Text}
    (h : (wholeWord words).split? s = some (taken, rest)) :
    taken ∈ words ∧ ∀ c ∈ rest.head?, Unicode.isWordCharacter c = false := by
  obtain ⟨rfl, -, hhead⟩ := split?_eq_some_iff.mp h
  obtain ⟨word, hword, rest', happ, hlength, hend⟩ :=
    mem_lengths_wholeWord.mp (List.mem_of_head? hhead)
  obtain ⟨rfl, rfl⟩ := List.append_inj happ hlength
  exact ⟨hword, hend⟩

theorem mem_of_split?_wholeWord {words : List Text} {s taken rest : Text}
    (h : (wholeWord words).split? s = some (taken, rest)) : taken ∈ words :=
  (of_split?_wholeWord h).1

section WordCharacters

variable {word other rest rest' : Text}

/-- What ends where no word character follows is as long as any word in front of the same
text. -/
theorem length_le_of_append_eq (happ : word ++ rest = other ++ rest')
    (hend : ∀ c ∈ rest.head?, Unicode.isWordCharacter c = false)
    (hother : other.all Unicode.isWordCharacter = true) : other.length ≤ word.length := by
  rcases List.append_eq_append_iff.mp happ with ⟨t, rfl, hrest⟩ | ⟨t, rfl, -⟩
  · cases t with
    | nil => exact Nat.le_of_eq (congrArg List.length (List.append_nil word))
    | cons c t =>
      -- The other word would go on with a character that follows the first one.
      have hc := hend c (by rw [hrest]; rfl)
      rw [List.all_append, List.all_cons, hc] at hother
      simp at hother
  · rw [List.length_append]
    exact Nat.le_add_right _ _

/-- A word of the list is taken wherever it stands as a whole word, whatever other words there
are in the list. -/
theorem split?_wholeWord_append {words : List Text}
    (hwords : ∀ w ∈ words, w ≠ [] ∧ w.all Unicode.isWordCharacter = true) (hword : word ∈ words)
    (hend : ∀ c ∈ rest.head?, Unicode.isWordCharacter c = false) :
    (wholeWord words).split? (word ++ rest) = some (word, rest) := by
  refine split?_of_lengths (hwords word hword).1
    (mem_lengths_wholeWord.mpr ⟨word, hword, rest, rfl, rfl, hend⟩) fun n hn => ?_
  obtain ⟨other, hother, rest', happ, rfl, hend'⟩ := mem_lengths_wholeWord.mp hn
  exact Nat.le_antisymm (length_le_of_append_eq happ hend (hwords other hother).2)
    (length_le_of_append_eq happ.symm hend' (hwords word hword).2)

end WordCharacters

theorem lengths_eq_nil {p : Pattern} {c : Char} (hnull : p.isNullable = false)
    (h : p.mayBegin c = false) (s : Text) : p.lengths (c :: s) = [] := by
  refine List.eq_nil_iff_forall_not_mem.mpr fun n hn => ?_
  cases n with
  | zero =>
    rw [isNullable_of_zero_mem hn] at hnull
    cases hnull
  | succ n =>
    rw [mayBegin_of_mem_lengths hn] at h
    cases h

theorem lengths_char_andThen (d : Char) (q : Pattern) (s : Text) :
    (andThen (char d) q).lengths (d :: s) = (q.lengths s).map (1 + ·) := by
  simp [lengths, char]

section Run

variable {isMember : Char → Bool} {taken rest : Text}

theorem head?_dropWhile (isMember : Char → Bool) (s : Text) :
    ∀ c ∈ (s.dropWhile isMember).head?, isMember c = false := by
  intro c hc
  have hnot := List.head?_dropWhile_not isMember s
  rw [Option.mem_def.mp hc] at hnot
  simpa using hnot

theorem takeWhile_append_of_head? (htaken : taken.all isMember = true)
    (hrest : ∀ c ∈ rest.head?, isMember c = false) :
    (taken ++ rest).takeWhile isMember = taken := by
  rw [List.takeWhile_append_of_pos (List.all_eq_true.mp htaken)]
  cases rest with
  | nil => exact List.append_nil taken
  | cons c rest =>
    rw [List.takeWhile_cons_of_neg (by rw [hrest c rfl]; decide), List.append_nil]

/-- A run takes all that its class allows where what follows may not begin with a character of
the class. -/
theorem lengths_run_andThen {q : Pattern} (hnull : q.isNullable = false)
    (h : ∀ c, isMember c = true → q.mayBegin c = false) (htaken : taken.all isMember = true)
    (hrest : ∀ c ∈ rest.head?, isMember c = false) :
    (andThen (run isMember) q).lengths (taken ++ rest) =
      (q.lengths rest).map (taken.length + ·) := by
  have hshorter : ∀ n < taken.length, q.lengths ((taken ++ rest).drop n) = [] := by
    intro n hn
    have hmember : isMember taken[n] = true :=
      List.all_eq_true.mp htaken _ (List.getElem_mem hn)
    rw [List.drop_append_of_le_length (Nat.le_of_lt hn), List.drop_eq_getElem_cons hn,
      List.cons_append]
    exact lengths_eq_nil hnull (h _ hmember) _
  rw [lengths, lengths, takeWhile_append_of_head? htaken hrest, List.range_succ,
    List.reverse_append, List.reverse_singleton, List.singleton_append, List.flatMap_cons,
    List.drop_left]
  refine List.append_right_eq_self.mpr (List.flatMap_eq_nil_iff.mpr fun n hn => ?_)
  rw [hshorter n (List.mem_range.mp (List.mem_reverse.mp hn))]
  rfl

end Run

/-- A run behind a first character takes all that its class allows. -/
theorem split?_one_run {isFirst isMember : Char → Bool} {c : Char} (h : isFirst c = true)
    (s : Text) : (andThen (one isFirst) (run isMember)).split? (c :: s) =
      some (c :: s.takeWhile isMember, s.dropWhile isMember) := by
  have hlengths : (andThen (one isFirst) (run isMember)).lengths (c :: s) =
      (List.range ((s.takeWhile isMember).length + 1)).reverse.map (1 + ·) := by
    simp [lengths, h]
  refine split?_eq_some_iff.mpr ⟨?_, List.cons_ne_nil _ _, ?_⟩
  · rw [List.cons_append, List.takeWhile_append_dropWhile]
  · rw [hlengths, List.range_succ, List.reverse_append, List.reverse_singleton,
      List.singleton_append, List.map_cons, List.head?_cons, List.length_cons, Nat.add_comm]

/-- A pattern takes nothing in front of a character that it may not begin with. -/
theorem split?_eq_none_of_mayBegin {p : Pattern} {c : Char} (h : p.mayBegin c = false)
    (s : Text) : p.split? (c :: s) = none := by
  refine Option.eq_none_iff_forall_ne_some.mpr fun ⟨taken, rest⟩ hsplit => ?_
  obtain ⟨d, t, rfl, hd⟩ := head_mayBegin_of_split? hsplit
  obtain ⟨rfl, -⟩ := List.cons.inj (split?_append hsplit)
  rw [h] at hd
  exact absurd hd Bool.false_ne_true

theorem split?_char (d : Char) (s : Text) : (char d).split? (d :: s) = some ([d], s) := by
  simp [split?, char, lengths]

theorem eq_of_split?_char {d : Char} {s taken rest : Text}
    (h : (char d).split? s = some (taken, rest)) : taken = [d] := by
  obtain ⟨rfl, -, hhead⟩ := split?_eq_some_iff.mp h
  obtain ⟨c, t, rfl, hc⟩ := head_mayBegin_of_split? h
  rw [mayBegin_char, beq_iff_eq] at hc
  subst hc
  have hlength : 1 = t.length + 1 := by simpa [char, lengths] using hhead
  rw [List.length_eq_zero_iff.mp (Nat.succ.inj hlength).symm]

end Pattern

namespace Lexeme

theorem mem_keywords_of_split? {language : Sublanguage} {s taken rest : Text}
    (h : (keyword language).split? s = some (taken, rest)) : taken ∈ language.keywords := by
  cases language <;> exact Pattern.mem_of_split?_wholeWord h

theorem mem_definers_of_split? {language : Sublanguage} {s taken rest : Text}
    (h : (definer language).split? s = some (taken, rest)) : taken ∈ language.definers := by
  cases language <;> exact Pattern.mem_of_split?_wholeWord h

end Lexeme
end Highlighter
