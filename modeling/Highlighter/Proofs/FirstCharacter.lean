/-
The character that a lexeme begins with.

`Pattern.mayBegin` reads off a pattern which characters a text can begin with that
the pattern takes something of, and `head_mayBegin_of_split?` says that it is right:
whatever a pattern takes begins with such a character.  White space is apart from
the word characters, which two tables of code points settle, and from the marks of
the operators, so that no lexeme of a URI begins with white space.
-/
import Highlighter.Scanner
import Highlighter.Unicode.WhiteSpace

namespace Highlighter
namespace Unicode
namespace RangeTable

/-- No range of the first table meets a range of the second one. -/
def apart (t u : RangeTable) : Bool :=
  t.all fun r => u.all fun s => r.2 < s.1 || s.2 < r.1

theorem not_contains_of_apart {t u : RangeTable} (ht : ascending t = true)
    (hu : ascending u = true) (h : apart t u = true) {n : Nat} (hn : contains t n = true) :
    contains u n = false := by
  obtain ⟨r, hr, hfirst, hlast⟩ := (contains_iff ht n).mp hn
  refine Bool.eq_false_iff.mpr fun hu' => ?_
  obtain ⟨s, hs, hfirst', hlast'⟩ := (contains_iff hu n).mp hu'
  have hrs := List.all_eq_true.mp (List.all_eq_true.mp h r hr) s hs
  simp only [Bool.or_eq_true, decide_eq_true_eq] at hrs
  omega

end RangeTable

/-- White space is no part of a word. -/
theorem isWordCharacter_of_isWhiteSpace {c : Char} (h : isWhiteSpace c = true) :
    isWordCharacter c = false :=
  RangeTable.not_contains_of_apart whiteSpaceTable_ascending wordCharacterTable_ascending
    (by decide +kernel) h

theorem isWhiteSpace_of_mem {marks : Text} (h : marks.any isWhiteSpace = false) {c : Char}
    (hc : c ∈ marks) : isWhiteSpace c = false := by
  have hnone := List.any_eq_false.mp h c hc
  exact Bool.eq_false_iff.mpr hnone

end Unicode

namespace Pattern

/-- Whether a pattern can take nothing of some text. -/
def isNullable : Pattern → Bool
  | nothing | run _ | wordEnd => true
  | one _ => false
  | andThen first second => first.isNullable && second.isNullable
  | orElse first second => first.isNullable || second.isNullable

/-- Whether a pattern can take something of a text that begins with a character. -/
def mayBegin : Pattern → Char → Bool
  | nothing, _ | wordEnd, _ => false
  | one isMember, c | run isMember, c => isMember c
  | andThen first second, c => first.mayBegin c || first.isNullable && second.mayBegin c
  | orElse first second, c => first.mayBegin c || second.mayBegin c

theorem isNullable_of_zero_mem {p : Pattern} {s : Text} (h : 0 ∈ p.lengths s) :
    p.isNullable = true := by
  induction p generalizing s with
  | nothing | run isMember | wordEnd => rfl
  | one isMember =>
    cases s with
    | nil => exact absurd h List.not_mem_nil
    | cons c s =>
      rw [lengths] at h
      split at h <;> simp at h
  | andThen first second ih₁ ih₂ =>
    obtain ⟨n, hn, hmap⟩ := List.mem_flatMap.mp h
    obtain ⟨m, hm, hsum⟩ := List.mem_map.mp hmap
    obtain rfl : n = 0 := by omega
    obtain rfl : m = 0 := by omega
    rw [isNullable, ih₁ hn, ih₂ hm]
    rfl
  | orElse first second ih₁ ih₂ =>
    rw [isNullable, Bool.or_eq_true]
    rcases List.mem_append.mp h with h | h
    · exact Or.inl (ih₁ h)
    · exact Or.inr (ih₂ h)

theorem mayBegin_of_mem_lengths {p : Pattern} {c : Char} {s : Text} {n : Nat}
    (h : n + 1 ∈ p.lengths (c :: s)) : p.mayBegin c = true := by
  induction p generalizing n with
  | nothing => simp [lengths] at h
  | wordEnd =>
    rw [lengths] at h
    split at h <;> simp at h
  | one isMember =>
    rw [lengths] at h
    split at h
    · assumption
    · exact absurd h List.not_mem_nil
  | run isMember =>
    rw [mayBegin]
    by_cases hc : isMember c = true
    · exact hc
    · have hnil : (c :: s).takeWhile isMember = [] := by simp [hc]
      rw [lengths, hnil] at h
      simp at h
  | andThen first second ih₁ ih₂ =>
    rw [mayBegin, Bool.or_eq_true, Bool.and_eq_true]
    obtain ⟨k, hk, hmap⟩ := List.mem_flatMap.mp h
    obtain ⟨m, hm, hsum⟩ := List.mem_map.mp hmap
    -- Either the first pattern takes the character, or it takes nothing and the
    -- second one still has the whole text before it.
    cases k with
    | succ k => exact Or.inl (ih₁ hk)
    | zero =>
      obtain rfl : m = n + 1 := by omega
      exact Or.inr ⟨isNullable_of_zero_mem hk, ih₂ hm⟩
  | orElse first second ih₁ ih₂ =>
    rw [mayBegin, Bool.or_eq_true]
    rcases List.mem_append.mp h with h | h
    · exact Or.inl (ih₁ h)
    · exact Or.inr (ih₂ h)

/-- What a pattern takes begins with a character that it may begin with. -/
theorem head_mayBegin_of_split? {p : Pattern} {s taken rest : Text}
    (h : p.split? s = some (taken, rest)) : ∃ c t, taken = c :: t ∧ p.mayBegin c = true := by
  obtain ⟨happ, hne, hhead⟩ := split?_eq_some_iff.mp h
  obtain ⟨c, t, rfl⟩ := List.exists_cons_of_ne_nil hne
  have hmem : t.length + 1 ∈ p.lengths (c :: (t ++ rest)) := by
    have hs : s = c :: (t ++ rest) := happ.symm
    rw [← hs]
    exact List.mem_of_head? hhead
  exact ⟨c, t, rfl, mayBegin_of_mem_lengths hmem⟩

@[simp] theorem mayBegin_char (d c : Char) : (char d).mayBegin c = (c == d) := rfl

@[simp] theorem mayBegin_oneOf (chars : Text) (c : Char) :
    (oneOf chars).mayBegin c = chars.contains c := rfl

@[simp] theorem isNullable_oneOf (chars : Text) : (oneOf chars).isNullable = false := rfl

@[simp] theorem isNullable_literal_cons (d : Char) (t : Text) :
    (literal (d :: t)).isNullable = false := rfl

@[simp] theorem mayBegin_literal_cons (d : Char) (t : Text) (c : Char) :
    (literal (d :: t)).mayBegin c = (c == d) := by
  simp [literal, mayBegin, char, isNullable]

@[simp] theorem mayBegin_someOf (isMember : Char → Bool) (c : Char) :
    (someOf isMember).mayBegin c = isMember c := by
  simp [someOf, mayBegin, isNullable]

@[simp] theorem mayBegin_anyOf (ps : List Pattern) (c : Char) :
    (anyOf ps).mayBegin c = ps.any (·.mayBegin c) := by
  induction ps with
  | nil => rfl
  | cons p ps ih => rw [anyOf, mayBegin, ih, List.any_cons]

end Pattern

namespace Lexeme

theorem isWhiteSpace_of_mayBegin_operator {c : Char}
    (h : operator.pattern.mayBegin c = true) : Unicode.isWhiteSpace c = false := by
  have hany : (Pattern.anyOf operatorAlternatives).mayBegin c = true := h
  have hmark : c ∈ "-+*/%&|^".toList ∨ c ∈ "<>=".toList ∨ c = '/' ∨ c = '*' ∨ c = '!' ∨
      c ∈ "~!@".toList := by
    simpa [operatorAlternatives, Pattern.mayBegin] using hany
  rcases hmark with hmark | hmark | rfl | rfl | rfl | hmark
  · exact Unicode.isWhiteSpace_of_mem (by decide) hmark
  · exact Unicode.isWhiteSpace_of_mem (by decide) hmark
  · rfl
  · rfl
  · rfl
  · exact Unicode.isWhiteSpace_of_mem (by decide) hmark

theorem isWhiteSpace_of_isUriWordPart {c : Char} (h : isUriWordPart c = true) :
    Unicode.isWhiteSpace c = false := by
  rw [isUriWordPart, Bool.or_eq_true] at h
  rcases h with h | h
  · refine Bool.eq_false_iff.mpr fun hspace => ?_
    rw [Unicode.isWordCharacter_of_isWhiteSpace hspace] at h
    exact absurd h Bool.false_ne_true
  · rw [eq_of_beq h]
    rfl

/-- No lexeme of a URI begins with white space. -/
theorem isWhiteSpace_of_mayBegin_uri {x : Lexeme} {style : Style}
    (hx : (x, style) ∈ Scanner.uriLexemes) {c : Char} (h : x.pattern.mayBegin c = true) :
    Unicode.isWhiteSpace c = false := by
  simp only [Scanner.uriLexemes, List.mem_cons, Prod.mk.injEq, List.not_mem_nil, or_false] at hx
  rcases hx with ⟨rfl, -⟩ | ⟨rfl, -⟩ | ⟨rfl, -⟩
  · exact isWhiteSpace_of_mayBegin_operator h
  · have hmark : ([':', '?'] : Text).contains c = true := h
    simp only [List.contains_cons, List.contains_nil, Bool.or_false, Bool.or_eq_true,
      beq_iff_eq] at hmark
    rcases hmark with rfl | rfl <;> rfl
  · have hpart : (Pattern.someOf isUriWordPart).mayBegin c = true := h
    rw [Pattern.mayBegin_someOf] at hpart
    exact isWhiteSpace_of_isUriWordPart hpart

end Lexeme
end Highlighter
