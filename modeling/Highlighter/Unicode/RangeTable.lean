/-
Sets of characters given by ranges of code points.

A Unicode property is a set of characters, and it is written down as the list of
the ranges it consists of, in ascending order.  `RangeTable.contains` walks the
list and stops at the first range that begins past the code point asked for, so
that the common characters, which stand at the front of every table, are decided
after a few comparisons.  `contains_iff` says that stopping early is right: in an
ascending table the answer is membership in one of the ranges.
-/

namespace Highlighter
namespace Unicode

abbrev RangeTable := List (Nat × Nat)

namespace RangeTable

/-- Whether a code point lies in one of the ranges of an ascending table. -/
def contains : RangeTable → Nat → Bool
  | [], _ => false
  | (first, last) :: rest, n => if n < first then false else n ≤ last || contains rest n

/-- Every range is in order and ends before the next one begins. -/
def ascending : RangeTable → Bool
  | [] => true
  | [(first, last)] => first ≤ last
  | (first, last) :: (next, stop) :: rest =>
    first ≤ last && last < next && ascending ((next, stop) :: rest)

theorem ascending_tail {r : Nat × Nat} {t : RangeTable} (h : ascending (r :: t) = true) :
    ascending t = true := by
  cases t with
  | nil => rfl
  | cons s t =>
    simp only [ascending, Bool.and_eq_true] at h
    exact h.2

theorem lt_of_ascending {r : Nat × Nat} {t : RangeTable} (h : ascending (r :: t) = true) :
    ∀ s ∈ t, r.1 < s.1 := by
  induction t generalizing r with
  | nil => intro s hs; exact absurd hs List.not_mem_nil
  | cons u t ih =>
    intro s hs
    have hru : r.1 < u.1 := by
      simp only [ascending, Bool.and_eq_true, decide_eq_true_eq] at h
      omega
    rcases List.mem_cons.mp hs with rfl | hs
    · exact hru
    · exact Nat.lt_trans hru (ih (ascending_tail h) s hs)

/-- Membership in an ascending table is membership in one of its ranges. -/
theorem contains_iff {t : RangeTable} (h : ascending t = true) (n : Nat) :
    contains t n = true ↔ ∃ r ∈ t, r.1 ≤ n ∧ n ≤ r.2 := by
  induction t with
  | nil => simp [contains]
  | cons r t ih =>
    have hlater := lt_of_ascending h
    rw [contains]
    split
    · case isTrue hlt =>
      refine ⟨fun hf => absurd hf Bool.false_ne_true, ?_⟩
      rintro ⟨s, hs, hle, _⟩
      rcases List.mem_cons.mp hs with rfl | hs
      · exact absurd hle (Nat.not_le_of_lt hlt)
      · exact absurd hle (Nat.not_le_of_lt (Nat.lt_trans hlt (hlater s hs)))
    · case isFalse hge =>
      rw [Bool.or_eq_true, decide_eq_true_eq, ih (ascending_tail h)]
      constructor
      · rintro (hle | ⟨s, hs, hmem⟩)
        · exact ⟨r, List.mem_cons_self, Nat.le_of_not_lt hge, hle⟩
        · exact ⟨s, List.mem_cons_of_mem _ hs, hmem⟩
      · rintro ⟨s, hs, hmem⟩
        rcases List.mem_cons.mp hs with rfl | hs
        · exact Or.inl hmem.2
        · exact Or.inr ⟨s, hs, hmem⟩

end RangeTable
end Unicode
end Highlighter
