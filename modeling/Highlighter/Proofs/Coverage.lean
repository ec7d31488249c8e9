/-
What the bytes of a line lie in.

The coverage of a line has for every byte the style of the fragment that has this byte, and
nothing where no fragment has it.  It is made up token after token, and says the same as the
fragments do (`State.styledAt_iff`).
-/
import Highlighter.Proofs.Cursor
import Highlighter.Proofs.Tiling

namespace Highlighter

/-- What every byte of a token and of the white space before it lies in: the style of the
fragment, and nothing where there is none. -/
def Token.coverage (t : Token) : List (Option (Option Style)) :=
  List.replicate (Text.byteLength t.gap) none ++
    List.replicate (Text.byteLength t.text) (if t.isBlank then none else some t.style)

theorem Token.length_coverage (t : Token) :
    t.coverage.length = Text.byteLength t.gap + Text.byteLength t.text := by
  rw [coverage, List.length_append, List.length_replicate, List.length_replicate]

/-- The same token with more white space before it. -/
def Token.behind (t : Token) (gap : Text) : Token := { t with gap := gap ++ t.gap }

theorem Token.coverage_behind (t : Token) (gap : Text) :
    (t.behind gap).coverage = List.replicate (Text.byteLength gap) none ++ t.coverage := by
  rw [coverage, behind, Text.byteLength_append, ← List.replicate_append_replicate,
    List.append_assoc]
  rfl

namespace Fragment

/-- Whether a byte lies in a fragment of a style. -/
def StyledAt (fs : List Fragment) (offset : Nat) (style : Option Style) : Prop :=
  ∃ f ∈ fs, f.Covers offset ∧ f.style = style

theorem start_of_mem_ofTokens {offset : Nat} {tokens : List Token} {f : Fragment}
    (h : f ∈ ofTokens offset tokens) : offset ≤ f.start := by
  induction tokens generalizing offset with
  | nil => exact absurd h List.not_mem_nil
  | cons t rest ih =>
    simp only [ofTokens] at h
    split at h
    · have := ih h
      omega
    · rcases List.mem_cons.mp h with rfl | h
      · exact Nat.le_add_right _ _
      · have := ih h
        omega

theorem styledAt_append_iff {fs gs : List Fragment} {offset : Nat} {style : Option Style} :
    StyledAt (fs ++ gs) offset style ↔ StyledAt fs offset style ∨ StyledAt gs offset style := by
  simp only [StyledAt, List.mem_append, or_and_right, exists_or]

theorem styledAt_token_iff {offset n : Nat} {t : Token} {style : Option Style} :
    StyledAt (if t.isBlank then [] else [⟨offset + Text.byteLength t.gap, t.text, t.style⟩])
      (offset + n) style ↔ t.coverage[n]? = some (some style) := by
  rw [Token.coverage, List.getElem?_append, List.length_replicate, List.getElem?_replicate,
    List.getElem?_replicate]
  by_cases hblank : t.isBlank = true
  · rw [if_pos hblank, if_pos hblank]
    refine iff_of_false (fun ⟨f, hf, _⟩ => absurd hf List.not_mem_nil) ?_
    split
    · simp
    · split <;> simp
  · rw [if_neg hblank, if_neg hblank]
    simp only [StyledAt, Covers, stop, List.mem_singleton, exists_eq_left]
    by_cases hgap : n < Text.byteLength t.gap
    · rw [if_pos hgap, if_pos hgap]
      exact iff_of_false (by omega) (by simp)
    · rw [if_neg hgap]
      by_cases htext : n - Text.byteLength t.gap < Text.byteLength t.text
      · rw [if_pos htext, Option.some.injEq, Option.some.injEq]
        exact and_iff_right (by omega)
      · rw [if_neg htext]
        exact iff_of_false (by omega) (by simp)

theorem styledAt_ofTokens_iff {offset n : Nat} {tokens : List Token} {style : Option Style} :
    StyledAt (ofTokens offset tokens) (offset + n) style ↔
      (tokens.flatMap Token.coverage)[n]? = some (some style) := by
  induction tokens generalizing offset n with
  | nil => simp [StyledAt, ofTokens]
  | cons t rest ih =>
    have hfragments : ofTokens offset (t :: rest) =
        (if t.isBlank then [] else [⟨offset + Text.byteLength t.gap, t.text, t.style⟩]) ++
          ofTokens (offset + t.coverage.length) rest := by
      rw [Token.length_coverage, ← Nat.add_assoc, ofTokens]
      split <;> rfl
    rw [hfragments, styledAt_append_iff, styledAt_token_iff, List.flatMap_cons,
      List.getElem?_append]
    by_cases hn : n < t.coverage.length
    · -- The fragments of later tokens begin behind this byte.
      have hlater : ¬ StyledAt (ofTokens (offset + t.coverage.length) rest) (offset + n) style := by
        rintro ⟨f, hf, hcovers, -⟩
        have hstart := start_of_mem_ofTokens hf
        have hbegun := hcovers.1
        omega
      rw [if_pos hn, or_iff_left hlater]
    · have hbehind : offset + n = offset + t.coverage.length + (n - t.coverage.length) := by omega
      have hnone : t.coverage[n]? = none := List.getElem?_eq_none (by omega)
      rw [if_neg hn, hbehind, ih, hnone]
      simp

end Fragment

namespace State

/-- What every byte of a line lies in. -/
def coverage (st : State) (line : Text) : List (Option (Option Style)) :=
  ((st.run line).map Reading.token).flatMap Token.coverage

theorem styledAt_iff {st : State} {line : Text} {n : Nat} {style : Option Style} :
    Fragment.StyledAt (st.fragments line) n style ↔ (st.coverage line)[n]? = some (some style) := by
  rw [coverage, ← Fragment.styledAt_ofTokens_iff, Nat.zero_add]
  rfl

theorem coverage_nil (st : State) : st.coverage [] = [] := by
  rw [coverage, run_nil]
  rfl

theorem coverage_of_ne_nil (st : State) {line : Text} (h : line ≠ []) :
    st.coverage line =
      (st.read line).token.coverage ++ (st.read line).state.coverage (st.read line).rest := by
  rw [coverage, st.run_of_ne_nil h]
  rfl

theorem length_coverage (st : State) (line : Text) :
    (st.coverage line).length = Text.byteLength line := by
  fun_induction run st line with
  | case1 st => rw [coverage_nil]; rfl
  | case2 st line h _ ih =>
    have happ := congrArg Text.byteLength (st.read_append line)
    rw [Text.byteLength_append, Text.byteLength_append] at happ
    rw [st.coverage_of_ne_nil h, List.length_append, Token.length_coverage, ih, happ]

end State
end Highlighter
