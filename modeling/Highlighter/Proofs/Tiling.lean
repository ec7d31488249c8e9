/-
The fragments of a line tile it.

Every token of a line has white space in front of it and a text that is not empty,
and unless it is blank, a comment or a string, its text begins with a character that
is no white space (`State.read_isProper`).  `Fragment.Tiles` says that fragments,
with white space before, between and behind them, make up a text: it holds of the
fragments of every line, whatever state the line is read in, and order, disjointness
and coverage follow from it alone.
-/
import Highlighter.Document
import Highlighter.Proofs.Cut

namespace Highlighter
namespace Cut

theorem gap_all (m : Mode) (suspended : List Scanner) (s : Text) :
    (cut m suspended s).gap.all Unicode.isWhiteSpace = true := by
  rcases cut_cases m suspended s with ⟨_, _, _, _, _, _, _, heq⟩ | ⟨_, heq⟩
  · rw [heq]
    rfl
  · rw [heq]
    rcases m.cut_cases s with ⟨_, hblank⟩ | ⟨gap, c, rest, _, hgap, _, hcut⟩
    · rw [hblank]
      rfl
    · rw [hcut]
      exact hgap

/-- A token is blank, or is a step of a comment or a string, or begins with a
character that is no white space. -/
theorem text_cases (m : Mode) (suspended : List Scanner) (s : Text) :
    ((cut m suspended s).origin = .blank ∧
        (cut m suspended s).text.all Unicode.isWhiteSpace = true) ∨
      (∃ sc style, (cut m suspended s).origin = .scanner sc style ∧
        (style = .comment ∨ style = .string)) ∨
      ∃ c t, (cut m suspended s).text = c :: t ∧ Unicode.isWhiteSpace c = false := by
  rcases cut_cases m suspended s with ⟨_, sc, _, st, _, _, hstep, heq⟩ | ⟨_, heq⟩
  · rw [heq]
    have hstyle := Scanner.step_style_mem hstep
    cases sc with
    | comment syn => exact Or.inr (Or.inl ⟨_, _, rfl, Or.inl (List.mem_singleton.mp hstyle)⟩)
    | string quote => exact Or.inr (Or.inl ⟨_, _, rfl, Or.inr (List.mem_singleton.mp hstyle)⟩)
    | uri => exact Or.inr (Or.inr (Scanner.uri_step_head hstep))
  · rw [heq]
    rcases m.cut_cases s with ⟨hall, hblank⟩ | ⟨gap, c, rest, _, _, hc, hcut⟩
    · rw [hblank]
      exact Or.inl ⟨rfl, hall⟩
    · rw [hcut]
      obtain ⟨t, ht⟩ := Finding.extent_head (m.find_ne_nil c rest) (m.find_append c rest)
      exact Or.inr (Or.inr ⟨c, t, ht, hc⟩)

end Cut

namespace Token

/-- What holds of every token that is read off a line. -/
structure IsProper (t : Token) : Prop where
  gap_all : t.gap.all Unicode.isWhiteSpace = true
  text_ne_nil : t.text ≠ []
  head : t.isBlank = false → t.style ≠ some .comment → t.style ≠ some .string →
    ∃ c rest, t.text = c :: rest ∧ Unicode.isWhiteSpace c = false

end Token

namespace State

theorem read_isProper (st : State) {s : Text} (hs : s ≠ []) : (st.read s).token.IsProper := by
  refine ⟨Cut.gap_all _ _ _, Cut.text_ne_nil _ _ hs, ?_⟩
  intro hblank hcomment hstring
  rcases Cut.text_cases st.mode st.suspended s with
    ⟨horigin, hall⟩ | ⟨sc, style, horigin, hstyle⟩ | hhead
  · have : (st.read s).token.isBlank = true := by
      simp [Token.isBlank, read, horigin, Origin.style, hall]
    rw [this] at hblank
    exact absurd hblank (by decide)
  · have hsome : (st.read s).token.style = some style := by
      simp [read, horigin, Origin.style]
    rcases hstyle with rfl | rfl
    · exact absurd hsome hcomment
    · exact absurd hsome hstring
  · exact hhead

theorem run_isProper (st : State) (line : Text) :
    ∀ t ∈ (st.run line).map Reading.token, t.IsProper := by
  fun_induction run st line with
  | case1 st => simp
  | case2 st line h _ ih =>
    intro t ht
    rw [List.map_cons, List.mem_cons] at ht
    rcases ht with rfl | ht
    · exact st.read_isProper h
    · exact ih t ht

end State

namespace Fragment

/-- Fragments from an offset on, with white space around them, make up a text. -/
def Tiles (offset : Nat) : List Fragment → Text → Prop
  | [], s => s.all Unicode.isWhiteSpace = true
  | f :: rest, s => ∃ gap after, s = gap ++ (f.text ++ after) ∧
      gap.all Unicode.isWhiteSpace = true ∧ f.text ≠ [] ∧
      f.start = offset + Text.byteLength gap ∧ Tiles f.stop rest after

/-- Whether the character at an offset belongs to a fragment. -/
def Covers (f : Fragment) (offset : Nat) : Prop := f.start ≤ offset ∧ offset < f.stop

/-- White space in front may be added to the first gap. -/
theorem tiles_append_left {offset : Nat} {blank s : Text} {fs : List Fragment}
    (hblank : blank.all Unicode.isWhiteSpace = true)
    (h : Tiles (offset + Text.byteLength blank) fs s) : Tiles offset fs (blank ++ s) := by
  cases fs with
  | nil =>
    rw [Tiles] at h ⊢
    rw [List.all_append, hblank, h]
    rfl
  | cons f rest =>
    obtain ⟨gap, after, rfl, hgap, hne, hstart, hrest⟩ := h
    refine ⟨blank ++ gap, after, (List.append_assoc _ _ _).symm, ?_, hne, ?_, hrest⟩
    · rw [List.all_append, hblank, hgap]
      rfl
    · rw [Text.byteLength_append]
      omega

theorem tiles_ofTokens {tokens : List Token} (h : ∀ t ∈ tokens, t.IsProper) (offset : Nat) :
    Tiles offset (ofTokens offset tokens) (tokens.flatMap fun t => t.gap ++ t.text) := by
  induction tokens generalizing offset with
  | nil => rfl
  | cons t rest ih =>
    obtain ⟨hgap, hne, -⟩ := h t List.mem_cons_self
    have hlater := ih (fun u hu => h u (List.mem_cons_of_mem _ hu))
      (offset + Text.byteLength t.gap + Text.byteLength t.text)
    rw [List.flatMap_cons, List.append_assoc]
    simp only [ofTokens]
    by_cases hblank : t.isBlank = true
    · -- A blank token leaves no fragment, and its text joins the gap before the next one.
      rw [if_pos hblank]
      have htext : t.text.all Unicode.isWhiteSpace = true := by
        rw [Token.isBlank, Bool.and_eq_true] at hblank
        exact hblank.2
      exact tiles_append_left hgap (tiles_append_left htext hlater)
    · rw [if_neg hblank]
      exact ⟨t.gap, _, rfl, hgap, hne, rfl, hlater⟩

theorem bounds_of_tiles {offset : Nat} {fs : List Fragment} {s : Text} (h : Tiles offset fs s) :
    ∀ f ∈ fs, offset ≤ f.start ∧ f.start < f.stop ∧ f.stop ≤ offset + Text.byteLength s := by
  induction fs generalizing offset s with
  | nil => exact fun f hf => absurd hf List.not_mem_nil
  | cons f rest ih =>
    obtain ⟨gap, after, rfl, -, hne, hstart, hrest⟩ := h
    have hpos : Text.byteLength f.text ≠ 0 := fun h0 => hne (Text.byteLength_eq_zero_iff.mp h0)
    have hstop : f.stop = f.start + Text.byteLength f.text := rfl
    rw [Text.byteLength_append, Text.byteLength_append]
    intro g hg
    rcases List.mem_cons.mp hg with rfl | hg
    · omega
    · have := ih hrest g hg
      omega

theorem pairwise_of_tiles {offset : Nat} {fs : List Fragment} {s : Text}
    (h : Tiles offset fs s) : fs.Pairwise fun f g => f.stop ≤ g.start := by
  induction fs generalizing offset s with
  | nil => exact List.Pairwise.nil
  | cons f rest ih =>
    obtain ⟨gap, after, -, -, -, -, hrest⟩ := h
    exact List.Pairwise.cons (fun g hg => (bounds_of_tiles hrest g hg).1) (ih hrest)

theorem append_eq_append_cons_cases {a b front back : Text} {c : Char}
    (h : a ++ b = front ++ c :: back) :
    (∃ t, a = front ++ c :: t) ∨ ∃ t, front = a ++ t ∧ b = t ++ c :: back := by
  rcases List.append_eq_append_iff.mp h with ⟨t, hfront, hb⟩ | ⟨t, ha, hback⟩
  · exact Or.inr ⟨t, hfront, hb⟩
  · cases t with
    | nil => exact Or.inr ⟨[], by rw [ha, List.append_nil, List.append_nil], hback.symm⟩
    | cons d t =>
      obtain ⟨rfl, -⟩ := List.cons.inj hback
      exact Or.inl ⟨t, ha⟩

theorem exists_covers_of_tiles {offset : Nat} {fs : List Fragment} {s front back : Text}
    {c : Char} (h : Tiles offset fs s) (hs : s = front ++ c :: back)
    (hc : Unicode.isWhiteSpace c = false) :
    ∃ f ∈ fs, f.Covers (offset + Text.byteLength front) := by
  induction fs generalizing offset s front with
  | nil =>
    rw [Tiles, hs, List.all_append, List.all_cons, hc] at h
    simp at h
  | cons f rest ih =>
    obtain ⟨gap, after, rfl, hgap, hne, hstart, hrest⟩ := h
    have hstop : f.stop = f.start + Text.byteLength f.text := rfl
    rcases append_eq_append_cons_cases hs with ⟨t, rfl⟩ | ⟨t, rfl, htail⟩
    · rw [List.all_append, List.all_cons, hc] at hgap
      simp at hgap
    · rcases append_eq_append_cons_cases htail with ⟨u, htext⟩ | ⟨u, rfl, hafter⟩
      · have hsize := c.utf8Size_pos
        refine ⟨f, List.mem_cons_self, ?_, ?_⟩
        · rw [Text.byteLength_append]
          omega
        · rw [hstop, htext, Text.byteLength_append, Text.byteLength_append, Text.byteLength_cons]
          omega
      · obtain ⟨g, hg, hcovers⟩ := ih hrest hafter
        refine ⟨g, List.mem_cons_of_mem _ hg, ?_⟩
        have hoffset : offset + Text.byteLength (gap ++ (f.text ++ u)) =
            f.stop + Text.byteLength u := by
          rw [Text.byteLength_append, Text.byteLength_append]
          omega
        rw [hoffset]
        exact hcovers

theorem exists_token_of_mem_ofTokens {offset : Nat} {tokens : List Token} {f : Fragment}
    (h : f ∈ ofTokens offset tokens) :
    ∃ t ∈ tokens, t.isBlank = false ∧ f.text = t.text ∧ f.style = t.style := by
  induction tokens generalizing offset with
  | nil => exact absurd h List.not_mem_nil
  | cons t rest ih =>
    simp only [ofTokens] at h
    split at h
    · obtain ⟨u, hu, hfound⟩ := ih h
      exact ⟨u, List.mem_cons_of_mem _ hu, hfound⟩
    · case isFalse hblank =>
      rcases List.mem_cons.mp h with rfl | h
      · exact ⟨t, List.mem_cons_self, by simpa using hblank, rfl, rfl⟩
      · obtain ⟨u, hu, hfound⟩ := ih h
        exact ⟨u, List.mem_cons_of_mem _ hu, hfound⟩

/-- Fragments in order do not share a character. -/
theorem eq_of_covers {fs : List Fragment} (h : fs.Pairwise fun f g => f.stop ≤ g.start)
    {f g : Fragment} (hf : f ∈ fs) (hg : g ∈ fs) {n : Nat} (hfn : f.Covers n)
    (hgn : g.Covers n) : f = g := by
  have hshare : fs.Pairwise fun f g => f.Covers n → g.Covers n → f = g := by
    refine h.imp fun {f g} hle hfn hgn => ?_
    have h₁ := hfn.2
    have h₂ := hgn.1
    omega
  have hflip : fs.Pairwise (flip fun f g => f.Covers n → g.Covers n → f = g) :=
    hshare.imp fun {f g} hfg hgn hfn => (hfg hfn hgn).symm
  exact hshare.forall_of_forall_of_flip (fun f _ _ _ => rfl) hflip hf hg hfn hgn

end Fragment

namespace State

theorem fragments_tiles (st : State) (line : Text) :
    Fragment.Tiles 0 (st.fragments line) line := by
  have h := Fragment.tiles_ofTokens (st.run_isProper line) 0
  rw [List.flatMap_map, st.run_flatten] at h
  exact h

theorem head_of_mem_fragments {st : State} {line : Text} {f : Fragment}
    (hf : f ∈ st.fragments line) (hcomment : f.style ≠ some .comment)
    (hstring : f.style ≠ some .string) :
    ∃ c rest, f.text = c :: rest ∧ Unicode.isWhiteSpace c = false := by
  obtain ⟨t, ht, hblank, htext, hstyle⟩ := Fragment.exists_token_of_mem_ofTokens hf
  rw [hstyle] at hcomment hstring
  rw [htext]
  exact (st.run_isProper line t ht).head hblank hcomment hstring

/-- The fragments of a line lose nothing and report nothing twice.  In every state
they are parts of the line at ends of characters, none of them empty, one behind the
other; a character outside all of them is white space, and one that is not belongs
to exactly one of them.  Only comments and strings begin with white space.  With the
gaps between them the fragments make up the line. -/
theorem fragments_lossless (st : State) (line : Text) :
    (∀ f ∈ st.fragments line, f.start < f.stop ∧ f.stop ≤ Text.byteLength line ∧
      f.span.text? line = some f.text ∧
      (f.style ≠ some .comment → f.style ≠ some .string →
        ∃ c rest, f.text = c :: rest ∧ Unicode.isWhiteSpace c = false)) ∧
    (st.fragments line).Pairwise (fun f g => f.stop ≤ g.start) ∧
    (∀ front c back, line = front ++ c :: back →
      ((∀ f ∈ st.fragments line, ¬ f.Covers (Text.byteLength front)) →
        Unicode.isWhiteSpace c = true) ∧
      (Unicode.isWhiteSpace c = false →
        ∃ f ∈ st.fragments line, f.Covers (Text.byteLength front) ∧
          ∀ g ∈ st.fragments line, g.Covers (Text.byteLength front) → g = f)) ∧
    Fragment.Tiles 0 (st.fragments line) line := by
  have htiles := st.fragments_tiles line
  have hpairwise := Fragment.pairwise_of_tiles htiles
  refine ⟨?_, hpairwise, ?_, htiles⟩
  · intro f hf
    obtain ⟨-, hlt, hle⟩ := Fragment.bounds_of_tiles htiles f hf
    refine ⟨hlt, by omega, text?_span_of_mem_fragments hf, ?_⟩
    exact head_of_mem_fragments hf
  · intro front c back hline
    have hcovered : Unicode.isWhiteSpace c = false →
        ∃ f ∈ st.fragments line, f.Covers (Text.byteLength front) := by
      intro hc
      have h := Fragment.exists_covers_of_tiles htiles hline hc
      rw [Nat.zero_add] at h
      exact h
    constructor
    · intro hnone
      cases hc : Unicode.isWhiteSpace c with
      | true => rfl
      | false =>
        obtain ⟨f, hf, hcovers⟩ := hcovered hc
        exact absurd hcovers (hnone f hf)
    · intro hc
      obtain ⟨f, hf, hcovers⟩ := hcovered hc
      refine ⟨f, hf, hcovers, fun g hg hg' => ?_⟩
      exact Fragment.eq_of_covers hpairwise hg hf hg' hcovers

end State
end Highlighter
