/-
The pieces of a line have the ranges of its spans.

Spans that follow one another on a line (`Span.Fit`) do so after they are merged, and the
pieces that are cut at such spans are the spans again, with what lies between them
(`Piece.styledSpans_ofSpans`).  Pieces without a style that touch cannot be told apart in
markup: `Piece.joinPlain` makes them one, which keeps the text of the line and the ranges
of the other pieces.
-/
import Highlighter.Markup.Document
import Highlighter.Proofs.Tiling

namespace Highlighter

namespace Span

/-- Spans from an offset on that are ranges of a text, one behind the other. -/
def Fit (offset : Nat) : List Span → Text → Prop
  | [], _ => True
  | sp :: rest, s => ∃ gap inside after, s = gap ++ (inside ++ after) ∧
      sp.start = offset + Text.byteLength gap ∧ sp.stop = sp.start + Text.byteLength inside ∧
      Fit sp.stop rest after

theorem fit_of_tiles {offset : Nat} {fs : List Fragment} {s : Text}
    (h : Fragment.Tiles offset fs s) : Fit offset (fs.map Fragment.span) s := by
  induction fs generalizing offset s with
  | nil => trivial
  | cons f rest ih =>
    obtain ⟨gap, after, hs, -, -, hstart, hrest⟩ := h
    exact ⟨gap, f.text, after, hs, hstart, rfl, ih hrest⟩

theorem fit_mergeFrom {offset : Nat} {last : Span} {spans : List Span} {s : Text}
    (h : Fit offset (last :: spans) s) : Fit offset (mergeFrom last spans) s := by
  induction spans generalizing offset last s with
  | nil => exact h
  | cons next rest ih =>
    obtain ⟨gap, inside, after, rfl, hstart, hstop, hnext⟩ := h
    rw [mergeFrom]
    by_cases hjoin : continues last next = true
    · -- The two spans touch, so that nothing lies between them.
      rw [if_pos hjoin]
      obtain ⟨gap', inside', after', rfl, hstart', hstop', hrest⟩ := hnext
      have htouch : last.stop = next.start := by
        rw [continues, Bool.and_eq_true] at hjoin
        exact eq_of_beq hjoin.1
      have hgap : gap' = [] := Text.byteLength_eq_zero_iff.mp (by omega)
      refine ih ⟨gap, inside ++ inside', after', ?_, hstart, ?_, hrest⟩
      · rw [hgap, List.nil_append, List.append_assoc]
      · show next.stop = last.start + Text.byteLength (inside ++ inside')
        rw [Text.byteLength_append]
        omega
    · rw [if_neg hjoin]
      exact ⟨gap, inside, after, rfl, hstart, hstop, ih hnext⟩

theorem fit_mergeAdjacent {offset : Nat} {spans : List Span} {s : Text}
    (h : Fit offset spans s) : Fit offset (mergeAdjacent spans) s := by
  cases spans with
  | nil => trivial
  | cons first rest => exact fit_mergeFrom h

end Span

namespace Piece

/-- The ranges of the pieces with a style, of pieces that follow one another from an
offset on. -/
def styledSpans (offset : Nat) : List Piece → List Span
  | [] => []
  | p :: rest =>
    let stop := offset + Text.byteLength p.text
    let later := styledSpans stop rest
    if p.style.isSome then ⟨offset, stop, p.style⟩ :: later else later

theorem styledSpans_plain (offset : Nat) (s : Text) (rest : List Piece) :
    styledSpans offset (⟨s, none⟩ :: rest) = styledSpans (offset + Text.byteLength s) rest := rfl

theorem styledSpans_ofSpans {offset : Nat} {spans : List Span} {rest : Text}
    (h : Span.Fit offset spans rest) :
    styledSpans offset (ofSpans offset rest spans) = spans.filter (·.style.isSome) := by
  induction spans generalizing offset rest with
  | nil =>
    rw [ofSpans]
    split <;> rfl
  | cons sp spans ih =>
    obtain ⟨gap, inside, after, rfl, hstart, hstop, hrest⟩ := h
    have hinside : styledSpans sp.start (⟨inside, sp.style⟩ :: ofSpans sp.stop after spans) =
        (sp :: spans).filter (·.style.isSome) := by
      simp only [styledSpans, ← hstop, ih hrest]
      rw [List.filter_cons]
    have hgap : sp.start - offset = Text.byteLength gap := by omega
    have hlength : sp.stop - sp.start = Text.byteLength inside := by omega
    rw [ofSpans, hgap, Text.splitBytes_byteLength, hlength]
    show styledSpans offset (if gap.isEmpty then _ else _) = _
    rw [Text.splitBytes_byteLength]
    by_cases hempty : gap.isEmpty = true
    · have hoffset : sp.start = offset := by
        rw [hstart, List.isEmpty_iff.mp hempty]
        rfl
      rw [if_pos hempty, ← hinside, hoffset]
    · rw [if_neg hempty, styledSpans_plain, ← hstart]
      exact hinside

/-- Pieces behind a plain text, with the plain ones between two others made one. -/
def joinPlain (plain : Text) : List Piece → List Piece
  | [] => [⟨plain, none⟩]
  | ⟨s, none⟩ :: rest => joinPlain (plain ++ s) rest
  | ⟨s, some style⟩ :: rest => ⟨plain, none⟩ :: ⟨s, some style⟩ :: joinPlain [] rest

theorem joinPlain_flatten (plain : Text) (ps : List Piece) :
    (joinPlain plain ps).flatMap Piece.text = plain ++ ps.flatMap Piece.text := by
  fun_induction joinPlain plain ps with
  | case1 plain => rfl
  | case2 plain s rest ih => rw [ih, List.flatMap_cons, List.append_assoc]
  | case3 plain s style rest ih =>
    rw [List.flatMap_cons, List.flatMap_cons, ih, List.flatMap_cons, List.nil_append]

theorem styledSpans_joinPlain (offset : Nat) (plain : Text) (ps : List Piece) :
    styledSpans offset (joinPlain plain ps) =
      styledSpans (offset + Text.byteLength plain) ps := by
  fun_induction joinPlain plain ps generalizing offset with
  | case1 plain => rfl
  | case2 plain s rest ih => rw [ih, styledSpans_plain, Text.byteLength_append, Nat.add_assoc]
  | case3 plain s style rest ih =>
    rw [styledSpans_plain]
    exact congrArg (_ :: ·) (ih _)

end Piece

theorem HighlightedLine.newline_not_mem_pieces {l : HighlightedLine} (h : '\n' ∉ l.text) :
    ∀ p ∈ l.pieces, '\n' ∉ p.text := by
  intro p hp hmem
  rw [← l.pieces_flatten] at h
  exact h (List.mem_flatMap.mpr ⟨p, hp, hmem⟩)

/-- The pieces of a highlighted line that have a style are its merged spans that have one. -/
theorem styledSpans_pieces {st : State} {lines : List Text} :
    ∀ l ∈ highlightLines st lines, Piece.styledSpans 0 l.pieces =
      (Span.mergeAdjacent l.spans).filter (·.style.isSome) := by
  induction lines generalizing st with
  | nil => exact fun l hl => absurd hl List.not_mem_nil
  | cons line rest ih =>
    intro l hl
    rcases List.mem_cons.mp hl with rfl | hl
    · exact Piece.styledSpans_ofSpans
        (Span.fit_mergeAdjacent (Span.fit_of_tiles (st.fragments_tiles line)))
    · exact ih l hl

end Highlighter
