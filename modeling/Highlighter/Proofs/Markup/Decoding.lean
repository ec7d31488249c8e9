/-
What is read back out of a highlighted document.

`decode?` takes the fixed tags off both ends of a document, splits it at line feeds, and
cuts every line at the tags of its styled pieces.  It fails on a document in which a tag of
another form stands, a piece is not closed, or a line is not ended.  What it reads out of a
rendered document are the lines of the text and the merged spans with a style
(`document_decodes`), whatever the text contains.
-/
import Highlighter.Proofs.Markup.Pieces
import Highlighter.Proofs.Markup.Reading
import Mathlib.Data.List.Basic

namespace Highlighter
namespace Markup

def documentOpening : Text := "<pre class=\"cm-s-default\">".toList

def documentClosing : Text := "</pre>".toList

/-- What stands between the brackets of the tag that opens a piece of a style. -/
def styledTag (s : Style) : Text := "span class=\"cm-".toList ++ s.name ++ ['"']

/-- The tags of which a rendered document is made. -/
def documentTags : List Text :=
  documentOpening :: documentClosing :: "</span>".toList ::
    Style.all.map fun s => '<' :: (styledTag s ++ ['>'])

/-- The style of the piece that a tag opens. -/
def styleOfTag? (tag : Text) : Option Style := do
  let value ← tag.dropPrefix? "span class=\"cm-".toList
  let name ← value.dropSuffix? ['"']
  Style.ofName? name

/-- The pieces in what stands behind the first `<` of a line, split at every `<`: one field
has the tag that opens a styled piece and its text, and the next one has the tag that
closes it and the plain text behind it. -/
def readStyled? : List Text → Option (List Piece)
  | [] => some []
  | [_] => none
  | opened :: closed :: rest => do
    let (tag, inside) := Text.cutFirst '>' opened
    let (closing, plain) := Text.cutFirst '>' closed
    let style ← styleOfTag? tag
    let later ← readStyled? rest
    if closing = "/span".toList then
      some (⟨unescape inside, some style⟩ :: ⟨unescape plain, none⟩ :: later)
    else none

def readLine? (line : Text) : Option (List Piece) :=
  match Text.fields '<' line with
  | [] => none
  | plain :: rest => (readStyled? rest).map (⟨unescape plain, none⟩ :: ·)

/-- The lines of a highlighted document, each as its pieces. -/
def decode? (s : Text) : Option (List (List Piece)) := do
  let s ← s.dropPrefix? documentOpening
  let s ← s.dropSuffix? documentClosing
  let lines ← (Text.fields '\n' s).dropSuffix? [[]]
  lines.mapM readLine?

theorem styleOfTag?_styledTag (s : Style) : styleOfTag? (styledTag s) = some s := by
  cases s <;> decide

theorem not_mem_styledTag (s : Style) {c : Char} (h : c = '<' ∨ c = '>' ∨ c = '\n') :
    c ∉ styledTag s := by
  have hall : (styledTag s).all (fun d => d ≠ '<' ∧ d ≠ '>' ∧ d ≠ '\n') = true := by
    cases s <;> decide
  intro hmem
  obtain ⟨hopen, hclose, hbreak⟩ := of_decide_eq_true (List.all_eq_true.mp hall c hmem)
  exact h.elim hopen fun h => h.elim hclose hbreak

theorem render_styledTag (s : Style) :
    Item.render (.tagged "span" [("class", s.className)]) = '<' :: (styledTag s ++ ['>']) := by
  cases s <;> decide

/-- The text of pieces in markup. -/
def renderPieces (ps : List Piece) : Text := render (ps.flatMap Piece.markup)

theorem renderPieces_plain (s : Text) (rest : List Piece) :
    renderPieces (⟨s, none⟩ :: rest) = escape s ++ renderPieces rest := rfl

theorem renderPieces_styled (s : Text) (style : Style) (rest : List Piece) :
    renderPieces (⟨s, some style⟩ :: rest) =
      '<' :: ((styledTag style ++ '>' :: escape s) ++
        '<' :: (("/span".toList ++ ['>']) ++ renderPieces rest)) := by
  show Item.render (.tagged "span" [("class", style.className)]) ++
    (escape s ++ ("</span>".toList ++ renderPieces rest)) = _
  rw [render_styledTag]
  simp

/-- The pieces of a line are read back, but that plain ones which touch have become one. -/
theorem readLine?_renderPieces (plain : Text) (ps : List Piece) :
    readLine? (escape plain ++ renderPieces ps) = some (Piece.joinPlain plain ps) := by
  have hplain : ∀ s : Text, '<' ∉ escape s := fun s => not_mem_escape s (by decide)
  fun_induction Piece.joinPlain plain ps with
  | case1 plain =>
    show readLine? (escape plain ++ []) = _
    rw [List.append_nil, readLine?, Text.fields_of_not_mem (hplain plain)]
    show some [(⟨unescape (escape plain), none⟩ : Piece)] = _
    rw [unescape_escape]
  | case2 plain s rest ih =>
    rw [renderPieces_plain, ← List.append_assoc, ← escape_append]
    exact ih
  | case3 plain s style rest ih =>
    have hopened : '<' ∉ styledTag style ++ '>' :: escape s := by
      rw [List.mem_append, List.mem_cons, not_or, not_or]
      exact ⟨not_mem_styledTag style (.inl rfl), by decide, hplain s⟩
    rw [renderPieces_styled, readLine?, Text.fields_append_cons, Text.fields_append_cons,
      Text.fields_of_not_mem (hplain plain), Text.fields_of_not_mem hopened,
      Text.fields_append_of_not_mem (by decide)]
    replace ih : readLine? (renderPieces rest) = some (Piece.joinPlain [] rest) := ih
    rw [readLine?] at ih
    cases hfields : Text.fields '<' (renderPieces rest) with
    | nil => exact absurd hfields (Text.fields_ne_nil '<' _)
    | cons after others =>
      rw [hfields] at ih
      obtain ⟨later, hlater, hjoin⟩ := Option.map_eq_some_iff.mp ih
      rw [List.modifyHead_cons]
      show (readStyled? ((styledTag style ++ '>' :: escape s) ::
        ("/span".toList ++ '>' :: after) :: others)).map (⟨unescape (escape plain), none⟩ :: ·) = _
      rw [readStyled?, Text.cutFirst_append_cons (not_mem_styledTag style (.inr (.inl rfl))),
        Text.cutFirst_append_cons (by decide)]
      simp only [styleOfTag?_styledTag, hlater, unescape_escape, ← hjoin]
      rfl

theorem newline_not_mem_renderPieces {ps : List Piece} (h : ∀ p ∈ ps, '\n' ∉ p.text) :
    '\n' ∉ renderPieces ps := by
  induction ps with
  | nil => exact List.not_mem_nil
  | cons p rest ih =>
    obtain ⟨s, style?⟩ := p
    have hs : '\n' ∉ escape s := newline_not_mem_escape (h ⟨s, style?⟩ List.mem_cons_self)
    have hrest := ih fun q hq => h q (List.mem_cons_of_mem _ hq)
    cases style? with
    | none => simp [renderPieces_plain, hs, hrest]
    | some style =>
      have htag := not_mem_styledTag style (.inr (.inr rfl))
      simp [renderPieces_styled, hs, hrest, htag]

theorem mapM_readLine? (lines : List HighlightedLine) :
    (lines.map fun l => renderPieces l.pieces).mapM readLine? =
      some (lines.map fun l => Piece.joinPlain [] l.pieces) := by
  induction lines with
  | nil => rfl
  | cons l rest ih =>
    have hline : readLine? (renderPieces l.pieces) = some (Piece.joinPlain [] l.pieces) :=
      readLine?_renderPieces [] l.pieces
    rw [List.map_cons, List.mapM_cons, hline, ih]
    rfl

theorem render_document (s : Text) : render (document s) = documentOpening ++
    (((highlight s).map fun l => renderPieces l.pieces).flatMap (· ++ ['\n']) ++
      documentClosing) := by
  have hline : ∀ l : HighlightedLine, render l.markup = renderPieces l.pieces ++ ['\n'] :=
    fun l => render_append _ _
  have hlines : render ((highlight s).flatMap HighlightedLine.markup) =
      ((highlight s).map fun l => renderPieces l.pieces).flatMap (· ++ ['\n']) := by
    rw [render, List.flatMap_assoc, List.flatMap_map]
    exact List.flatMap_congr fun l _ => hline l
  rw [document, render_append, render_append, hlines, List.append_assoc]
  rfl

theorem decode?_document (s : Text) :
    decode? (render (document s)) =
      some ((highlight s).map fun l => Piece.joinPlain [] l.pieces) := by
  have hnewline : ∀ line ∈ (highlight s).map fun l => renderPieces l.pieces, '\n' ∉ line := by
    intro line hline
    obtain ⟨l, hl, rfl⟩ := List.mem_map.mp hline
    have htext : l.text ∈ Text.lines s := by
      rw [← map_text_highlightLines .start (Text.lines s)]
      exact List.mem_map_of_mem hl
    exact newline_not_mem_renderPieces
      (HighlightedLine.newline_not_mem_pieces (Text.newline_not_mem_lines _ htext))
  have hopening : (render (document s)).dropPrefix? documentOpening = some
      (((highlight s).map fun l => renderPieces l.pieces).flatMap (· ++ ['\n']) ++
        documentClosing) := by
    rw [render_document]
    exact List.dropPrefix?_append_of_beq _ (beq_self_eq_true _)
  have hclosing : ∀ body : Text,
      (body ++ documentClosing).dropSuffix? documentClosing = some body :=
    fun body => List.dropSuffix?_eq_some_iff.mpr ⟨_, rfl, beq_self_eq_true _⟩
  have hended : ∀ lines : List Text, (lines ++ [[]]).dropSuffix? [[]] = some lines :=
    fun lines => List.dropSuffix?_eq_some_iff.mpr ⟨_, rfl, beq_self_eq_true _⟩
  rw [decode?, hopening, Option.bind_eq_bind, Option.bind_some, hclosing, Option.bind_eq_bind,
    Option.bind_some, Text.fields_flatMap_concat hnewline, hended]
  exact mapM_readLine? _

theorem text_or_tag_of_mem_piece {p : Piece} {item : Item} (h : item ∈ p.markup) :
    item.TextOr documentTags := by
  obtain ⟨t, style?⟩ := p
  cases style? with
  | none => exact Or.inl ⟨t, List.mem_singleton.mp h⟩
  | some style =>
    simp only [Piece.markup, List.mem_cons, List.not_mem_nil, or_false] at h
    rcases h with rfl | rfl | rfl
    · have htag : '<' :: (styledTag style ++ ['>']) ∈
          Style.all.map fun s => '<' :: (styledTag s ++ ['>']) :=
        List.mem_map_of_mem (Style.mem_all style)
      refine Or.inr ?_
      rw [render_styledTag]
      simp [documentTags, htag]
    · exact Or.inl ⟨t, rfl⟩
    · exact Or.inr (by decide)

theorem text_or_tag_of_mem_document {s : Text} {item : Item} (h : item ∈ document s) :
    item.TextOr documentTags := by
  rw [document, List.mem_append, List.mem_append, List.mem_singleton, List.mem_singleton,
    List.mem_flatMap] at h
  rcases h with (rfl | ⟨l, -, hl⟩) | rfl
  · exact Or.inr (by decide)
  · rw [HighlightedLine.markup, List.mem_append, List.mem_flatMap, List.mem_singleton] at hl
    rcases hl with ⟨p, -, hp⟩ | rfl
    · exact text_or_tag_of_mem_piece hp
    · exact Or.inl ⟨_, rfl⟩
  · exact Or.inr (by decide)

/-- Rendering a document loses nothing, and no text gets out of its place.  Whatever a text
contains, the lines that are read back out of the rendered document are the lines of the
text, and the pieces with a style in each of them are the merged spans that have one.
Every character that begins or ends a tag or a value belongs to one of the tags. -/
theorem document_decodes (s : Text) :
    (∃ lines, decode? (render (document s)) = some lines ∧
      lines.map (fun line => line.flatMap Piece.text) = Text.lines s ∧
      lines.map (Piece.styledSpans 0) = (highlight s).map fun l =>
        (Span.mergeAdjacent l.spans).filter (·.style.isSome)) ∧
    (highlight s).map HighlightedLine.text = Text.lines s ∧
    ∀ front c back, c ∈ ['<', '>', '"'] → render (document s) = front ++ c :: back →
      ∃ tag ∈ documentTags, ∃ before opening rest after,
        tag = opening ++ c :: rest ∧ front = before ++ opening ∧ back = rest ++ after := by
  have htexts := map_text_highlightLines .start (Text.lines s)
  refine ⟨⟨_, decode?_document s, ?_, ?_⟩, htexts, ?_⟩
  · rw [List.map_map, ← htexts]
    refine List.map_congr_left fun l _ => ?_
    show (Piece.joinPlain [] l.pieces).flatMap Piece.text = l.text
    rw [Piece.joinPlain_flatten, List.nil_append, l.pieces_flatten]
  · rw [List.map_map]
    refine List.map_congr_left fun l hl => ?_
    rw [Function.comp_apply, Piece.styledSpans_joinPlain]
    exact styledSpans_pieces l hl
  · intro front c back hc hrender
    obtain ⟨item, hitem, htext, before, opening, rest, after, hform, hplace⟩ :=
      Item.exists_of_mark hc hrender
    rcases text_or_tag_of_mem_document hitem with ⟨content, hcontent⟩ | htag
    · exact absurd hcontent (htext content)
    · exact ⟨item.render, htag, before, opening, rest, after, hform, hplace⟩

end Markup
end Highlighter
