/-
What the pages tell of their data.

The title of a page, the text in its form and the number of its earlier versions are each
the text behind the only tag of one form, and are read back from there.  What is left is the
document between fixed tags, which tells the lines of its text.  So pages with equal markup
have equal data (`pages_determine_data`).  Every character that begins or ends a tag or a
value belongs to the stylesheet or to one of the tags that are listed here, and none of these
depends on a title, a name or a text.
-/
import Highlighter.Preview.Session
import Highlighter.Proofs.Listing
import Highlighter.Proofs.Markup.Contents
import Highlighter.Proofs.Markup.Decoding

namespace Highlighter
namespace Markup

theorem isTag_of_mem_documentTags : ∀ form ∈ documentTags, IsTag form := by
  decide +kernel

theorem document_avoidsTag {tag s : Text} (h : '<' :: (tag ++ ['>']) ∉ documentTags) :
    ∀ item ∈ document s, AvoidsTag tag item.render :=
  avoidsTag_of_textOr (fun _ hitem => text_or_tag_of_mem_document hitem)
    isTag_of_mem_documentTags h

/-- Equal documents have equal lines, whatever ends those lines in their texts. -/
theorem render_document_eq_iff {s s' : Text} :
    render (document s) = render (document s') ↔ Text.lines s = Text.lines s' := by
  constructor
  · intro h
    have hlines : ∀ t : Text, (decode? (render (document t))).map
        (List.map fun line => line.flatMap Piece.text) = some (Text.lines t) := by
      intro t
      rw [decode?_document, Option.map_some, List.map_map,
        ← map_text_highlightLines .start (Text.lines t)]
      refine congrArg some (List.map_congr_left fun l _ => ?_)
      show (Piece.joinPlain [] l.pieces).flatMap Piece.text = l.text
      rw [Piece.joinPlain_flatten, List.nil_append, l.pieces_flatten]
    have hsome := hlines s
    rw [h, hlines s'] at hsome
    exact (Option.some.inj hsome).symm
  · intro h
    rw [document, document, highlight, highlight, h]

/-- What stands before the title of a page. -/
def pageFront : List Item :=
  [doctype, .bare "html", .bare "head", .tagged "meta" [("charset", "utf-8".toList)]]

/-- What stands between the title of a page and its document. -/
def pageStyle : List Item :=
  [.bare "style", .verbatim Stylesheet.text, .close "style", .close "head", .bare "body"]

def pageEnd : List Item := [.close "body", .close "html"]

theorem page_eq (title s : Text) : page title s = pageFront ++ .bare "title" ::
    ([.text title] ++ .close "title" :: (pageStyle ++ (document s ++ pageEnd))) := rfl

theorem not_mem_stylesheet : '<' ∉ Stylesheet.text := by
  decide +kernel

/-- The title of a page is read back. -/
theorem contents_title (title s : Text) :
    contents "title".toList (render (page title s)) = [title] := by
  have hstyle : ∀ item ∈ pageStyle, AvoidsTag "title".toList item.render := by
    simp only [pageStyle, List.forall_mem_cons]
    exact ⟨by decide, .inl not_mem_stylesheet, by decide, by decide, by decide, by decide⟩
  rw [page_eq]
  refine contents_element (by decide) (by decide) (List.append_nil _) (by decide) ?_
  simp only [List.forall_mem_cons, List.forall_mem_append]
  exact ⟨by decide, hstyle, document_avoidsTag (by decide +kernel), by decide⟩

/-- The tags of a page and its stylesheet. -/
def pageForms : List Text :=
  ["<!DOCTYPE html>", "<html>", "<head>", "<meta charset=\"utf-8\">", "<title>", "</title>",
    "<style>", "</style>", "</head>", "<body>", "</body>", "</html>"].map String.toList ++
  documentTags ++ [Stylesheet.text]

theorem page_textOr (title s : Text) : ∀ item ∈ page title s, item.TextOr pageForms := by
  have hdocument : ∀ item ∈ document s, item.TextOr pageForms :=
    fun item hitem => (text_or_tag_of_mem_document hitem).mono fun form hform =>
      List.mem_append_left _ (List.mem_append_right _ hform)
  have hstyle : (Item.verbatim Stylesheet.text).TextOr pageForms :=
    .inr (List.mem_append_right _ List.mem_cons_self)
  rw [page_eq]
  simp only [pageStyle, List.forall_mem_cons, List.forall_mem_append]
  exact ⟨Item.textOr_of_forms (by decide), .inr (by decide),
    ⟨Item.textOr_text _ _, List.forall_mem_nil _⟩, .inr (by decide),
    ⟨.inr (by decide), hstyle, .inr (by decide), .inr (by decide), .inr (by decide),
      List.forall_mem_nil _⟩, hdocument, Item.textOr_of_forms (by decide)⟩

/-- Pages are equal where the titles and the lines are. -/
theorem render_page_eq_iff {title title' s s' : Text} :
    render (page title s) = render (page title' s') ↔
      title = title' ∧ Text.lines s = Text.lines s' := by
  constructor
  · intro h
    have htitle := contents_title title s
    rw [h, contents_title, List.singleton_inj] at htitle
    refine ⟨htitle.symm, render_document_eq_iff.mp ?_⟩
    rw [htitle, page_eq, page_eq] at h
    simpa [render] using h
  · rintro ⟨rfl, hlines⟩
    rw [page_eq, page_eq, document, document, highlight, highlight, hlines]

end Markup

namespace Preview
namespace Session

open Markup

/-- What stands before the title of the page of a session. -/
def pageFront : List Item := [doctype, .bare "html", .bare "head"]

/-- What stands between the title and the text in the form. -/
def pageDocument (s : Session) : List Item :=
  [.tagged "link" [("rel", "stylesheet".toList), ("href", "/style.css".toList)], .close "head",
    .bare "body", .bare "main"] ++ document s.text ++ [.tagged "form" [("method", "post".toList)]]

def textarea : Item := .tagged "textarea" [("class", "document".toList), ("name", "text".toList)]

/-- What stands between the text in the form and the number of earlier versions. -/
def pageSubmit : List Item :=
  [.tagged "input" [("type", "submit".toList), ("value", "Highlight".toList)], .close "form"]

def pageEnd : List Item := [.close "main", .close "body", .close "html"]

theorem page_eq (name : Text) (s : Session) : s.page name =
    pageFront ++ .bare "title" :: ([.text name] ++ .close "title" :: (s.pageDocument ++
      textarea :: ([.text s.text] ++ .close "textarea" ::
        (pageSubmit ++ (s.history ++ pageEnd))))) := by
  simp only [page, pageFront, pageDocument, textarea, pageSubmit, pageEnd, List.append_assoc,
    List.cons_append, List.nil_append]

/-- The tags between the title and the text in the form, besides those of the document. -/
def bodyTags : List Text :=
  ["<link rel=\"stylesheet\" href=\"/style.css\">", "</head>", "<body>", "<main>",
    "<form method=\"post\">"].map String.toList

def historyTags : List Text := ["<p class=\"history\">", "</p>"].map String.toList

theorem isTag_of_mem_bodyTags : ∀ form ∈ bodyTags ++ documentTags, IsTag form :=
  List.forall_mem_append.mpr ⟨by decide, isTag_of_mem_documentTags⟩

theorem isTag_of_mem_historyTags : ∀ form ∈ historyTags, IsTag form := by
  decide

theorem pageDocument_textOr (s : Session) :
    ∀ item ∈ s.pageDocument, item.TextOr (bodyTags ++ documentTags) := by
  have hdocument : ∀ item ∈ document s.text, item.TextOr (bodyTags ++ documentTags) :=
    fun item hitem => (text_or_tag_of_mem_document hitem).mono fun form hform =>
      List.mem_append_right _ hform
  simp only [pageDocument, List.forall_mem_append]
  exact ⟨⟨Item.textOr_of_forms (by decide), hdocument⟩, Item.textOr_of_forms (by decide)⟩

theorem history_textOr (s : Session) : ∀ item ∈ s.history, item.TextOr historyTags := by
  rw [history]
  split
  · exact List.forall_mem_nil _
  · simp only [List.forall_mem_cons]
    exact ⟨.inr (by decide), Item.textOr_text _ _, Item.textOr_text _ _, .inr (by decide),
      List.forall_mem_nil _⟩

theorem pageDocument_avoidsTag (s : Session) {tag : Text}
    (h : '<' :: (tag ++ ['>']) ∉ bodyTags ++ documentTags) :
    ∀ item ∈ s.pageDocument, AvoidsTag tag item.render :=
  avoidsTag_of_textOr s.pageDocument_textOr isTag_of_mem_bodyTags h

theorem history_avoidsTag (s : Session) {tag : Text} (h : '<' :: (tag ++ ['>']) ∉ historyTags) :
    ∀ item ∈ s.history, AvoidsTag tag item.render :=
  avoidsTag_of_textOr s.history_textOr isTag_of_mem_historyTags h

/-- The name of a session is read back out of its page. -/
theorem contents_title (name : Text) (s : Session) :
    contents "title".toList (render (s.page name)) = [name] := by
  rw [page_eq]
  refine contents_element (by decide) (by decide) (List.append_nil _) (by decide) ?_
  simp only [List.forall_mem_cons, List.forall_mem_append]
  exact ⟨by decide, s.pageDocument_avoidsTag (by decide), by decide,
    ⟨avoidsTag_text _ _, List.forall_mem_nil _⟩, by decide, by decide,
    s.history_avoidsTag (by decide), by decide⟩

/-- The text of a session is read back out of the form on its page. -/
theorem contents_textarea (name : Text) (s : Session) :
    contents "textarea class=\"document\" name=\"text\"".toList (render (s.page name)) =
      [s.text] := by
  have hpage : s.page name = (pageFront ++ .bare "title" :: ([.text name] ++ .close "title" ::
      s.pageDocument)) ++ textarea :: ([.text s.text] ++ .close "textarea" ::
        (pageSubmit ++ (s.history ++ pageEnd))) := by
    rw [page_eq]
    simp only [List.append_assoc, List.cons_append]
  rw [hpage]
  refine contents_element (by decide) (by decide) (List.append_nil _) ?_ ?_
  · simp only [List.forall_mem_cons, List.forall_mem_append]
    exact ⟨by decide, by decide, ⟨avoidsTag_text _ _, List.forall_mem_nil _⟩, by decide,
      s.pageDocument_avoidsTag (by decide)⟩
  · simp only [List.forall_mem_cons, List.forall_mem_append]
    exact ⟨by decide, by decide, s.history_avoidsTag (by decide), by decide⟩

/-- What is shown of the number of earlier versions. -/
def historyTexts (revisions : Nat) : List Text :=
  if revisions = 0 then [] else [Listing.decimal revisions ++ " earlier versions".toList]

theorem historyTexts_injective : Function.Injective historyTexts := by
  intro n m h
  rw [historyTexts, historyTexts] at h
  by_cases hn : n = 0
  · by_cases hm : m = 0
    · rw [hn, hm]
    · rw [if_pos hn, if_neg hm] at h
      exact absurd h.symm (List.cons_ne_nil _ _)
  · by_cases hm : m = 0
    · rw [if_neg hn, if_pos hm] at h
      exact absurd h (List.cons_ne_nil _ _)
    · rw [if_neg hn, if_neg hm, List.singleton_inj, List.append_left_inj] at h
      exact Listing.decimal_injective h

/-- The number of earlier versions is read back where it is shown. -/
theorem contents_history (name : Text) (s : Session) :
    contents "p class=\"history\"".toList (render (s.page name)) = historyTexts s.revisions := by
  have hbefore : ∀ item ∈ pageFront ++ .bare "title" :: ([.text name] ++ .close "title" ::
      (s.pageDocument ++ textarea :: ([.text s.text] ++ .close "textarea" :: pageSubmit))),
      AvoidsTag "p class=\"history\"".toList item.render := by
    simp only [List.forall_mem_cons, List.forall_mem_append]
    exact ⟨by decide, by decide, ⟨avoidsTag_text _ _, List.forall_mem_nil _⟩, by decide,
      s.pageDocument_avoidsTag (by decide), by decide,
      ⟨avoidsTag_text _ _, List.forall_mem_nil _⟩, by decide, by decide⟩
  have hpage : s.page name = (pageFront ++ .bare "title" :: ([.text name] ++ .close "title" ::
      (s.pageDocument ++ textarea :: ([.text s.text] ++ .close "textarea" :: pageSubmit)))) ++
        (s.history ++ pageEnd) := by
    rw [page_eq]
    simp only [List.append_assoc, List.cons_append]
  rw [hpage, historyTexts]
  by_cases hnone : s.revisions = 0
  · rw [if_pos hnone, history, if_pos hnone, List.nil_append, render_append,
      contents_render_append hbefore]
    exact contents_render_eq_nil (by decide)
  · rw [if_neg hnone, history, if_neg hnone]
    have hnumber : render [.text (Listing.decimal s.revisions), .text " earlier versions".toList] =
        escape (Listing.decimal s.revisions ++ " earlier versions".toList) := by
      rw [escape_append]
      rfl
    show contents _ (render (_ ++ _ :: ([_, _] ++ .close "p" :: pageEnd))) = _
    exact contents_element (by decide) (by decide) hnumber hbefore (by decide)

/-- The tags of the page of a session. -/
def pageForms : List Text :=
  ["<!DOCTYPE html>", "<html>", "<head>", "<title>", "</title>",
    "<link rel=\"stylesheet\" href=\"/style.css\">", "</head>", "<body>", "<main>",
    "<form method=\"post\">", "<textarea class=\"document\" name=\"text\">", "</textarea>",
    "<input type=\"submit\" value=\"Highlight\">", "</form>", "<p class=\"history\">", "</p>",
    "</main>", "</body>", "</html>"].map String.toList ++ documentTags

theorem page_textOr (name : Text) (s : Session) :
    ∀ item ∈ s.page name, item.TextOr pageForms := by
  have hdocument : ∀ item ∈ s.pageDocument, item.TextOr pageForms :=
    fun item hitem => (s.pageDocument_textOr item hitem).mono (by decide +kernel)
  have hhistory : ∀ item ∈ s.history, item.TextOr pageForms :=
    fun item hitem => (s.history_textOr item hitem).mono (by decide)
  rw [page_eq]
  simp only [List.forall_mem_cons, List.forall_mem_append]
  exact ⟨Item.textOr_of_forms (by decide), .inr (by decide),
    ⟨Item.textOr_text _ _, List.forall_mem_nil _⟩, .inr (by decide), hdocument,
    .inr (by decide), ⟨Item.textOr_text _ _, List.forall_mem_nil _⟩, .inr (by decide),
    Item.textOr_of_forms (by decide), hhistory, Item.textOr_of_forms (by decide)⟩

/-- Pages of sessions are equal where the names, the texts and the numbers are. -/
theorem render_page_eq_iff {name name' : Text} {s s' : Session} :
    render (s.page name) = render (s'.page name') ↔
      name = name' ∧ s.text = s'.text ∧ s.revisions = s'.revisions := by
  constructor
  · intro h
    have htitle := s.contents_title name
    have htext := s.contents_textarea name
    have hhistory := s.contents_history name
    rw [h, s'.contents_title, List.singleton_inj] at htitle
    rw [h, s'.contents_textarea, List.singleton_inj] at htext
    rw [h, s'.contents_history] at hhistory
    exact ⟨htitle.symm, htext.symm, (historyTexts_injective hhistory).symm⟩
  · rintro ⟨rfl, htext, hrevisions⟩
    cases s
    cases s'
    cases htext
    cases hrevisions
    rfl

end Session

/-- The pages tell all of their data, and no text gets out of its place.  Two pages of a
document are equal just where the titles and the lines of the texts are, and two pages of a
session just where the names, the texts and the numbers of versions are.  Every character
that begins or ends a tag or a value stands in one of the fixed tags or in the stylesheet,
whatever the title, the name and the text contain. -/
theorem pages_determine_data :
    (∀ title title' s s' : Text,
      Markup.render (Markup.page title s) = Markup.render (Markup.page title' s') ↔
        title = title' ∧ Text.lines s = Text.lines s') ∧
    (∀ (name name' : Text) (s s' : Session),
      Markup.render (s.page name) = Markup.render (s'.page name') ↔
        name = name' ∧ s.text = s'.text ∧ s.revisions = s'.revisions) ∧
    (∀ title s : Text, Markup.MarkedBy Markup.pageForms (Markup.page title s)) ∧
    ∀ (name : Text) (s : Session), Markup.MarkedBy Session.pageForms (s.page name) :=
  ⟨fun _ _ _ _ => Markup.render_page_eq_iff, fun _ _ _ _ => Session.render_page_eq_iff,
    fun title s => Markup.markedBy_of_textOr (Markup.page_textOr title s),
    fun name s => Markup.markedBy_of_textOr (s.page_textOr name)⟩

end Preview
end Highlighter
