/-
Highlighted documents as markup.

A line falls into pieces: the merged spans of what is reported of it, and what lies
between, before and after them, which has no style.  A piece with a style becomes an
element of the class of that style, and any other piece stays a plain text.  Every
line ends with a line feed, whether or not the document had one there.
-/
import Highlighter.Document
import Highlighter.Markup.Basic
import Highlighter.Markup.Stylesheet

namespace Highlighter

/-- A part of a line that is shown in one way. -/
structure Piece where
  text : Text
  style : Option Style
deriving DecidableEq, Repr

namespace Piece

/-- The pieces of what is left of a line from an offset on, given the spans there. -/
def ofSpans (offset : Nat) (rest : Text) : List Span → List Piece
  | [] => if rest.isEmpty then [] else [⟨rest, none⟩]
  | s :: spans =>
    let between := Text.splitBytes (s.start - offset) rest
    let inside := Text.splitBytes (s.stop - s.start) between.2
    let later := ⟨inside.1, s.style⟩ :: ofSpans s.stop inside.2 spans
    if between.1.isEmpty then later else ⟨between.1, none⟩ :: later

def markup (p : Piece) : List Markup.Item :=
  match p.style with
  | none => [.text p.text]
  | some s => [.tagged "span" [("class", s.className)], .text p.text, .close "span"]

theorem ofSpans_flatten (offset : Nat) (rest : Text) (spans : List Span) :
    (ofSpans offset rest spans).flatMap Piece.text = rest := by
  induction spans generalizing offset rest with
  | nil =>
    cases rest with
    | nil => rfl
    | cons c rest => simp [ofSpans]
  | cons s spans ih =>
    have hbetween := Text.splitBytes_append (s.start - offset) rest
    have hinside := Text.splitBytes_append (s.stop - s.start)
      (Text.splitBytes (s.start - offset) rest).2
    rw [ofSpans]
    split
    · case isTrue hempty =>
      rw [List.isEmpty_iff.mp hempty, List.nil_append] at hbetween
      rw [List.flatMap_cons, ih, hinside, hbetween]
    · rw [List.flatMap_cons, List.flatMap_cons, ih, hinside, hbetween]

end Piece

namespace HighlightedLine

def pieces (l : HighlightedLine) : List Piece :=
  Piece.ofSpans 0 l.text (Span.mergeAdjacent l.spans)

def markup (l : HighlightedLine) : List Markup.Item :=
  l.pieces.flatMap Piece.markup ++ [.text ['\n']]

/-- The pieces of a line make up the line. -/
theorem pieces_flatten (l : HighlightedLine) : l.pieces.flatMap Piece.text = l.text :=
  Piece.ofSpans_flatten 0 l.text _

end HighlightedLine

namespace Markup

def document (s : Text) : List Item :=
  [.tagged "pre" [("class", "cm-s-default".toList)]] ++
    (highlight s).flatMap HighlightedLine.markup ++ [.close "pre"]

/-- A page that holds nothing but a highlighted document, with its stylesheet. -/
def page (title s : Text) : List Item :=
  [doctype, .bare "html",
    .bare "head", .tagged "meta" [("charset", "utf-8".toList)],
    .bare "title", .text title, .close "title",
    .bare "style", .verbatim Stylesheet.text, .close "style", .close "head",
    .bare "body"] ++ document s ++ [.close "body", .close "html"]

end Markup
end Highlighter
