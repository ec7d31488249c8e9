/-
Sessions of the preview: a document under a name, with a count of its versions.

A session begins with an empty document.  A new text replaces the one before it, and
the one before it counts as an earlier version unless it was empty.  A store has a
session under every name, and those that no text was given to are not kept.
-/
import Highlighter.Listing
import Highlighter.Markup.Document

namespace Highlighter
namespace Preview

structure Session where
  text : Text
  revisions : Nat
deriving DecidableEq, Repr

namespace Session

def new : Session := ⟨[], 0⟩

/-- Replaces the text of a session. -/
def update (s : Session) (text : Text) : Session :=
  ⟨text, if s.text.isEmpty then s.revisions else s.revisions + 1⟩

/-- The number of earlier versions, which is not shown while there are none. -/
def history (s : Session) : List Markup.Item :=
  if s.revisions = 0 then []
  else
    [.tagged "p" [("class", "history".toList)],
      .text (Listing.decimal s.revisions), .text " earlier versions".toList, .close "p"]

/-- The page of a session: its document, and a form for a new text. -/
def page (name : Text) (s : Session) : List Markup.Item :=
  [Markup.doctype, .bare "html",
    .bare "head", .bare "title", .text name, .close "title",
    .tagged "link" [("rel", "stylesheet".toList), ("href", "/style.css".toList)], .close "head",
    .bare "body", .bare "main"] ++ Markup.document s.text ++
  [.tagged "form" [("method", "post".toList)],
    .tagged "textarea" [("class", "document".toList), ("name", "text".toList)],
    .text s.text, .close "textarea",
    .tagged "input" [("type", "submit".toList), ("value", "Highlight".toList)],
    .close "form"] ++ s.history ++ [.close "main", .close "body", .close "html"]

end Session

/-- The sessions that are kept, by their names. -/
structure Store where
  entries : List (Text × Session)

namespace Store

def empty : Store := ⟨[]⟩

def get (s : Store) (name : Text) : Session := (s.entries.lookup name).getD .new

def put (s : Store) (name : Text) (session : Session) : Store :=
  ⟨(name, session) :: s.entries.filter (·.1 ≠ name)⟩

theorem get_put_self (s : Store) (name : Text) (session : Session) :
    (s.put name session).get name = session := by
  simp [get, put]

theorem get_put_of_ne (s : Store) {name other : Text} (h : other ≠ name) (session : Session) :
    (s.put name session).get other = s.get other := by
  have hlookup : ∀ entries : List (Text × Session),
      (entries.filter (·.1 ≠ name)).lookup other = entries.lookup other := by
    intro entries
    induction entries with
    | nil => rfl
    | cons entry rest ih =>
      by_cases hname : entry.1 = name
      · have hother : (other == entry.1) = false := by simp [hname, h]
        rw [List.filter_cons_of_neg (by simp [hname]), ih, List.lookup_cons, hother]
      · rw [List.filter_cons_of_pos (by simp [hname]), List.lookup_cons, List.lookup_cons, ih]
  have hname : (other == name) = false := by simp [h]
  simp only [get, put, List.lookup_cons, hname, hlookup]

end Store
end Preview
end Highlighter
