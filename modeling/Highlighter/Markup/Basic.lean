/-
Markup as a sequence of tags and texts.

A piece of markup is a list of items: a tag that opens or closes an element, a
text, or something that is written as it is.  `render` is the only place where they
become a text, and there the four characters that have a meaning in markup are
replaced in every text and in the value of every attribute.
-/
import Highlighter.Text.Basic

namespace Highlighter
namespace Markup

inductive Item where
  | opening (name : Text) (attributes : List (Text × Text))
  | closing (name : Text)
  | text (content : Text)
  | verbatim (content : Text)
deriving DecidableEq, Repr

/-- The form of a character in a text. -/
def escapeChar (c : Char) : Text :=
  if c = '&' then "&amp;".toList
  else if c = '<' then "&lt;".toList
  else if c = '>' then "&gt;".toList
  else if c = '"' then "&quot;".toList
  else [c]

/-- The form of a text in which no character has a meaning in markup. -/
def escape (s : Text) : Text := s.flatMap escapeChar

/-- An attribute, as it is written behind the name of a tag. -/
def renderAttribute (a : Text × Text) : Text :=
  ' ' :: (a.1 ++ ['=', '"'] ++ escape a.2 ++ ['"'])

namespace Item

def bare (name : String) : Item := opening name.toList []

def tagged (name : String) (attributes : List (String × Text)) : Item :=
  opening name.toList (attributes.map fun (key, value) => (key.toList, value))

def close (name : String) : Item := closing name.toList

def render : Item → Text
  | opening name attributes => '<' :: (name ++ attributes.flatMap renderAttribute ++ ['>'])
  | closing name => '<' :: '/' :: (name ++ ['>'])
  | text content => escape content
  | verbatim content => content

end Item

def render (items : List Item) : Text := items.flatMap Item.render

def doctype : Item := .verbatim "<!DOCTYPE html>".toList

@[simp] theorem render_append (items more : List Item) :
    render (items ++ more) = render items ++ render more :=
  List.flatMap_append

theorem not_mem_escapeChar (d : Char) {c : Char} (h : c ∈ ['<', '>', '"']) :
    c ∉ escapeChar d := by
  have hforms : ∀ form ∈ ["&amp;", "&lt;", "&gt;", "&quot;"].map String.toList,
      ∀ c ∈ ['<', '>', '"'], c ∉ form := by simp
  unfold escapeChar
  split
  · exact hforms _ (by decide) c h
  split
  · exact hforms _ (by decide) c h
  split
  · exact hforms _ (by decide) c h
  split
  · exact hforms _ (by decide) c h
  · case isFalse hlt hgt hquot =>
    intro hc
    rw [List.mem_singleton.mp hc] at h
    simp [hlt, hgt, hquot] at h

/-- A text in markup has none of the characters that begin or end a tag or a value. -/
theorem not_mem_escape (s : Text) {c : Char} (h : c ∈ ['<', '>', '"']) : c ∉ escape s := by
  intro hc
  obtain ⟨d, _, hd⟩ := List.mem_flatMap.mp hc
  exact not_mem_escapeChar d h hd

end Markup
end Highlighter
