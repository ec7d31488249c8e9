/-
The styles a token can have.

The set of styles is closed, and a style is known by the name that a theme uses
for it.  `Style.ofName?` reads such a name back: `ofName?_eq_some_iff` says that
it finds the style with that name and nothing else.  Styles are ordered as they
are declared.
-/
import Highlighter.Text.Quoted

namespace Highlighter

inductive Style where
  | keyword
  | builtin
  | definition
  | metadata
  | variable1
  | variable2
  | variable3
  | atom
  | tag
  | comment
  | string
  | number
  | operator
deriving DecidableEq, Repr

namespace Style

def all : List Style :=
  [keyword, builtin, definition, metadata, variable1, variable2, variable3, atom, tag, comment,
    string, number, operator]

theorem mem_all (s : Style) : s ∈ all := by cases s <;> decide

def name : Style → Text
  | keyword => "keyword".toList
  | builtin => "builtin".toList
  | definition => "def".toList
  | metadata => "meta".toList
  | variable1 => "variable".toList
  | variable2 => "variable-2".toList
  | variable3 => "variable-3".toList
  | atom => "atom".toList
  | tag => "tag".toList
  | comment => "comment".toList
  | string => "string".toList
  | number => "number".toList
  | operator => "operator".toList

theorem name_injective {s t : Style} (h : s.name = t.name) : s = t := by
  have hall : ∀ s ∈ all, ∀ t ∈ all, s.name = t.name → s = t := by decide
  exact hall s (mem_all s) t (mem_all t) h

def ofName? (n : Text) : Option Style := all.find? (fun s => s.name == n)

/-- A style is found under its own name and under no other. -/
theorem ofName?_eq_some_iff {n : Text} {s : Style} : ofName? n = some s ↔ s.name = n := by
  constructor
  · intro h
    rw [ofName?] at h
    simpa using List.find?_some h
  · rintro rfl
    cases h : ofName? s.name with
    | none =>
      have hne := List.find?_eq_none.mp h s (mem_all s)
      exact absurd (beq_self_eq_true s.name) hne
    | some t =>
      rw [ofName?] at h
      have ht : t.name = s.name := by simpa using List.find?_some h
      rw [name_injective ht]

def unknownMessage (n : Text) : Text := "unknown style ".toList ++ Text.quoted n

def rank : Style → Nat
  | keyword => 0
  | builtin => 1
  | definition => 2
  | metadata => 3
  | variable1 => 4
  | variable2 => 5
  | variable3 => 6
  | atom => 7
  | tag => 8
  | comment => 9
  | string => 10
  | number => 11
  | operator => 12

theorem all_getElem?_rank (s : Style) : all[s.rank]? = some s := by cases s <;> rfl

def sorted (styles : List Style) : List Style := styles.mergeSort (fun s t => s.rank ≤ t.rank)

/-- Styles of tokens that are told apart by their words.  The rules that look at
the token before ask for a word after one of these, and for the style otherwise. -/
def isWordLike : Style → Bool
  | keyword | atom | tag => true
  | _ => false

end Style
end Highlighter
