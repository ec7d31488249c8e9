/-
Scanners: what reads a stretch of text that may outlive its line.

A comment over several lines, a string and a URI are each read by a scanner of
their own, a step at a time.  A step takes one character of a comment or of a
string, or the mark that closes it, and one lexeme of a URI.  A comment and a
string never give up; the scanner of a URI gives up in front of a text that is no
part of one, and takes nothing of it.
-/
import Highlighter.Lexeme
import Highlighter.Style

namespace Highlighter

/-- What reads on where a token has left off. -/
inductive Scanner where
  | comment (syn : CommentSyntax)
  | string (quote : Char)
  | uri
deriving DecidableEq, Repr

namespace Scanner

/-- What one step of a scanner takes of a text, and whether it was the last one. -/
structure Step where
  style : Style
  taken : Text
  rest : Text
  closes : Bool

/-- The lexemes of a URI in the order in which they are tried, with their styles. -/
def uriLexemes : List (Lexeme × Style) :=
  [(.operator, .operator), (.theorySeparator, .metadata), (.uriWord, .variable2)]

/-- One step of a scanner, unless it gives up. -/
def step (sc : Scanner) (s : Text) (lexicon : Lexicon := Lexeme.pattern) : Option Step :=
  match sc with
  | comment syn =>
    match (Lexeme.commentClose syn).split? s lexicon with
    | some (mark, rest) => some ⟨.comment, mark, rest, true⟩
    | none => some ⟨.comment, s.take 1, s.drop 1, false⟩
  | string quote => some ⟨.string, s.take 1, s.drop 1, s.head? == some quote⟩
  | uri =>
    uriLexemes.findSome? fun (x, style) =>
      (x.split? s lexicon).map fun (taken, rest) => ⟨style, taken, rest, false⟩

section Step

variable {sc : Scanner} {s : Text} {lexicon : Lexicon} {st : Step}

theorem step_append (h : sc.step s lexicon = some st) : st.taken ++ st.rest = s := by
  cases sc with
  | comment syn =>
    rw [step] at h
    split at h
    · case h_1 mark rest hsplit =>
      cases h
      exact Lexeme.split?_append hsplit
    · cases h
      exact List.take_append_drop 1 s
  | string quote =>
    cases h
    exact List.take_append_drop 1 s
  | uri =>
    obtain ⟨⟨x, style⟩, _, hx⟩ := List.exists_of_findSome?_eq_some h
    obtain ⟨⟨taken, rest⟩, hsplit, rfl⟩ := Option.map_eq_some_iff.mp hx
    exact Lexeme.split?_append hsplit

theorem step_ne_nil (h : sc.step s lexicon = some st) (hs : s ≠ []) : st.taken ≠ [] := by
  obtain ⟨c, s, rfl⟩ := List.exists_cons_of_ne_nil hs
  cases sc with
  | comment syn =>
    rw [step] at h
    split at h
    · case h_1 mark rest hsplit =>
      cases h
      exact Lexeme.split?_ne_nil hsplit
    · cases h
      exact List.cons_ne_nil c _
  | string quote =>
    cases h
    exact List.cons_ne_nil c _
  | uri =>
    obtain ⟨⟨x, style⟩, _, hx⟩ := List.exists_of_findSome?_eq_some h
    obtain ⟨⟨taken, rest⟩, hsplit, rfl⟩ := Option.map_eq_some_iff.mp hx
    exact Lexeme.split?_ne_nil hsplit

end Step

end Scanner
end Highlighter
