/-
Highlighting lines and documents.

A line is read token after token, and what is reported of it are its fragments:
every token that is not blank, with the offset at which it begins.  A document is
read line by line, and the state at the end of a line is the one that the next line
begins with.
-/
import Highlighter.Span
import Highlighter.State
import Highlighter.Text.Lines

namespace Highlighter

/-- A part of a line with its style. -/
structure Fragment where
  start : Nat
  text : Text
  style : Option Style
deriving DecidableEq, Repr

namespace Fragment

def stop (f : Fragment) : Nat := f.start + Text.byteLength f.text

def span (f : Fragment) : Span := ⟨f.start, f.stop, f.style⟩

/-- The fragments of tokens that follow one another from an offset on. -/
def ofTokens (offset : Nat) : List Token → List Fragment
  | [] => []
  | t :: rest =>
    let start := offset + Text.byteLength t.gap
    let later := ofTokens (start + Text.byteLength t.text) rest
    if t.isBlank then later else ⟨start, t.text, t.style⟩ :: later

/-- The text of a fragment is found at its offset, in the line its tokens make up. -/
theorem slice?_of_mem_ofTokens (front : Text) {tokens : List Token} {f : Fragment}
    (h : f ∈ ofTokens (Text.byteLength front) tokens) :
    Text.slice? (front ++ tokens.flatMap (fun t => t.gap ++ t.text)) f.start f.stop =
      some f.text := by
  induction tokens generalizing front with
  | nil => exact absurd h List.not_mem_nil
  | cons t rest ih =>
    rw [List.flatMap_cons]
    have hlater : f ∈ ofTokens (Text.byteLength (front ++ (t.gap ++ t.text))) rest →
        Text.slice? (front ++ (t.gap ++ t.text ++ rest.flatMap (fun t => t.gap ++ t.text)))
          f.start f.stop = some f.text := by
      intro hmem
      rw [← List.append_assoc]
      exact ih _ hmem
    have hoffset : Text.byteLength front + Text.byteLength t.gap + Text.byteLength t.text =
        Text.byteLength (front ++ (t.gap ++ t.text)) := by simp [Nat.add_assoc]
    simp only [ofTokens, hoffset] at h
    split at h
    · exact hlater h
    · rcases List.mem_cons.mp h with rfl | h
      · refine Text.slice?_eq_some_iff.mpr
          ⟨front ++ t.gap, rest.flatMap (fun t => t.gap ++ t.text), ?_, ?_, rfl⟩
        · simp [List.append_assoc]
        · exact Text.byteLength_append front t.gap
      · exact hlater h

end Fragment

namespace State

def fragments (st : State) (line : Text) (lexicon : Lexicon := Lexeme.pattern) :
    List Fragment :=
  Fragment.ofTokens 0 ((st.run line lexicon).map Reading.token)

theorem text?_span_of_mem_fragments {st : State} {line : Text} {f : Fragment}
    (h : f ∈ st.fragments line) : f.span.text? line = some f.text := by
  have hslice := Fragment.slice?_of_mem_ofTokens [] h
  rw [List.flatMap_map, List.nil_append, st.run_flatten] at hslice
  exact hslice

end State

structure HighlightedLine where
  text : Text
  fragments : List Fragment

namespace HighlightedLine

def spans (l : HighlightedLine) : List Span := l.fragments.map Fragment.span

end HighlightedLine

def highlightLines (st : State) (lines : List Text) (lexicon : Lexicon := Lexeme.pattern) :
    List HighlightedLine :=
  match lines with
  | [] => []
  | line :: rest =>
    ⟨line, st.fragments line lexicon⟩ :: highlightLines (st.afterLine line lexicon) rest lexicon

def highlight (document : Text) (lexicon : Lexicon := Lexeme.pattern) : List HighlightedLine :=
  highlightLines .start (Text.lines document) lexicon

theorem map_text_highlightLines (st : State) (lines : List Text) :
    (highlightLines st lines).map HighlightedLine.text = lines := by
  induction lines generalizing st with
  | nil => rfl
  | cons line rest ih => rw [highlightLines, List.map_cons, ih]

end Highlighter
