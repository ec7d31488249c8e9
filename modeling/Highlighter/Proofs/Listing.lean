/-
What is read back out of a listing.

`read?` splits a listing at line feeds, and every row at its first colon, its first dash and
its first two tabs.  What stands in front of a separator has none of it, whatever the text of
the row contains, and that text is all that is left behind the second tab.  It has no line
feed, since it is a part of a line.  So the entries that are read out of a listing are the
spans of the document, each with the number of its line and with its text
(`read?_ofDocument`).
-/
import Highlighter.Command
import Highlighter.Text.Split
import Mathlib.Data.List.Basic

namespace Highlighter

theorem text?_span_of_mem_highlightLines {st : State} {lines : List Text} :
    ∀ l ∈ highlightLines st lines, ∀ f ∈ l.fragments, f.span.text? l.text = some f.text := by
  induction lines generalizing st with
  | nil => exact fun l hl => absurd hl List.not_mem_nil
  | cons line rest ih =>
    intro l hl f hf
    rcases List.mem_cons.mp hl with rfl | hl
    · exact State.text?_span_of_mem_fragments hf
    · exact ih l hl f hf

theorem Span.newline_not_mem_of_text? {s : Span} {line t : Text} (h : s.text? line = some t)
    (hline : '\n' ∉ line) : '\n' ∉ t := by
  obtain ⟨before, after, rfl, -, -⟩ := Text.slice?_eq_some_iff.mp h
  intro ht
  exact hline (List.mem_append_left _ (List.mem_append_right _ ht))

namespace Listing

/-- What a row of a listing tells: a span with the number of its line, and its text. -/
structure Entry where
  number : Nat
  span : Span
  text : Text
deriving DecidableEq, Repr

def number? (digits : Text) : Option Nat :=
  if digits ≠ [] ∧ digits.all Char.isDigit then some (Nat.ofDigitChars 10 digits 0) else none

def style? (name : Text) : Option (Option Style) :=
  if name = "none".toList then some none else (Style.ofName? name).map some

def readRow? (row : Text) : Option Entry := do
  let (number, row) := Text.cutFirst ':' row
  let (start, row) := Text.cutFirst '-' row
  let (stop, row) := Text.cutFirst '\t' row
  let (name, text) := Text.cutFirst '\t' row
  return ⟨← number? number, ⟨← number? start, ← number? stop, ← style? name⟩, text⟩

/-- The entries of a listing.  There are none where a row has another form or is not ended. -/
def read? (listing : Text) : Option (List Entry) := do
  let rows ← (Text.fields '\n' listing).dropSuffix? [[]]
  rows.mapM readRow?

/-- The spans of lines, each with the number of its line, counted from a number on. -/
def numberedSpans (number : Nat) (lines : List HighlightedLine) : List (Nat × Span) :=
  (lines.zipIdx number).flatMap fun p => p.1.spans.map (p.2, ·)

theorem number?_decimal (n : Nat) : number? (decimal n) = some n := by
  have hdigits : (decimal n).all Char.isDigit = true :=
    List.all_eq_true.mpr fun c hc => Nat.isDigit_of_mem_toDigits (by decide) (by decide) hc
  rw [number?, if_pos ⟨Nat.toDigits_ne_nil, hdigits⟩, decimal, Nat.ofDigitChars_ten_toDigits]

theorem decimal_injective : Function.Injective decimal := by
  intro n m h
  have hnumber := number?_decimal n
  rw [h, number?_decimal] at hnumber
  exact (Option.some.inj hnumber).symm

theorem style?_styleName (s : Option Style) : style? (styleName s) = some s := by
  cases s with
  | none => rfl
  | some s => cases s <;> decide

theorem not_mem_decimal {c : Char} (h : c.isDigit = false) (n : Nat) : c ∉ decimal n := by
  intro hc
  have hdigit := Nat.isDigit_of_mem_toDigits (by decide) (by decide) hc
  rw [h] at hdigit
  exact absurd hdigit Bool.false_ne_true

theorem not_mem_styleName {c : Char} (h : c = '\t' ∨ c = '\n') (s : Option Style) :
    c ∉ styleName s := by
  cases s with
  | none => rcases h with rfl | rfl <;> decide
  | some s => cases s <;> rcases h with rfl | rfl <;> decide

namespace Entry

def ofFragment (number : Nat) (f : Fragment) : Entry := ⟨number, f.span, f.text⟩

/-- The row of an entry, without the line feed that ends it. -/
def render (e : Entry) : Text :=
  decimal e.number ++ ':' :: (decimal e.span.start ++ '-' :: (decimal e.span.stop ++
    '\t' :: (styleName e.span.style ++ '\t' :: e.text)))

theorem row_eq (number : Nat) (f : Fragment) :
    row number f = (ofFragment number f).render ++ ['\n'] := by
  simp [row, ofFragment, render, Fragment.span]

/-- A row is read back, whatever its text contains. -/
theorem readRow?_render (e : Entry) : readRow? e.render = some e := by
  have hdecimal : ∀ c : Char, c.isDigit = false → ∀ n rest,
      Text.cutFirst c (decimal n ++ c :: rest) = (decimal n, rest) :=
    fun c hc n rest => Text.cutFirst_append_cons (not_mem_decimal hc n) rest
  have hname : ∀ s rest, Text.cutFirst '\t' (styleName s ++ '\t' :: rest) = (styleName s, rest) :=
    fun s rest => Text.cutFirst_append_cons (not_mem_styleName (.inl rfl) s) rest
  simp only [readRow?, render, hdecimal ':' (by decide), hdecimal '-' (by decide),
    hdecimal '\t' (by decide), hname, number?_decimal, style?_styleName]
  rfl

theorem newline_not_mem_render {e : Entry} (h : '\n' ∉ e.text) : '\n' ∉ e.render := by
  simp [render, not_mem_decimal (c := '\n') (by decide), not_mem_styleName (.inr rfl), h]

end Entry

/-- What a listing of lines tells, with the lines counted from a number on. -/
def entriesFrom (number : Nat) (lines : List HighlightedLine) : List Entry :=
  (lines.zipIdx number).flatMap fun p => p.1.fragments.map (Entry.ofFragment p.2)

theorem rowsFrom_eq (number : Nat) (lines : List HighlightedLine) :
    rowsFrom number lines =
      ((entriesFrom number lines).map Entry.render).flatMap (· ++ ['\n']) := by
  induction lines generalizing number with
  | nil => rfl
  | cons l rest ih =>
    have hrow : row number = fun f => (Entry.ofFragment number f).render ++ ['\n'] :=
      funext fun f => Entry.row_eq number f
    have hentries : entriesFrom number (l :: rest) =
        l.fragments.map (Entry.ofFragment number) ++ entriesFrom (number + 1) rest := rfl
    rw [rowsFrom, ih, hentries, hrow, List.map_append, List.flatMap_append, List.map_map,
      List.flatMap_map (Entry.render ∘ Entry.ofFragment number)]
    rfl

theorem map_span_entriesFrom (number : Nat) (lines : List HighlightedLine) :
    (entriesFrom number lines).map (fun e => (e.number, e.span)) = numberedSpans number lines := by
  rw [entriesFrom, numberedSpans, List.map_flatMap]
  refine List.flatMap_congr fun entry _ => ?_
  rw [List.map_map, HighlightedLine.spans, List.map_map]
  rfl

/-- An entry of a document stands in the line that its number tells. -/
theorem exists_line_of_mem_entries {s : Text} {e : Entry} (h : e ∈ entriesFrom 1 (highlight s)) :
    ∃ k line, e.number = k + 1 ∧ (Text.lines s)[k]? = some line ∧
      e.span.text? line = some e.text := by
  obtain ⟨⟨l, number⟩, hl, he⟩ := List.mem_flatMap.mp h
  obtain ⟨f, hf, rfl⟩ := List.mem_map.mp he
  obtain ⟨hle, hget⟩ := List.mk_mem_zipIdx_iff_le_and_getElem?_sub.mp hl
  have htext := text?_span_of_mem_highlightLines l (List.mem_of_getElem? hget) f hf
  refine ⟨number - 1, l.text, (Nat.sub_add_cancel hle).symm, ?_, htext⟩
  have hlines : (highlight s).map HighlightedLine.text = Text.lines s :=
    map_text_highlightLines .start (Text.lines s)
  rw [← hlines, List.getElem?_map, hget]
  rfl

theorem newline_not_mem_row {s : Text} :
    ∀ row ∈ (entriesFrom 1 (highlight s)).map Entry.render, '\n' ∉ row := by
  intro row hrow
  obtain ⟨e, he, rfl⟩ := List.mem_map.mp hrow
  obtain ⟨k, line, -, hline, htext⟩ := exists_line_of_mem_entries he
  have hnewline := Text.newline_not_mem_lines line (List.mem_of_getElem? hline)
  exact Entry.newline_not_mem_render (Span.newline_not_mem_of_text? htext hnewline)

theorem fields_ofDocument (s : Text) : Text.fields '\n' (ofDocument s) =
    (entriesFrom 1 (highlight s)).map Entry.render ++ [[]] := by
  rw [ofDocument, rowsFrom_eq]
  exact Text.fields_flatMap_concat newline_not_mem_row

theorem mapM_readRow? (entries : List Entry) :
    (entries.map Entry.render).mapM readRow? = some entries := by
  induction entries with
  | nil => rfl
  | cons e rest ih =>
    rw [List.map_cons, List.mapM_cons, e.readRow?_render, ih]
    rfl

theorem read?_ofDocument (s : Text) :
    read? (ofDocument s) = some (entriesFrom 1 (highlight s)) := by
  have hended : ((entriesFrom 1 (highlight s)).map Entry.render ++ [[]]).dropSuffix? [[]] =
      some ((entriesFrom 1 (highlight s)).map Entry.render) :=
    List.dropSuffix?_eq_some_iff.mpr ⟨_, rfl, beq_self_eq_true _⟩
  rw [read?, fields_ofDocument, hended]
  exact mapM_readRow? _

end Listing

namespace Command

/-- A listing tells what is reported of a document and nothing else.  For the bytes of any
text, the entries that are read out of the output are the spans of the highlighted document
in their order, each with the number of its line; there is a row for each of them, and the
text of a row is the part of the line between the two offsets, byte for byte.  For bytes
that are not those of a text there is no output. -/
theorem listing_decodes :
    (∀ s : Text, ∃ entries,
      Listing.read? (listing (Text.encode s)).output = some entries ∧
      entries.map (fun e => (e.number, e.span)) = Listing.numberedSpans 1 (highlight s) ∧
      (listing (Text.encode s)).output.count '\n' =
        (Listing.numberedSpans 1 (highlight s)).length ∧
      ∀ e ∈ entries, ∃ k line, e.number = k + 1 ∧ (Text.lines s)[k]? = some line ∧
        e.span.text? line = some e.text ∧
        Text.encode e.text = (Text.encode line).extract e.span.start e.span.stop) ∧
    ∀ input : List UInt8, (∀ s, Text.encode s ≠ input) → (listing input).output = [] := by
  constructor
  · intro s
    have houtput : (listing (Text.encode s)).output = Listing.ofDocument s := by
      rw [listing, onDocument, Text.decode?_eq_some_iff.mpr rfl]
      rfl
    have hspans := Listing.map_span_entriesFrom 1 (highlight s)
    rw [houtput]
    refine ⟨_, Listing.read?_ofDocument s, hspans, ?_, ?_⟩
    · have hcount := Text.length_fields '\n' (Listing.ofDocument s)
      rw [Listing.fields_ofDocument, List.length_append, List.length_map] at hcount
      rw [← hspans, List.length_map]
      exact (Nat.succ.inj hcount).symm
    · intro e he
      obtain ⟨k, line, hnumber, hline, htext⟩ := Listing.exists_line_of_mem_entries he
      exact ⟨k, line, hnumber, hline, htext, Text.encode_of_slice? htext⟩
  · intro input hnone
    have hdecode : Text.decode? input = none := Option.eq_none_iff_forall_ne_some.mpr
      fun s hs => hnone s (Text.decode?_eq_some_iff.mp hs)
    rw [listing, onDocument, hdecode]
    rfl

end Command
end Highlighter
