/-
The word of a list that a text begins with.

The words of a list are tried one after the other, the longer ones first, and the first one is
taken that stands in front of the text and ends at a boundary of words (`Pattern.wordLength?`).
Where the words have nothing but word characters this boundary is a place that no word character
follows, and at most one word of all stands in front of such a place (`Text.IsWhole.eq`).  So it
does not matter in which order the words are tried, how often they are in the list, and whether
one of them begins with another; and the pattern for whole words, which tries them as they stand,
takes the same one (`Pattern.whole_word_length`).
-/
import Highlighter.Proofs.WholeWord

namespace Highlighter
namespace Text

/-- Whether a word begins or ends between two texts. -/
def isWordBoundary (before after : Text) : Bool :=
  before.getLast?.any Unicode.isWordCharacter != after.head?.any Unicode.isWordCharacter

/-- Whether a text begins with another one that ends at a boundary of words. -/
def beginsWithWord (s word : Text) : Bool :=
  word.isPrefixOf s && isWordBoundary word (s.drop word.length)

/-- Whether a word stands in front of a text and no word character follows it. -/
def IsWhole (word s : Text) : Prop :=
  ∃ rest, s = word ++ rest ∧ ∀ c ∈ rest.head?, Unicode.isWordCharacter c = false

/-- A word ends where no word character follows. -/
theorem isWordBoundary_iff {word : Text} (hne : word ≠ [])
    (hword : word.all Unicode.isWordCharacter = true) (rest : Text) :
    isWordBoundary word rest = true ↔ ∀ c ∈ rest.head?, Unicode.isWordCharacter c = false := by
  have hlast : word.getLast?.any Unicode.isWordCharacter = true := by
    rw [List.getLast?_eq_some_getLast hne]
    exact List.all_eq_true.mp hword _ (List.getLast_mem hne)
  rw [isWordBoundary, hlast]
  cases rest with
  | nil => simp
  | cons c rest => simp

theorem beginsWithWord_iff {word s : Text} (hne : word ≠ [])
    (hword : word.all Unicode.isWordCharacter = true) :
    beginsWithWord s word = true ↔ IsWhole word s := by
  rw [beginsWithWord, Bool.and_eq_true, List.isPrefixOf_iff_prefix, isWordBoundary_iff hne hword]
  constructor
  · rintro ⟨⟨rest, rfl⟩, hend⟩
    rw [List.drop_left] at hend
    exact ⟨rest, rfl, hend⟩
  · rintro ⟨rest, rfl, hend⟩
    rw [List.drop_left]
    exact ⟨List.prefix_append word rest, hend⟩

theorem IsWhole.eq {word other s : Text} (h : IsWhole word s) (h' : IsWhole other s)
    (hword : word.all Unicode.isWordCharacter = true)
    (hother : other.all Unicode.isWordCharacter = true) : word = other := by
  obtain ⟨rest, rfl, hend⟩ := h
  obtain ⟨rest', happ, hend'⟩ := h'
  have hlength : word.length = other.length :=
    Nat.le_antisymm (Pattern.length_le_of_append_eq happ.symm hend' hword)
      (Pattern.length_le_of_append_eq happ hend hother)
  exact (List.append_inj happ hlength).1

end Text

namespace Pattern

def byteLength? (p : Pattern) (s : Text) : Option Nat :=
  (p.split? s).map fun parts => Text.byteLength parts.1

/-- The words of a list in the order in which they are tried.  Longer words come first, and words
of one length as they stand in the list. -/
def longestFirst (words : List Text) : List Text :=
  words.mergeSort fun word next => Text.byteLength next ≤ Text.byteLength word

/-- The first of some words that stands in front of a text and ends at a boundary of words. -/
def firstWord? (words : List Text) (s : Text) : Option Text :=
  words.find? (Text.beginsWithWord s)

/-- How long the word of a list is that a text begins with.  A word without characters counts as
none. -/
def wordLength? (words : List Text) (s : Text) : Option Nat :=
  ((firstWord? (longestFirst words) s).filter (· ≠ [])).map Text.byteLength

/-- Words that have a character, and nothing but word characters. -/
def AreWords (words : List Text) : Prop :=
  ∀ word ∈ words, word ≠ [] ∧ word.all Unicode.isWordCharacter = true

/-- The first word that is found is the only one. -/
theorem firstWord?_eq_some_iff {words : List Text} (hwords : AreWords words) {s word : Text} :
    firstWord? words s = some word ↔ word ∈ words ∧ Text.IsWhole word s := by
  have hwhole : ∀ w ∈ words, Text.beginsWithWord s w = true ↔ Text.IsWhole w s :=
    fun w hw => Text.beginsWithWord_iff (hwords w hw).1 (hwords w hw).2
  constructor
  · intro h
    have hmem := List.mem_of_find?_eq_some h
    exact ⟨hmem, (hwhole word hmem).mp (List.find?_some h)⟩
  · rintro ⟨hmem, hword⟩
    cases hfound : firstWord? words s with
    | none => exact absurd ((hwhole word hmem).mpr hword) (List.find?_eq_none.mp hfound word hmem)
    | some other =>
      have hother := List.mem_of_find?_eq_some hfound
      have hstands := (hwhole other hother).mp (List.find?_some hfound)
      rw [hstands.eq hword (hwords other hother).2 (hwords word hmem).2]

theorem wordLength?_eq_some_iff {words : List Text} (hwords : AreWords words) {s : Text} {n : Nat} :
    wordLength? words s = some n ↔
      ∃ word ∈ words, Text.byteLength word = n ∧ Text.IsWhole word s := by
  have hsorted : AreWords (longestFirst words) :=
    fun word hword => hwords word (List.mem_mergeSort.mp hword)
  rw [wordLength?, Option.map_eq_some_iff]
  constructor
  · rintro ⟨word, hword, hlength⟩
    obtain ⟨hmem, hwhole⟩ :=
      (firstWord?_eq_some_iff hsorted).mp (Option.filter_eq_some_iff.mp hword).1
    exact ⟨word, List.mem_mergeSort.mp hmem, hlength, hwhole⟩
  · rintro ⟨word, hmem, hlength, hwhole⟩
    refine ⟨word, Option.filter_eq_some_iff.mpr ⟨?_, ?_⟩, hlength⟩
    · exact (firstWord?_eq_some_iff hsorted).mpr ⟨List.mem_mergeSort.mpr hmem, hwhole⟩
    · exact decide_eq_true (hwords word hmem).1

/-- The pattern for whole words tries them as they stand in the list, and takes the same one. -/
theorem byteLength?_wholeWord {words : List Text} (hwords : AreWords words) (s : Text) :
    (wholeWord words).byteLength? s = wordLength? words s := by
  refine Option.ext fun n => ?_
  rw [wordLength?_eq_some_iff hwords, byteLength?, Option.map_eq_some_iff]
  constructor
  · rintro ⟨⟨word, rest⟩, hsplit, hlength⟩
    obtain ⟨hmem, hend⟩ := of_split?_wholeWord hsplit
    exact ⟨word, hmem, hlength, rest, (split?_append hsplit).symm, hend⟩
  · rintro ⟨word, hmem, hlength, rest, rfl, hend⟩
    exact ⟨(word, rest), split?_wholeWord_append hwords hmem hend, hlength⟩

/-- What is found of a list of words.  It is the one word of the list that stands in front of the
text and that no word character follows, whatever the order of the list is and however often a
word is in it, and further words do not come in its way. -/
theorem whole_word_length {words : List Text} (hwords : AreWords words) (s : Text) :
    (∀ n, wordLength? words s = some n ↔
      ∃ word ∈ words, Text.byteLength word = n ∧ Text.IsWhole word s) ∧
    (∀ word ∈ words, ∀ other ∈ words,
      Text.IsWhole word s → Text.IsWhole other s → word = other) ∧
    (∀ others, (∀ word, word ∈ others ↔ word ∈ words) →
      wordLength? others s = wordLength? words s ∧
        (wholeWord others).byteLength? s = wordLength? words s) ∧
    ∀ more, AreWords more → ∀ n, wordLength? words s = some n →
      wordLength? (words ++ more) s = some n := by
  refine ⟨fun n => wordLength?_eq_some_iff hwords, ?_, ?_, ?_⟩
  · intro word hword other hother h h'
    exact h.eq h' (hwords word hword).2 (hwords other hother).2
  · intro others hothers
    have hwords' : AreWords others := fun word hword => hwords word ((hothers word).mp hword)
    have hlength : wordLength? others s = wordLength? words s := by
      refine Option.ext fun n => ?_
      rw [wordLength?_eq_some_iff hwords, wordLength?_eq_some_iff hwords']
      simp only [hothers]
    exact ⟨hlength, (byteLength?_wholeWord hwords' s).trans hlength⟩
  · intro more hmore n h
    have hall : AreWords (words ++ more) := List.forall_mem_append.mpr ⟨hwords, hmore⟩
    obtain ⟨word, hmem, hlength, hwhole⟩ := (wordLength?_eq_some_iff hwords).mp h
    exact (wordLength?_eq_some_iff hall).mpr
      ⟨word, List.mem_append_left more hmem, hlength, hwhole⟩

/-- A keyword that begins with another one is found as a whole, and none is found in front of a
longer word. -/
theorem whole_word_length_lincat :
    AreWords (Sublanguage.keywords .grammar) ∧
      wordLength? (Sublanguage.keywords .grammar) "lincat Foo".toList = some 6 ∧
      (wholeWord (Sublanguage.keywords .grammar).reverse).byteLength? "lincat Foo".toList =
        some 6 ∧
      ¬ ∃ word ∈ Sublanguage.keywords .grammar, Text.IsWhole word "incomplete".toList := by
  have hwords : AreWords (Sublanguage.keywords .grammar) := by
    unfold AreWords
    decide +kernel
  obtain ⟨hlength, -, hothers, -⟩ := whole_word_length hwords "lincat Foo".toList
  have hlincat : wordLength? (Sublanguage.keywords .grammar) "lincat Foo".toList = some 6 := by
    refine (hlength 6).mpr ⟨"lincat".toList, by decide, by decide, " Foo".toList, rfl, ?_⟩
    intro c hc
    obtain rfl : ' ' = c := Option.some.inj hc
    decide +kernel
  have hreverse := (hothers (Sublanguage.keywords .grammar).reverse fun _ => List.mem_reverse).2
  refine ⟨hwords, hlincat, hreverse.trans hlincat, ?_⟩
  rintro ⟨word, hword, hwhole⟩
  have hnone : wordLength? (Sublanguage.keywords .grammar) "incomplete".toList = none := by
    rw [← byteLength?_wholeWord hwords]
    decide +kernel
  have hsome := ((whole_word_length hwords "incomplete".toList).1 _).mpr ⟨word, hword, rfl, hwhole⟩
  rw [hnone] at hsome
  cases hsome

end Pattern
end Highlighter
