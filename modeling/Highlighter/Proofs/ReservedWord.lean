/-
Reserved words and the identifiers that they begin.

A reserved word is made of characters of identifiers, and so an identifier begins wherever
one stands.  The word ends where no word character follows, and the identifier ends where
its ranges of code points end.  Up to the no-break space the two classes agree, and there the
identifier is the word.  Beyond it every character may be part of an identifier, and one that
is no word character, such as the multiplication sign, makes a longer identifier of which the
word is split off (`reserved_word_extent`).
-/
import Highlighter.Proofs.WholeWord

namespace Highlighter
namespace Lexeme

/-- The words of which a lexeme takes a whole one, where it is a lexeme of reserved words. -/
def words? : Lexeme → Option (List Text)
  | keyword language => some language.keywords
  | builtin language => some language.builtins
  | definer language => some language.definers
  | _ => none

theorem pattern_of_words {x : Lexeme} {words : List Text} (h : x.words? = some words) :
    x.pattern = .wholeWord words := by
  cases x with
  | keyword language | builtin language | definer language =>
    obtain rfl := Option.some.inj h
    cases language <;> rfl
  | _ => exact absurd h (by simp [words?])

/-- Every reserved word has the form of an identifier. -/
theorem identifier_of_mem_words {x : Lexeme} {words : List Text} (h : x.words? = some words) :
    ∀ word ∈ words, word.head?.any isIdentifierStart = true ∧
      word.all isIdentifierPart = true := by
  cases x with
  | keyword language | builtin language | definer language =>
    obtain rfl := Option.some.inj h
    cases language <;> decide +kernel
  | _ => exact absurd h (by simp [words?])

/-- Up to the no-break space every part of an identifier is a word character. -/
theorem isWordCharacter_of_isIdentifierPart {c : Char} (h : isIdentifierPart c = true)
    (hc : c.toNat < 0xA1) : Unicode.isWordCharacter c = true := by
  have hrange : ∀ r ∈ [(0x30, 0x39), (0x41, 0x5A), (0x5F, 0x5F), (0x61, 0x7A)],
      r.1 ≤ c.toNat → c.toNat ≤ r.2 → Unicode.isWordCharacter c = true := by
    intro r hr hfirst hlast
    have hmem : ∀ r ∈ [(0x30, 0x39), (0x41, 0x5A), (0x5F, 0x5F), (0x61, 0x7A)],
        r ∈ Unicode.wordCharacterTable := by decide
    exact (Unicode.RangeTable.contains_iff Unicode.wordCharacterTable_ascending _).mpr
      ⟨r, hmem r hr, hfirst, hlast⟩
  have hupper : c.isUpper = true → Unicode.isWordCharacter c = true := by
    intro h
    obtain ⟨hfirst, hlast⟩ := of_decide_eq_true h
    exact hrange (0x41, 0x5A) (by decide) hfirst hlast
  have hlower : c.isLower = true → Unicode.isWordCharacter c = true := by
    intro h
    obtain ⟨hfirst, hlast⟩ := Bool.and_eq_true_iff.mp h
    exact hrange (0x61, 0x7A) (by decide) (of_decide_eq_true hfirst) (of_decide_eq_true hlast)
  have hdigit : c.isDigit = true → Unicode.isWordCharacter c = true := by
    intro h
    obtain ⟨hfirst, hlast⟩ := Bool.and_eq_true_iff.mp h
    exact hrange (0x30, 0x39) (by decide) (of_decide_eq_true hfirst) (of_decide_eq_true hlast)
  simp only [isIdentifierPart, isIdentifierStart, Bool.or_eq_true, beq_iff_eq,
    decide_eq_true_eq] at h
  rcases h with ((rfl | hletter) | hbeyond) | hpart
  · exact hrange (0x5F, 0x5F) (by decide) (by decide) (by decide)
  · exact (Bool.or_eq_true_iff.mp hletter).elim hupper hlower
  · exact absurd hbeyond (Nat.not_le_of_lt hc)
  · exact hdigit hpart

theorem split?_identifier {c : Char} (h : isIdentifierStart c = true) (s : Text) :
    identifier.split? (c :: s) =
      some (c :: s.takeWhile isIdentifierPart, s.dropWhile isIdentifierPart) :=
  Pattern.split?_one_run h s

/-- An identifier that begins with characters of identifiers goes on behind them. -/
theorem split?_identifier_append {word : Text} (hstart : word.head?.any isIdentifierStart = true)
    (hall : word.all isIdentifierPart = true) (rest : Text) :
    identifier.split? (word ++ rest) = some
      (word ++ rest.takeWhile isIdentifierPart, rest.dropWhile isIdentifierPart) := by
  cases word with
  | nil => exact absurd hstart (by decide)
  | cons c word =>
    rw [List.all_cons, Bool.and_eq_true] at hall
    have hword := List.all_eq_true.mp hall.2
    rw [List.cons_append, split?_identifier hstart, List.takeWhile_append_of_pos hword,
      List.dropWhile_append_of_pos hword]
    rfl

/-- How far the identifier goes that a reserved word begins.  It takes the word and all the
parts of identifiers behind it, and it is the word alone just where the character behind that,
if there is one, does not come beyond the no-break space. -/
theorem reserved_word_extent {x : Lexeme} {words : List Text} (hx : x.words? = some words)
    {s : Text} {n : Nat} (h : x.byteLength? s = some n) :
    ∃ word ∈ words, ∃ rest, s = word ++ rest ∧ Text.byteLength word = n ∧
      identifier.byteLength? s =
        some (n + Text.byteLength (rest.takeWhile isIdentifierPart)) ∧
      (identifier.byteLength? s = some n ↔ ∀ c ∈ rest.head?, c.toNat < 0xA1) := by
  obtain ⟨⟨word, rest⟩, hsplit, rfl⟩ := Option.map_eq_some_iff.mp h
  rw [split?, pattern_of_words hx] at hsplit
  obtain ⟨hword, hend⟩ := Pattern.of_split?_wholeWord hsplit
  obtain rfl := Pattern.split?_append hsplit
  obtain ⟨hstart, hall⟩ := identifier_of_mem_words hx word hword
  have hlength : identifier.byteLength? (word ++ rest) =
      some (Text.byteLength word + Text.byteLength (rest.takeWhile isIdentifierPart)) := by
    rw [byteLength?, split?_identifier_append hstart hall, Option.map_some,
      Text.byteLength_append]
  refine ⟨word, hword, rest, rfl, rfl, hlength, ?_⟩
  rw [hlength, Option.some.injEq, Nat.add_eq_left, Text.byteLength_eq_zero_iff]
  cases rest with
  | nil => simp
  | cons d rest =>
    have hword := hend d rfl
    by_cases hlow : d.toNat < 0xA1
    · have hpart : ¬ isIdentifierPart d = true := by
        intro hpart
        rw [isWordCharacter_of_isIdentifierPart hpart hlow] at hword
        exact Bool.noConfusion hword
      rw [List.takeWhile_cons_of_neg hpart]
      simp [hlow]
    · have hpart : isIdentifierPart d = true := by
        rw [isIdentifierPart, isIdentifierStart, decide_eq_true (Nat.le_of_not_lt hlow),
          Bool.or_true, Bool.true_or]
      rw [List.takeWhile_cons_of_pos hpart]
      simp [hlow]

/-- In front of a space the identifier is the word. -/
theorem reserved_word_extent_space :
    (keyword .grammar).byteLength? "in x".toList = some 2 ∧
      ∃ word ∈ Sublanguage.keywords .grammar, ∃ rest, "in x".toList = word ++ rest ∧
        Text.byteLength word = 2 ∧
        identifier.byteLength? "in x".toList =
          some (2 + Text.byteLength (rest.takeWhile isIdentifierPart)) ∧
        (identifier.byteLength? "in x".toList = some 2 ↔ ∀ c ∈ rest.head?, c.toNat < 0xA1) := by
  have hkeyword : (keyword .grammar).byteLength? "in x".toList = some 2 := by
    decide +kernel
  exact ⟨hkeyword, reserved_word_extent rfl hkeyword⟩

/-- The multiplication sign is no word character, but it may be part of an identifier, and so
a word is split off the front of one. -/
theorem reserved_word_split_off : ¬ ∀ (x : Lexeme) (words : List Text), x.words? = some words →
    ∀ (s : Text) (n : Nat), x.byteLength? s = some n → identifier.byteLength? s = some n := by
  intro h
  have hkeyword : (keyword .grammar).byteLength? "in×".toList = some 2 := by
    decide +kernel
  have hidentifier : identifier.byteLength? "in×".toList = some 4 := by
    decide +kernel
  have htwo := h (keyword .grammar) _ rfl _ _ hkeyword
  rw [hidentifier] at htwo
  exact absurd htwo (by decide)

end Lexeme
end Highlighter
