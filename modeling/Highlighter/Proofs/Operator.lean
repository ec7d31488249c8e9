/-
How far an operator goes, and the alternatives that are never reached.

The alternatives for an operator are tried in their order, and one that finds a way to begin
wherever a later one does takes all the effect from it (`Pattern.head?_anyOf_of_shadows`).  The
first alternative does so for the two with a doubled slash and a doubled asterisk, and without
these two documents are read as before.  The first character of an operator tells which of the
others takes it, and so how far it goes (`Lexeme.operator_extent`).
-/
import Highlighter.Proofs.CharacterClass
import Highlighter.Proofs.Lexicon

namespace Highlighter
namespace Text

theorem byteLength_eq_length {s : Text} (h : s.all (·.utf8Size == 1) = true) :
    byteLength s = s.length := by
  induction s with
  | nil => rfl
  | cons c s ih =>
    rw [List.all_cons, Bool.and_eq_true, beq_iff_eq] at h
    rw [byteLength_cons, List.length_cons, h.1, ih h.2, Nat.add_comm]

end Text

namespace Pattern

/-- Whether a pattern finds a way to begin of every text of which another one does. -/
def Shadows (p q : Pattern) : Prop := ∀ s, q.lengths s ≠ [] → p.lengths s ≠ []

/-- Only the preferred way matters for what a pattern takes. -/
theorem split?_congr {p q : Pattern} {s : Text}
    (h : (p.lengths s).head? = (q.lengths s).head?) : p.split? s = q.split? s := by
  refine Option.ext fun parts => ?_
  rw [split?_eq_some_iff, split?_eq_some_iff, h]

/-- An alternative has no effect behind one that shadows it. -/
theorem head?_anyOf_of_shadows {before after : List Pattern} {p q : Pattern} (hp : p ∈ before)
    (h : p.Shadows q) (s : Text) :
    ((anyOf (before ++ q :: after)).lengths s).head? =
      ((anyOf (before ++ after)).lengths s).head? := by
  rw [lengths_anyOf, lengths_anyOf, List.flatMap_append, List.flatMap_append, List.flatMap_cons]
  by_cases hq : q.lengths s = []
  · rw [hq, List.nil_append]
  · have hbefore : before.flatMap (·.lengths s) ≠ [] :=
      fun hnil => h s hq (List.flatMap_eq_nil_iff.mp hnil p hp)
    have hsome := List.isSome_head?.mpr hbefore
    rw [List.head?_append, Option.or_of_isSome hsome, List.head?_append,
      Option.or_of_isSome hsome]

/-- A pattern that takes a character alone shadows those that begin with no other one. -/
theorem shadows_of_takesOne {p q : Pattern} (hnull : q.isNullable = false)
    (h : ∀ c, q.mayBegin c = true → p.takesOne c = true) : p.Shadows q := by
  intro s hq
  cases s with
  | nil =>
    obtain ⟨n, hn⟩ := List.exists_mem_of_ne_nil _ hq
    have hzero : n = 0 := Nat.le_zero.mp (le_length_of_mem_lengths hn)
    rw [hzero] at hn
    rw [isNullable_of_zero_mem hn] at hnull
    cases hnull
  | cons c s =>
    have hbegin : q.mayBegin c = true := by
      refine Classical.byContradiction fun hc => ?_
      exact hq (lengths_eq_nil hnull (Bool.eq_false_iff.mpr hc) s)
    exact List.ne_nil_of_mem (one_mem_lengths (h c hbegin) s)

/-- Where a pattern takes characters of one byte only, and never nothing, the length of what it
takes is the preferred one. -/
theorem byteLength_split? {p : Pattern} (hnull : p.isNullable = false)
    (h : p.TakesOnly (·.utf8Size == 1)) (s : Text) :
    (p.split? s).map (fun parts => Text.byteLength parts.1) = (p.lengths s).head? := by
  rw [split?]
  cases hlengths : p.lengths s with
  | nil => rfl
  | cons n others =>
    have hn : n ∈ p.lengths s := hlengths ▸ List.mem_cons_self
    cases n with
    | zero =>
      rw [isNullable_of_zero_mem hn] at hnull
      cases hnull
    | succ n =>
      have hlength := Text.byteLength_eq_length (all_take_of_mem_lengths h hn)
      rw [List.length_take_of_le (le_length_of_mem_lengths hn)] at hlength
      rw [Option.map_some, hlength, List.head?_cons]

section Head

variable (c : Char) (s : Text)

theorem head?_lengths_oneOf (marks : Text) :
    ((oneOf marks).lengths (c :: s)).head? = if c ∈ marks then some 1 else none := by
  by_cases hc : c ∈ marks <;> simp [oneOf, lengths, hc]

theorem head?_lengths_mark (marks : Text) (d : Char) :
    ((andThen (oneOf marks) (maybe (char d))).lengths (c :: s)).head? =
      if c ∈ marks then some (if s.head? = some d then 2 else 1) else none := by
  by_cases hc : c ∈ marks
  · cases s with
    | nil => simp [oneOf, maybe, char, lengths, hc]
    | cons e s => by_cases he : e = d <;> simp [oneOf, maybe, char, lengths, hc, he]
  · simp [oneOf, lengths, hc]

theorem head?_lengths_someOf (isMember : Char → Bool) :
    ((someOf isMember).lengths (c :: s)).head? =
      if isMember c then some ((c :: s).takeWhile isMember).length else none := by
  by_cases hc : isMember c = true
  · simp [someOf, lengths, hc, List.range_succ, Nat.add_comm]
  · simp [someOf, lengths, hc]

theorem head?_lengths_pair (a b : Char) :
    ((literal [a, b]).lengths (c :: s)).head? =
      if c = a ∧ s.head? = some b then some 2 else none := by
  by_cases hc : c = a
  · cases s with
    | nil => simp [literal, char, lengths, hc]
    | cons e s => by_cases he : e = b <;> simp [literal, char, lengths, hc, he]
  · simp [literal, char, lengths, hc]

end Head

end Pattern

namespace Lexeme

/-- How far the operator goes that a text begins with, if it begins with one. -/
def operatorLength? : Text → Option Nat
  | [] => none
  | c :: s =>
    if c ∈ "-+*/%&|^".toList then some (if s.head? = some '=' then 2 else 1)
    else if c ∈ "<>=".toList then some ((c :: s).takeWhile "<>=".toList.contains).length
    else if c = '!' then some (if s.head? = some '=' then 2 else 1)
    else if c ∈ "~@".toList then some 1
    else none

/-- The alternative for an operator that begins with a mark twice. -/
def doubledMark (mark : Char) : Pattern :=
  .andThen (.literal [mark, mark]) (.maybe (.char '='))

/-- The alternatives for an operator but for those with a mark twice. -/
def undoubledAlternatives : List Pattern :=
  operatorAlternatives.take 2 ++ operatorAlternatives.drop 4

theorem operatorAlternatives_eq : operatorAlternatives = operatorAlternatives.take 2 ++
    doubledMark '/' :: doubledMark '*' :: operatorAlternatives.drop 4 := rfl

/-- The first alternative takes a mark already that comes twice. -/
theorem shadows_doubledMark {mark : Char} {marks : Text} (h : mark ∈ marks) (q : Pattern) :
    (Pattern.andThen (.oneOf marks) (.maybe q)).Shadows (doubledMark mark) := by
  refine Pattern.shadows_of_takesOne rfl fun c hc => ?_
  have hmark : c = mark := by
    simpa [doubledMark, Pattern.mayBegin] using hc
  simp [hmark, h, Pattern.takesOne, Pattern.skips, Pattern.oneOf, Pattern.maybe]

/-- The first alternative has both marks that come twice in others. -/
theorem exists_shadows_doubledMarks : ∃ p ∈ operatorAlternatives.take 2,
    p.Shadows (doubledMark '/') ∧ p.Shadows (doubledMark '*') :=
  ⟨_, List.mem_cons_self, shadows_doubledMark (by decide) _, shadows_doubledMark (by decide) _⟩

theorem head?_lengths_operator (s : Text) :
    (operator.pattern.lengths s).head? =
      ((Pattern.anyOf undoubledAlternatives).lengths s).head? := by
  obtain ⟨p, hp, hslash, hasterisk⟩ := exists_shadows_doubledMarks
  show ((Pattern.anyOf operatorAlternatives).lengths s).head? = _
  rw [operatorAlternatives_eq, Pattern.head?_anyOf_of_shadows hp hslash,
    Pattern.head?_anyOf_of_shadows hp hasterisk]
  rfl

theorem byteLength?_operator (s : Text) : operator.byteLength? s =
    undoubledAlternatives.findSome? fun p => (p.lengths s).head? := by
  have hhead := Pattern.byteLength_split? rfl (takesOnly_operator (by decide)) s
  rw [byteLength?, split?, hhead, head?_lengths_operator, Pattern.lengths_anyOf,
    List.head?_flatMap]

theorem byteLength?_operator_eq (s : Text) : operator.byteLength? s = operatorLength? s := by
  rw [byteLength?_operator]
  cases s with
  | nil => rfl
  | cons c s =>
    have halternatives : undoubledAlternatives =
      [.andThen (.oneOf "-+*/%&|^".toList) (.maybe (.char '=')), .someOf "<>=".toList.contains,
        .literal ['!', '='], .oneOf "~!@".toList] := by rfl
    have hlast : c ∈ "~!@".toList ↔ c = '!' ∨ c ∈ "~@".toList := by
      show c ∈ ['~', '!', '@'] ↔ c = '!' ∨ c ∈ ['~', '@']
      grind
    rw [operatorLength?, halternatives, List.findSome?_cons, Pattern.head?_lengths_mark]
    by_cases hmark : c ∈ "-+*/%&|^".toList
    · rw [if_pos hmark, if_pos hmark]
    rw [if_neg hmark, if_neg hmark, List.findSome?_cons, Pattern.head?_lengths_someOf]
    by_cases hcompare : c ∈ "<>=".toList
    · rw [if_pos hcompare, if_pos (List.contains_iff_mem.mpr hcompare)]
    rw [if_neg hcompare, if_neg (mt List.contains_iff_mem.mp hcompare), List.findSome?_cons,
      Pattern.head?_lengths_pair, List.findSome?_cons, Pattern.head?_lengths_oneOf]
    by_cases hbang : c = '!'
    · rw [if_pos (hlast.mpr (.inl hbang)), if_pos hbang]
      by_cases hequals : s.head? = some '='
      · rw [if_pos ⟨hbang, hequals⟩, if_pos hequals]
      · rw [if_neg fun h => hequals h.2, if_neg hequals]
    · rw [if_neg fun h => hbang h.1, if_neg hbang]
      by_cases hsingle : c ∈ "~@".toList
      · rw [if_pos (hlast.mpr (.inr hsingle)), if_pos hsingle]
      · rw [if_neg (mt hlast.mp (not_or.mpr ⟨hbang, hsingle⟩)), if_neg hsingle,
          List.findSome?_nil]

/-- The patterns of the lexemes, but that an operator does without the doubled marks. -/
def undoubled : Lexicon
  | operator => .anyOf undoubledAlternatives
  | x => x.pattern

theorem undoubled_alike : undoubled.Alike pattern := by
  intro x s
  cases x with
  | operator => exact Pattern.split?_congr (head?_lengths_operator s).symm
  | _ => rfl

/-- The first character of an operator tells how far it goes.  The alternatives with a doubled
mark stand behind one that begins wherever they do; an operator takes the same without them, and
so every line in every state, and every document, is read as before. -/
theorem operator_extent :
    (∀ s, operator.byteLength? s = operatorLength? s) ∧
    operatorAlternatives = operatorAlternatives.take 2 ++
      doubledMark '/' :: doubledMark '*' :: operatorAlternatives.drop 4 ∧
    (∃ p ∈ operatorAlternatives.take 2,
      p.Shadows (doubledMark '/') ∧ p.Shadows (doubledMark '*')) ∧
    (∀ s, operator.split? s = (Pattern.anyOf undoubledAlternatives).split? s) ∧
    (∀ (st : State) (line : Text), st.run line undoubled = st.run line) ∧
    ∀ document, highlight document undoubled = highlight document := by
  refine ⟨byteLength?_operator_eq, operatorAlternatives_eq, exists_shadows_doubledMarks,
    fun s => (undoubled_alike operator s).symm, ?line, ?document⟩
  case line => exact State.run_congr undoubled_alike
  case document => exact highlight_congr undoubled_alike

/-- The doubled slash alone would take all three characters. -/
example : operator.byteLength? "//=".toList = some 1 ∧
    (doubledMark '/').lengths "//=".toList = [3, 2] := by decide

end Lexeme
end Highlighter
