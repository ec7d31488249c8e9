/-
Patterns for the front of a text.

A pattern says in which ways a text can begin.  It is made from single characters,
runs of characters, sequences and alternatives, and it orders the ways it finds: a
run prefers to be long, and an alternative comes before those after it.
`Pattern.lengths` lists how many characters each way takes, the preferred one first,
and a sequence takes the first of them from which it can go on.

`Pattern.split?` cuts a text after the preferred way.  A way that takes nothing
counts as no match, since a token has at least one character.
`split?_eq_some_iff` says that the two parts make up the text, that the first of
them is not empty, and that it is as long as the preferred way.
-/
import Highlighter.Text.Basic
import Highlighter.Unicode.WordCharacter

namespace Highlighter

/-- A way for a text to begin. -/
inductive Pattern where
  | nothing
  | one (isMember : Char → Bool)
  /-- Takes characters of a class, as many as possible and possibly none. -/
  | run (isMember : Char → Bool)
  /-- Takes nothing, where no word character follows. -/
  | wordEnd
  | andThen (first second : Pattern)
  | orElse (first second : Pattern)

namespace Pattern

def char (c : Char) : Pattern := one (· == c)

def oneOf (chars : Text) : Pattern := one chars.contains

def literal : Text → Pattern
  | [] => nothing
  | c :: rest => andThen (char c) (literal rest)

/-- Takes what a pattern takes, if it takes something, and nothing otherwise. -/
def maybe (p : Pattern) : Pattern := orElse p nothing

/-- Takes characters of a class, as many as possible and at least one. -/
def someOf (isMember : Char → Bool) : Pattern := andThen (one isMember) (run isMember)

/-- Takes what the first pattern of the list takes that takes anything. -/
def anyOf : List Pattern → Pattern
  | [] => one (fun _ => false)
  | p :: rest => orElse p (anyOf rest)

/-- Takes one of the given words, where it is not the front of a longer word.  A
text begins with at most one whole word, so that the order of the list is of no
consequence. -/
def wholeWord (words : List Text) : Pattern := andThen (anyOf (words.map literal)) wordEnd

/-- How many characters each way to begin takes of a text, the preferred way first. -/
def lengths : Pattern → Text → List Nat
  | nothing, _ => [0]
  | one _, [] => []
  | one isMember, c :: _ => if isMember c then [1] else []
  | run isMember, s => (List.range ((s.takeWhile isMember).length + 1)).reverse
  | wordEnd, [] => [0]
  | wordEnd, c :: _ => if Unicode.isWordCharacter c then [] else [0]
  | andThen first second, s =>
    (first.lengths s).flatMap fun n => (second.lengths (s.drop n)).map (n + ·)
  | orElse first second, s => first.lengths s ++ second.lengths s

/-- The text that a pattern takes and the rest, if it takes anything. -/
def split? (p : Pattern) (s : Text) : Option (Text × Text) :=
  match p.lengths s with
  | (n + 1) :: _ => some (s.take (n + 1), s.drop (n + 1))
  | _ => none

theorem le_length_of_mem_lengths {p : Pattern} {s : Text} {n : Nat} (h : n ∈ p.lengths s) :
    n ≤ s.length := by
  induction p generalizing s n with
  | nothing =>
    rw [List.mem_singleton.mp h]
    exact Nat.zero_le _
  | one isMember =>
    cases s with
    | nil => exact absurd h List.not_mem_nil
    | cons c s =>
      rw [lengths] at h
      split at h
      · rw [List.mem_singleton.mp h]
        exact Nat.succ_le_succ (Nat.zero_le _)
      · exact absurd h List.not_mem_nil
  | run isMember =>
    have hlt := List.mem_range.mp (List.mem_reverse.mp h)
    have hle := (List.takeWhile_sublist isMember (l := s)).length_le
    omega
  | wordEnd =>
    cases s with
    | nil => exact Nat.le_of_eq (List.mem_singleton.mp h)
    | cons c s =>
      rw [lengths] at h
      split at h
      · exact absurd h List.not_mem_nil
      · rw [List.mem_singleton.mp h]
        exact Nat.zero_le _
  | andThen first second ih₁ ih₂ =>
    obtain ⟨k, hk, hn⟩ := List.mem_flatMap.mp h
    obtain ⟨m, hm, rfl⟩ := List.mem_map.mp hn
    have hfirst := ih₁ hk
    have hsecond := ih₂ hm
    rw [List.length_drop] at hsecond
    omega
  | orElse first second ih₁ ih₂ =>
    rcases List.mem_append.mp h with h | h
    · exact ih₁ h
    · exact ih₂ h

/-- A pattern takes the front of a text that is as long as the preferred way. -/
theorem split?_eq_some_iff {p : Pattern} {s taken rest : Text} :
    p.split? s = some (taken, rest) ↔
      taken ++ rest = s ∧ taken ≠ [] ∧ (p.lengths s).head? = some taken.length := by
  rw [split?]
  split
  · case h_1 n others hcons =>
    have hle : n + 1 ≤ s.length := le_length_of_mem_lengths (hcons ▸ List.mem_cons_self)
    have hlen : (s.take (n + 1)).length = n + 1 := List.length_take_of_le hle
    rw [hcons, List.head?_cons, Option.some.injEq, Option.some.injEq, Prod.mk.injEq]
    constructor
    · rintro ⟨rfl, rfl⟩
      refine ⟨List.take_append_drop _ _, fun hnil => ?_, hlen.symm⟩
      rw [hnil] at hlen
      exact absurd hlen (by simp)
    · rintro ⟨rfl, _, hn⟩
      have hn' : n + 1 = taken.length := hn
      rw [hn', List.take_left, List.drop_left]
      exact ⟨rfl, rfl⟩
  · case h_2 hnone =>
    refine ⟨fun h => absurd h (by simp), ?_⟩
    rintro ⟨_, hne, hhead⟩
    obtain ⟨others, hcons⟩ := List.head?_eq_some_iff.mp hhead
    have hpos : taken.length ≠ 0 := fun h0 => hne (List.length_eq_zero_iff.mp h0)
    obtain ⟨n, hn⟩ := Nat.exists_eq_succ_of_ne_zero hpos
    exact (hnone n others (by rw [hcons, hn])).elim

theorem split?_append {p : Pattern} {s taken rest : Text} (h : p.split? s = some (taken, rest)) :
    taken ++ rest = s :=
  (split?_eq_some_iff.mp h).1

theorem split?_ne_nil {p : Pattern} {s taken rest : Text} (h : p.split? s = some (taken, rest)) :
    taken ≠ [] :=
  (split?_eq_some_iff.mp h).2.1

end Pattern
end Highlighter
