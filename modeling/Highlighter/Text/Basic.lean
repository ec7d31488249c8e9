/-
Texts and their measure in bytes.

A text is a list of characters.  Offsets into a line are counted in the bytes of
its UTF-8 form, so that `Text.byteLength` is the length that they refer to, and a
number of bytes is an offset only where a character ends.  `cutAt?` is the exact
cut: `cutAt?_eq_some_iff` says that it finds the two parts of a text whose first
one has the given length, and fails when there are none.  `splitBytes` is the
total version of it, which stops before the character that would not fit.
-/

namespace Highlighter

abbrev Text := List Char

namespace Text

def byteLength : Text → Nat
  | [] => 0
  | c :: rest => c.utf8Size + byteLength rest

@[simp] theorem byteLength_nil : byteLength [] = 0 := rfl

@[simp] theorem byteLength_cons (c : Char) (s : Text) :
    byteLength (c :: s) = c.utf8Size + byteLength s := rfl

@[simp] theorem byteLength_append (s t : Text) :
    byteLength (s ++ t) = byteLength s + byteLength t := by
  induction s with
  | nil => simp
  | cons c s ih => simp [ih, Nat.add_assoc]

@[simp] theorem byteLength_reverse (s : Text) : byteLength s.reverse = byteLength s := by
  induction s with
  | nil => rfl
  | cons c s ih => simp [ih, Nat.add_comm]

theorem byteLength_eq_zero_iff {s : Text} : byteLength s = 0 ↔ s = [] := by
  cases s with
  | nil => simp
  | cons c s =>
    have := c.utf8Size_pos
    simp only [byteLength_cons, reduceCtorEq, iff_false]
    omega

/-- The longest front of a text that has at most so many bytes, and what follows it. -/
def splitBytes : Nat → Text → Text × Text
  | _, [] => ([], [])
  | n, c :: rest =>
    if c.utf8Size ≤ n then
      let (front, back) := splitBytes (n - c.utf8Size) rest
      (c :: front, back)
    else ([], c :: rest)

theorem splitBytes_append (n : Nat) (s : Text) : (splitBytes n s).1 ++ (splitBytes n s).2 = s := by
  induction s generalizing n with
  | nil => rfl
  | cons c s ih =>
    rw [splitBytes]
    split
    · exact congrArg (c :: ·) (ih _)
    · rfl

/-- A front of exactly the given length is the front of the split. -/
theorem splitBytes_byteLength (front back : Text) :
    splitBytes (byteLength front) (front ++ back) = (front, back) := by
  induction front with
  | nil =>
    cases back with
    | nil => rfl
    | cons c back =>
      have := c.utf8Size_pos
      simp only [byteLength_nil, List.nil_append, splitBytes]
      rw [if_neg (by omega)]
  | cons c front ih =>
    simp only [byteLength_cons, List.cons_append, splitBytes]
    rw [if_pos (Nat.le_add_right _ _), Nat.add_sub_cancel_left, ih]

/-- The two parts of a text of which the first one has exactly so many bytes. -/
def cutAt? (n : Nat) (s : Text) : Option (Text × Text) :=
  let parts := splitBytes n s
  if byteLength parts.1 = n then some parts else none

/-- A cut is found exactly where a character ends at the given offset. -/
theorem cutAt?_eq_some_iff {n : Nat} {s front back : Text} :
    cutAt? n s = some (front, back) ↔ front ++ back = s ∧ byteLength front = n := by
  rw [cutAt?]
  constructor
  · intro h
    split at h
    · case isTrue hn =>
      have hparts : splitBytes n s = (front, back) := Option.some.inj h
      rw [hparts] at hn
      exact ⟨by rw [← splitBytes_append n s, hparts], hn⟩
    · exact absurd h (by simp)
  · rintro ⟨rfl, rfl⟩
    rw [splitBytes_byteLength]
    simp

/-- The part of a line between two byte offsets, if both are ends of characters and
stand in this order. -/
def slice? (line : Text) (start stop : Nat) : Option Text :=
  if start ≤ stop then
    (cutAt? start line).bind fun parts => (cutAt? (stop - start) parts.2).map Prod.fst
  else none

theorem slice?_eq_some_iff {line t : Text} {start stop : Nat} :
    slice? line start stop = some t ↔
      ∃ before after, line = before ++ t ++ after ∧ byteLength before = start ∧
        start + byteLength t = stop := by
  rw [slice?]
  constructor
  · intro h
    split at h
    · case isTrue hle =>
      obtain ⟨⟨before, rest⟩, hcut, h⟩ := Option.bind_eq_some_iff.mp h
      obtain ⟨⟨front, after⟩, hcut', rfl⟩ := Option.map_eq_some_iff.mp h
      obtain ⟨rfl, hb⟩ := cutAt?_eq_some_iff.mp hcut
      obtain ⟨hrest, hf⟩ := cutAt?_eq_some_iff.mp hcut'
      refine ⟨before, after, ?_, hb, ?_⟩
      · rw [List.append_assoc, hrest]
      · show start + byteLength front = stop
        omega
    · exact absurd h (by simp)
  · rintro ⟨before, after, rfl, rfl, rfl⟩
    rw [if_pos (Nat.le_add_right _ _), List.append_assoc,
      cutAt?_eq_some_iff.mpr ⟨rfl, rfl⟩, Nat.add_sub_cancel_left, Option.bind_some,
      cutAt?_eq_some_iff.mpr ⟨rfl, rfl⟩]
    rfl

end Text
end Highlighter
