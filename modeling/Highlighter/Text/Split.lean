/-
Splitting a list at the places where a separator stands.

`fields` gives the parts between all separators, one more than there are
separators, and `cutFirst` the parts before and after the first of them.
-/

namespace Highlighter
namespace Text

variable {α : Type} [DecidableEq α]

def fields (separator : α) : List α → List (List α)
  | [] => [[]]
  | a :: rest =>
    if a = separator then [] :: fields separator rest
    else
      match fields separator rest with
      | [] => [[a]]
      | part :: parts => (a :: part) :: parts

/-- What stands before the first separator and what stands behind it.  Without a
separator nothing stands behind. -/
def cutFirst (separator : α) (s : List α) : List α × List α :=
  (s.takeWhile (· ≠ separator), (s.dropWhile (· ≠ separator)).drop 1)

/-- What stands before the last separator and what stands behind it, if there is
one. -/
def cutLast? (separator : α) (s : List α) : Option (List α × List α) :=
  match s.reverse.dropWhile (· ≠ separator) with
  | [] => none
  | _ :: before => some (before.reverse, (s.reverse.takeWhile (· ≠ separator)).reverse)

theorem fields_ne_nil (separator : α) (s : List α) : fields separator s ≠ [] := by
  cases s with
  | nil => exact List.cons_ne_nil _ _
  | cons a rest =>
    rw [fields]
    split
    · exact List.cons_ne_nil _ _
    · split <;> exact List.cons_ne_nil _ _

/-- A list is split at a separator into the fields before it and those behind it. -/
theorem fields_append_cons (separator : α) (s t : List α) :
    fields separator (s ++ separator :: t) = fields separator s ++ fields separator t := by
  induction s with
  | nil => simp [fields]
  | cons a s ih =>
    rw [List.cons_append, fields, fields, ih]
    by_cases h : a = separator
    · rw [if_pos h, if_pos h, List.cons_append]
    · rw [if_neg h, if_neg h]
      cases hs : fields separator s with
      | nil => exact absurd hs (fields_ne_nil separator s)
      | cons part parts => rfl

/-- What stands before the first separator joins the first of the fields. -/
theorem fields_append_of_not_mem {separator : α} {s : List α} (h : separator ∉ s) (t : List α) :
    fields separator (s ++ t) = (fields separator t).modifyHead (s ++ ·) := by
  induction s with
  | nil =>
    cases ht : fields separator t with
    | nil => exact absurd ht (fields_ne_nil separator t)
    | cons part parts =>
      rw [List.nil_append, ht]
      rfl
  | cons a s ih =>
    rw [List.mem_cons, not_or] at h
    rw [List.cons_append, fields, if_neg fun ha => h.1 ha.symm, ih h.2]
    cases ht : fields separator t with
    | nil => exact absurd ht (fields_ne_nil separator t)
    | cons part parts => rfl

theorem fields_of_not_mem {separator : α} {s : List α} (h : separator ∉ s) :
    fields separator s = [s] := by
  have hfields := fields_append_of_not_mem h []
  rw [List.append_nil] at hfields
  rw [hfields, fields, List.modifyHead_cons, List.append_nil]

/-- Parts that are each ended by a separator are the fields, with nothing behind the last
one. -/
theorem fields_flatMap_concat {separator : α} {parts : List (List α)}
    (h : ∀ part ∈ parts, separator ∉ part) :
    fields separator (parts.flatMap (· ++ [separator])) = parts ++ [[]] := by
  induction parts with
  | nil => rfl
  | cons part rest ih =>
    rw [List.flatMap_cons, List.append_assoc, List.singleton_append, fields_append_cons,
      fields_of_not_mem (h part List.mem_cons_self),
      ih fun other hother => h other (List.mem_cons_of_mem _ hother)]
    rfl

theorem length_fields (separator : α) (s : List α) :
    (fields separator s).length = s.count separator + 1 := by
  induction s with
  | nil => rfl
  | cons a rest ih =>
    rw [fields]
    by_cases h : a = separator
    · rw [if_pos h, List.length_cons, ih, h, List.count_cons_self]
    · rw [if_neg h, List.count_cons_of_ne h]
      cases hrest : fields separator rest with
      | nil => exact absurd hrest (fields_ne_nil separator rest)
      | cons part parts =>
        rw [hrest] at ih
        exact ih

theorem cutFirst_append_cons {separator : α} {s : List α} (h : separator ∉ s) (t : List α) :
    cutFirst separator (s ++ separator :: t) = (s, t) := by
  have hne : ∀ a ∈ s, decide (a ≠ separator) = true := by
    intro a ha
    rw [decide_eq_true_eq]
    exact fun heq => h (heq ▸ ha)
  rw [cutFirst, List.takeWhile_append_of_pos hne, List.dropWhile_append_of_pos hne,
    List.takeWhile_cons_of_neg (by simp), List.dropWhile_cons_of_neg (by simp), List.append_nil]
  rfl

/-- A list is cut at a separator behind which there is no other. -/
theorem cutLast?_eq_some_iff {separator : α} {s before after : List α} :
    cutLast? separator s = some (before, after) ↔
      s = before ++ separator :: after ∧ separator ∉ after := by
  constructor
  · intro h
    have happ := List.takeWhile_append_dropWhile (p := (· ≠ separator)) (l := s.reverse)
    have hhead := List.head?_dropWhile_not (· ≠ separator) s.reverse
    rw [cutLast?] at h
    split at h
    · cases h
    · case h_2 a rest hdrop =>
      obtain ⟨rfl, rfl⟩ := Prod.mk.inj (Option.some.inj h)
      rw [hdrop] at happ hhead
      have ha : a = separator := by simpa using hhead
      constructor
      · have hs := congrArg List.reverse happ
        rw [List.reverse_reverse, List.reverse_append, List.reverse_cons, ha,
          List.append_assoc, List.singleton_append] at hs
        exact hs.symm
      · intro hmem
        have hne := List.all_eq_true.mp List.all_takeWhile separator (List.mem_reverse.mp hmem)
        simp at hne
  · rintro ⟨rfl, hafter⟩
    have hne : ∀ a ∈ after.reverse, decide (a ≠ separator) = true := by
      intro a ha
      rw [decide_eq_true_eq]
      exact fun heq => hafter (heq ▸ List.mem_reverse.mp ha)
    rw [cutLast?, List.reverse_append, List.reverse_cons, List.append_assoc,
      List.singleton_append, List.takeWhile_append_of_pos hne, List.dropWhile_append_of_pos hne,
      List.takeWhile_cons_of_neg (by simp), List.dropWhile_cons_of_neg (by simp)]
    simp

theorem cutLast?_eq_none_iff {separator : α} {s : List α} :
    cutLast? separator s = none ↔ separator ∉ s := by
  constructor
  · intro h hmem
    rw [cutLast?] at h
    split at h
    · case h_1 hdrop =>
      have happ := List.takeWhile_append_dropWhile (p := (· ≠ separator)) (l := s.reverse)
      rw [hdrop, List.append_nil] at happ
      rw [← List.mem_reverse, ← happ] at hmem
      have hne := List.all_eq_true.mp List.all_takeWhile separator hmem
      simp at hne
    · cases h
  · intro h
    refine Option.eq_none_iff_forall_ne_some.mpr fun ⟨before, after⟩ hcut => h ?_
    rw [(cutLast?_eq_some_iff.mp hcut).1]
    exact List.mem_append_right _ List.mem_cons_self
end Text
end Highlighter
