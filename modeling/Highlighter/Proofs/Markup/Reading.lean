/-
Reading texts back out of markup.

`unescape` undoes the forms of the four characters that are replaced in a text, each with
whatever follows it, so that a text is read back from its own form and from no part of
another one (`unescape_escape`).  The characters that begin or end a tag or a value are
in no text.  Wherever one of them stands in markup, it belongs to an item that is not a
text (`Item.exists_of_mark`).
-/
import Highlighter.Markup.Basic
import Highlighter.Text.Split

namespace Highlighter

namespace Markup

/-- The text of which a text is the form. -/
def unescape : Text → Text
  | '&' :: 'a' :: 'm' :: 'p' :: ';' :: rest => '&' :: unescape rest
  | '&' :: 'l' :: 't' :: ';' :: rest => '<' :: unescape rest
  | '&' :: 'g' :: 't' :: ';' :: rest => '>' :: unescape rest
  | '&' :: 'q' :: 'u' :: 'o' :: 't' :: ';' :: rest => '"' :: unescape rest
  | c :: rest => c :: unescape rest
  | [] => []

theorem unescape_cons_of_ne {c : Char} (h : c ≠ '&') (rest : Text) :
    unescape (c :: rest) = c :: unescape rest := by
  rw [unescape] <;> simp [h]

theorem unescape_escapeChar_append (c : Char) (rest : Text) :
    unescape (escapeChar c ++ rest) = c :: unescape rest := by
  unfold escapeChar
  by_cases hamp : c = '&'
  · rw [if_pos hamp, hamp]
    rfl
  rw [if_neg hamp]
  by_cases hlt : c = '<'
  · rw [if_pos hlt, hlt]
    rfl
  rw [if_neg hlt]
  by_cases hgt : c = '>'
  · rw [if_pos hgt, hgt]
    rfl
  rw [if_neg hgt]
  by_cases hquot : c = '"'
  · rw [if_pos hquot, hquot]
    rfl
  rw [if_neg hquot]
  exact unescape_cons_of_ne hamp rest

theorem unescape_escape_append (s rest : Text) :
    unescape (escape s ++ rest) = s ++ unescape rest := by
  induction s with
  | nil => rfl
  | cons c s ih =>
    show unescape ((escapeChar c ++ escape s) ++ rest) = c :: (s ++ unescape rest)
    rw [List.append_assoc, unescape_escapeChar_append, ih]

/-- A text is read back from its form. -/
theorem unescape_escape (s : Text) : unescape (escape s) = s := by
  have h := unescape_escape_append s []
  rw [List.append_nil, unescape, List.append_nil] at h
  exact h

theorem escape_append (s t : Text) : escape (s ++ t) = escape s ++ escape t :=
  List.flatMap_append

theorem newline_mem_escapeChar {c : Char} (h : '\n' ∈ escapeChar c) : c = '\n' := by
  unfold escapeChar at h
  split at h
  · exact absurd h (by decide)
  split at h
  · exact absurd h (by decide)
  split at h
  · exact absurd h (by decide)
  split at h
  · exact absurd h (by decide)
  · exact (List.mem_singleton.mp h).symm

theorem newline_not_mem_escape {s : Text} (h : '\n' ∉ s) : '\n' ∉ escape s := by
  intro hmem
  obtain ⟨c, hc, hform⟩ := List.mem_flatMap.mp hmem
  rw [newline_mem_escapeChar hform] at hc
  exact h hc

namespace Item

/-- A character of markup stands in one of its items, behind the items before that one. -/
theorem exists_split_of_render_eq {items : List Item} {front back : Text} {c : Char}
    (h : Markup.render items = front ++ c :: back) :
    ∃ earlier item later opening rest, items = earlier ++ item :: later ∧
      item.render = opening ++ c :: rest ∧ front = Markup.render earlier ++ opening ∧
      back = rest ++ Markup.render later := by
  induction items generalizing front with
  | nil => exact absurd h.symm (by simp [Markup.render])
  | cons item items ih =>
    have hlater : ∀ t, front = item.render ++ t → Markup.render items = t ++ c :: back →
        ∃ earlier other later opening rest, item :: items = earlier ++ other :: later ∧
          other.render = opening ++ c :: rest ∧ front = Markup.render earlier ++ opening ∧
          back = rest ++ Markup.render later := by
      intro t hfront hitems
      obtain ⟨earlier, other, later, opening, rest, rfl, hother, rfl, hback⟩ := ih hitems
      refine ⟨item :: earlier, other, later, opening, rest, rfl, hother, ?_, hback⟩
      rw [hfront, ← List.append_assoc]
      rfl
    have hrender : item.render ++ Markup.render items = front ++ c :: back := h
    rcases List.append_eq_append_iff.mp hrender with ⟨t, hfront, hitems⟩ | ⟨t, hitem, hback⟩
    · exact hlater t hfront hitems
    · cases t with
      | nil => exact hlater [] (by rw [hitem, List.append_nil, List.append_nil]) hback.symm
      | cons d t =>
        obtain ⟨rfl, rfl⟩ := List.cons.inj hback
        exact ⟨[], item, items, front, t, rfl, hitem, rfl, rfl⟩

/-- A character of markup is a character of one of its items. -/
theorem exists_of_render_eq {items : List Item} {front back : Text} {c : Char}
    (h : Markup.render items = front ++ c :: back) :
    ∃ item ∈ items, ∃ before opening rest after, item.render = opening ++ c :: rest ∧
      front = before ++ opening ∧ back = rest ++ after := by
  obtain ⟨earlier, item, later, opening, rest, rfl, hitem, hfront, hback⟩ :=
    exists_split_of_render_eq h
  exact ⟨item, List.mem_append_right _ List.mem_cons_self, _, opening, rest, _, hitem, hfront,
    hback⟩

/-- A text has none of the characters that begin or end a tag or a value. -/
theorem ne_text_of_render_eq {item : Item} {opening rest : Text} {c : Char}
    (hc : c ∈ ['<', '>', '"']) (h : item.render = opening ++ c :: rest) (content : Text) :
    item ≠ .text content := by
  rintro rfl
  have hform : escape content = opening ++ c :: rest := h
  have hchar : c ∈ escape content := by simp [hform]
  exact not_mem_escape content hc hchar

/-- A text, or an item of one of the given forms. -/
def TextOr (forms : List Text) (item : Item) : Prop :=
  (∃ content, item = .text content) ∨ item.render ∈ forms

theorem textOr_text (forms : List Text) (content : Text) : (text content).TextOr forms :=
  .inl ⟨content, rfl⟩

theorem textOr_of_forms {forms : List Text} {items : List Item}
    (h : ∀ item ∈ items, item.render ∈ forms) : ∀ item ∈ items, item.TextOr forms :=
  fun item hitem => .inr (h item hitem)

theorem TextOr.mono {forms more : List Text} {item : Item} (h : item.TextOr forms)
    (hmore : ∀ form ∈ forms, form ∈ more) : item.TextOr more :=
  h.imp_right fun hform => hmore _ hform

/-- A character that begins or ends a tag or a value does not stand in a text. -/
theorem exists_of_mark {items : List Item} {front back : Text} {c : Char}
    (hc : c ∈ ['<', '>', '"']) (h : Markup.render items = front ++ c :: back) :
    ∃ item ∈ items, (∀ content, item ≠ .text content) ∧
      ∃ before opening rest after, item.render = opening ++ c :: rest ∧
        front = before ++ opening ∧ back = rest ++ after := by
  obtain ⟨item, hmem, before, opening, rest, after, hitem, hplace⟩ := exists_of_render_eq h
  exact ⟨item, hmem, ne_text_of_render_eq hc hitem, before, opening, rest, after, hitem, hplace⟩

end Item

/-- Whether every character that begins or ends a tag or a value stands in an item of one of
the given forms, which is not a text, at the place of that item in the markup. -/
def MarkedBy (forms : List Text) (items : List Item) : Prop :=
  ∀ front c back, c ∈ ['<', '>', '"'] → render items = front ++ c :: back →
    ∃ earlier item later opening rest, items = earlier ++ item :: later ∧
      item.render ∈ forms ∧ (∀ content, item ≠ .text content) ∧
      item.render = opening ++ c :: rest ∧ front = render earlier ++ opening ∧
      back = rest ++ render later

theorem markedBy_of_textOr {forms : List Text} {items : List Item}
    (h : ∀ item ∈ items, item.TextOr forms) : MarkedBy forms items := by
  intro front c back hc hrender
  obtain ⟨earlier, item, later, opening, rest, rfl, hitem, hplace⟩ :=
    Item.exists_split_of_render_eq hrender
  have htext := Item.ne_text_of_render_eq hc hitem
  refine ⟨earlier, item, later, opening, rest, rfl, ?_, htext, hitem, hplace⟩
  rcases h item (List.mem_append_right _ List.mem_cons_self) with ⟨content, hcontent⟩ | hform
  · exact absurd hcontent (htext content)
  · exact hform

end Markup
end Highlighter
