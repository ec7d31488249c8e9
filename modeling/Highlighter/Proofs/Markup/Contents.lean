/-
The texts behind the tags of a page.

`contents` splits a page at every `<` and takes what stands behind the tags of one form, up to
the next `<`.  A text in markup has no `<`, and so it is read back as the content of the tag
before it, whatever it contains, as long as no other tag of the page has the same form
(`contents_element`).
-/
import Highlighter.Proofs.Markup.Reading

namespace Highlighter
namespace Markup

/-- The text in what stands behind a `<`, if the tag there has the given form. -/
def content? (tag field : Text) : Option Text :=
  let (name, inside) := Text.cutFirst '>' field
  if name = tag then some (unescape inside) else none

/-- The texts behind the tags of a form.  What stands before the first `<` is behind no tag. -/
def contents (tag page : Text) : List Text :=
  (Text.fields '<' page).tail.filterMap (content? tag)

/-- Whether a form is that of one tag. -/
def IsTag (form : Text) : Prop :=
  form.head? = some '<' ∧ form.tail.getLast? = some '>' ∧ '<' ∉ form.tail ∧
    '>' ∉ form.tail.dropLast

instance (form : Text) : Decidable (IsTag form) :=
  inferInstanceAs (Decidable (_ ∧ _ ∧ _ ∧ _))

/-- Whether a form has no `<`, or is another tag than the given one. -/
def AvoidsTag (tag form : Text) : Prop :=
  '<' ∉ form ∨ IsTag form ∧ form ≠ '<' :: (tag ++ ['>'])

instance (tag form : Text) : Decidable (AvoidsTag tag form) :=
  inferInstanceAs (Decidable (_ ∨ _))

theorem IsTag.exists_name {form : Text} (h : IsTag form) :
    ∃ name, form = '<' :: (name ++ ['>']) ∧ '<' ∉ name ∧ '>' ∉ name := by
  obtain ⟨hhead, hlast, hopens, hends⟩ := h
  obtain ⟨body, rfl⟩ := List.head?_eq_some_iff.mp hhead
  obtain ⟨name, rfl⟩ := List.getLast?_eq_some_iff.mp hlast
  rw [List.tail_cons, List.mem_append, not_or] at hopens
  rw [List.tail_cons, List.dropLast_concat] at hends
  exact ⟨name, rfl, hopens.1, hends⟩

theorem avoidsTag_text (tag content : Text) : AvoidsTag tag (Item.text content).render :=
  .inl (not_mem_escape content (by decide))

theorem avoidsTag_of_textOr {tag : Text} {forms : List Text} {items : List Item}
    (h : ∀ item ∈ items, item.TextOr forms) (hforms : ∀ form ∈ forms, IsTag form)
    (hother : '<' :: (tag ++ ['>']) ∉ forms) : ∀ item ∈ items, AvoidsTag tag item.render := by
  intro item hitem
  rcases h item hitem with ⟨content, rfl⟩ | hform
  · exact avoidsTag_text tag content
  · exact .inr ⟨hforms _ hform, fun heq => hother (heq ▸ hform)⟩

theorem contents_of_not_mem {tag s : Text} (h : '<' ∉ s) : contents tag s = [] := by
  rw [contents, Text.fields_of_not_mem h]
  rfl

theorem contents_cons (tag s : Text) :
    contents tag ('<' :: s) = (Text.fields '<' s).filterMap (content? tag) := rfl

theorem contents_append_cons (tag s t : Text) :
    contents tag (s ++ '<' :: t) = contents tag s ++ contents tag ('<' :: t) := by
  rw [contents, Text.fields_append_cons, List.tail_append_of_ne_nil (Text.fields_ne_nil '<' s),
    List.filterMap_append]
  rfl

/-- A text in front of a page is behind no tag of it. -/
theorem contents_append_of_not_mem {tag s : Text} (h : '<' ∉ s) (t : Text) :
    contents tag (s ++ t) = contents tag t := by
  rw [contents, contents, Text.fields_append_of_not_mem h, List.tail_modifyHead]

theorem contents_append_of_avoidsTag {tag form : Text} (h : AvoidsTag tag form) (s : Text) :
    contents tag (form ++ s) = contents tag s := by
  rcases h with hplain | ⟨htag, hother⟩
  · exact contents_append_of_not_mem hplain s
  · obtain ⟨name, rfl, hopens, hends⟩ := htag.exists_name
    have hbody : '<' ∉ name ++ ['>'] := by simp [hopens]
    have hname : name ≠ tag := fun heq => hother (heq ▸ rfl)
    rw [List.cons_append, contents_cons, contents, Text.fields_append_of_not_mem hbody]
    cases hs : Text.fields '<' s with
    | nil => exact absurd hs (Text.fields_ne_nil '<' s)
    | cons field rest =>
      -- What stands in front of the first `<` joins the field of the tag.
      have hfield : content? tag (name ++ ['>'] ++ field) = none := by
        rw [content?, List.append_assoc, List.singleton_append,
          Text.cutFirst_append_cons hends]
        exact if_neg hname
      exact List.filterMap_cons_none hfield

/-- Items without a tag of the form have no text behind one. -/
theorem contents_render_append {tag : Text} {items : List Item}
    (h : ∀ item ∈ items, AvoidsTag tag item.render) (s : Text) :
    contents tag (render items ++ s) = contents tag s := by
  induction items with
  | nil => rfl
  | cons item rest ih =>
    have hitem := h item List.mem_cons_self
    show contents tag ((item.render ++ render rest) ++ s) = contents tag s
    rw [List.append_assoc, contents_append_of_avoidsTag hitem,
      ih fun other hother => h other (List.mem_cons_of_mem _ hother)]

theorem contents_render_eq_nil {tag : Text} {items : List Item}
    (h : ∀ item ∈ items, AvoidsTag tag item.render) : contents tag (render items) = [] := by
  rw [← List.append_nil (render items), contents_render_append h,
    contents_of_not_mem List.not_mem_nil]

theorem contents_opening {tag : Text} (h : '<' ∉ tag ∧ '>' ∉ tag) (t : Text) :
    contents tag ('<' :: (tag ++ '>' :: escape t)) = [t] := by
  have hbody : '<' ∉ tag ++ '>' :: escape t := by
    have htext : '<' ∉ escape t := not_mem_escape t (by decide)
    simp [h.1, htext]
  have hinside : content? tag (tag ++ '>' :: escape t) = some t := by
    rw [content?, Text.cutFirst_append_cons h.2]
    show (if tag = tag then some (unescape (escape t)) else none) = some t
    rw [if_pos rfl, unescape_escape]
  rw [contents_cons, Text.fields_of_not_mem hbody]
  exact List.filterMap_cons_some hinside

/-- The only tag of a form has its text read back. -/
theorem contents_element {tag name t : Text} {before content after : List Item} {opening : Item}
    (htag : '<' ∉ tag ∧ '>' ∉ tag) (hopening : opening.render = '<' :: (tag ++ ['>']))
    (hcontent : render content = escape t)
    (hbefore : ∀ item ∈ before, AvoidsTag tag item.render)
    (hafter : ∀ item ∈ .closing name :: after, AvoidsTag tag item.render) :
    contents tag (render (before ++ opening :: (content ++ .closing name :: after))) = [t] := by
  obtain ⟨rest, hrest⟩ : ∃ rest, render (.closing name :: after) = '<' :: rest := ⟨_, rfl⟩
  have helement : render (opening :: (content ++ .closing name :: after)) =
      '<' :: (tag ++ '>' :: escape t) ++ '<' :: rest := by
    show opening.render ++ render (content ++ .closing name :: after) = _
    rw [render_append, hopening, hcontent, hrest]
    simp
  rw [render_append, contents_render_append hbefore, helement, contents_append_cons,
    contents_opening htag, ← hrest, contents_render_eq_nil hafter]
  rfl

end Markup
end Highlighter
