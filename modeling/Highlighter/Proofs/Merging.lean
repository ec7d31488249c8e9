/-
Merged spans are a normal form.

`Span.mergeAdjacent` compares the next span with the one that has grown so far.  So it goes on
from the last of the merged spans (`Span.mergeAdjacent_append`), and it makes no difference
whether a part of the list has been merged before, whatever ranges the spans have
(`Span.mergeFrom_mergeFrom`).  Where the spans are in order, as those of a line are, the merged
ones are in order as well and paint the same bytes.  The paint of a merged span ends with it
(`Span.not_paints_stop`), so that no span of another list can stand for two of them
(`Span.length_le_of_paintAlike`).
-/
import Highlighter.Proofs.Tiling
import Mathlib.Data.List.Chain
import Mathlib.Data.List.Perm.Subperm

namespace Highlighter
namespace Span

theorem continues_iff {s t : Span} :
    s.continues t = true ↔ s.stop = t.start ∧ s.style = t.style := by
  simp [continues]

/-- Whether no two neighbours touch and have the same style. -/
def IsMerged (spans : List Span) : Prop :=
  spans.IsChain fun s t => ¬ (s.stop = t.start ∧ s.style = t.style)

theorem mergeFrom_cons_of_continues {last next : Span} (h : last.continues next = true)
    (rest : List Span) :
    mergeFrom last (next :: rest) = mergeFrom { last with stop := next.stop } rest := by
  rw [mergeFrom, if_pos h]

theorem mergeFrom_cons_of_not_continues {last next : Span} (h : ¬ last.continues next = true)
    (rest : List Span) : mergeFrom last (next :: rest) = last :: mergeFrom next rest := by
  rw [mergeFrom, if_neg h]

theorem mergeFrom_ne_nil (last : Span) (spans : List Span) : mergeFrom last spans ≠ [] := by
  obtain ⟨stop, hhead⟩ := head?_mergeFrom last spans
  intro hnil
  rw [hnil] at hhead
  cases hhead

theorem isMerged_mergeFrom (last : Span) (spans : List Span) : IsMerged (mergeFrom last spans) := by
  induction spans generalizing last with
  | nil => exact List.isChain_singleton last
  | cons next rest ih =>
    by_cases hjoin : last.continues next = true
    · rw [mergeFrom_cons_of_continues hjoin]
      exact ih _
    · rw [mergeFrom_cons_of_not_continues hjoin]
      refine List.isChain_cons.mpr ⟨?_, ih next⟩
      -- The next merged span may have grown, but it begins where the next span does.
      intro grown hgrown
      obtain ⟨stop, hhead⟩ := head?_mergeFrom next rest
      obtain rfl := Option.some.inj (hhead.symm.trans hgrown)
      exact fun htouch => hjoin (continues_iff.mpr htouch)

theorem isMerged_mergeAdjacent (spans : List Span) : IsMerged (mergeAdjacent spans) := by
  cases spans with
  | nil => exact List.isChain_nil
  | cons first rest => exact isMerged_mergeFrom first rest

theorem mergeFrom_of_isMerged {last : Span} {spans : List Span} (h : IsMerged (last :: spans)) :
    mergeFrom last spans = last :: spans := by
  induction spans generalizing last with
  | nil => rfl
  | cons next rest ih =>
    obtain ⟨happart, hrest⟩ := List.isChain_cons_cons.mp h
    rw [mergeFrom_cons_of_not_continues (fun hjoin => happart (continues_iff.mp hjoin)), ih hrest]

theorem mergeAdjacent_of_isMerged {spans : List Span} (h : IsMerged spans) :
    mergeAdjacent spans = spans := by
  cases spans with
  | nil => rfl
  | cons first rest => exact mergeFrom_of_isMerged h

theorem mergeAdjacent_mergeAdjacent (spans : List Span) :
    mergeAdjacent (mergeAdjacent spans) = mergeAdjacent spans :=
  mergeAdjacent_of_isMerged (isMerged_mergeAdjacent spans)

/-- Goes on merging, from the last of the spans that have been merged. -/
def mergeOnto (merged more : List Span) : List Span :=
  match merged.getLast? with
  | none => mergeAdjacent more
  | some last => merged.dropLast ++ mergeFrom last more

theorem mergeOnto_cons {merged : List Span} (h : merged ≠ []) (first : Span) (more : List Span) :
    mergeOnto (first :: merged) more = first :: mergeOnto merged more := by
  obtain ⟨second, rest, rfl⟩ := List.exists_cons_of_ne_nil h
  rw [mergeOnto, mergeOnto, List.getLast?_cons_cons, List.dropLast_cons_cons]
  cases hlast : (second :: rest).getLast? with
  | none => simp at hlast
  | some last => rfl

theorem mergeFrom_append (last : Span) (spans more : List Span) :
    mergeFrom last (spans ++ more) = mergeOnto (mergeFrom last spans) more := by
  induction spans generalizing last with
  | nil => rfl
  | cons next rest ih =>
    rw [List.cons_append]
    by_cases hjoin : last.continues next = true
    · rw [mergeFrom_cons_of_continues hjoin, mergeFrom_cons_of_continues hjoin, ih]
    · rw [mergeFrom_cons_of_not_continues hjoin, mergeFrom_cons_of_not_continues hjoin,
        mergeOnto_cons (mergeFrom_ne_nil next rest), ih]

/-- Merging goes on from the last span of what has been merged. -/
theorem mergeAdjacent_append (spans more : List Span) :
    mergeAdjacent (spans ++ more) = mergeOnto (mergeAdjacent spans) more := by
  cases spans with
  | nil => rfl
  | cons first rest => exact mergeFrom_append first rest more

/-- A span grows to the same merged spans, whether those behind it have been merged or not. -/
theorem mergeFrom_mergeFrom (last first : Span) (rest : List Span) :
    mergeFrom last (mergeFrom first rest) = mergeFrom last (first :: rest) := by
  induction rest generalizing last first with
  | nil => rfl
  | cons next rest ih =>
    by_cases hnext : first.continues next = true
    · rw [mergeFrom_cons_of_continues hnext, ih]
      -- The first span is compared by its start and its style, which it keeps as it grows.
      by_cases hfirst : last.continues first = true
      · have hgrown : last.continues { first with stop := next.stop } = true := hfirst
        have hjoined : ({ last with stop := first.stop } : Span).continues next = true := by
          rw [continues_iff] at hfirst hnext ⊢
          exact ⟨hnext.1, hfirst.2.trans hnext.2⟩
        rw [mergeFrom_cons_of_continues hgrown, mergeFrom_cons_of_continues hfirst,
          mergeFrom_cons_of_continues hjoined]
      · have hgrown : ¬ last.continues { first with stop := next.stop } = true := hfirst
        rw [mergeFrom_cons_of_not_continues hgrown, mergeFrom_cons_of_not_continues hfirst,
          mergeFrom_cons_of_continues hnext]
    · rw [mergeFrom_cons_of_not_continues hnext]
      by_cases hfirst : last.continues first = true
      · rw [mergeFrom_cons_of_continues hfirst, mergeFrom_cons_of_continues hfirst, ih]
      · rw [mergeFrom_cons_of_not_continues hfirst, mergeFrom_cons_of_not_continues hfirst, ih]

theorem mergeOnto_mergeAdjacent (merged more : List Span) :
    mergeOnto merged (mergeAdjacent more) = mergeOnto merged more := by
  unfold mergeOnto
  split
  · exact mergeAdjacent_mergeAdjacent more
  · case h_2 last _ =>
    cases more with
    | nil => rfl
    | cons first rest => exact congrArg (merged.dropLast ++ ·) (mergeFrom_mergeFrom last first rest)

/-- Parts of a list may be merged beforehand. -/
theorem mergeAdjacent_append_mergeAdjacent (spans more : List Span) :
    mergeAdjacent (spans ++ more) = mergeAdjacent (mergeAdjacent spans ++ mergeAdjacent more) := by
  rw [mergeAdjacent_append, mergeAdjacent_append, mergeAdjacent_mergeAdjacent,
    mergeOnto_mergeAdjacent]

/-- Whether the byte at an offset lies in a span. -/
def Covers (s : Span) (offset : Nat) : Prop := s.start ≤ offset ∧ offset < s.stop

/-- Whether a byte lies in a span of a style. -/
def Paints (spans : List Span) (offset : Nat) (style : Option Style) : Prop :=
  ∃ s ∈ spans, s.Covers offset ∧ s.style = style

theorem paints_cons_iff {s : Span} {rest : List Span} {offset : Nat} {style : Option Style} :
    Paints (s :: rest) offset style ↔
      s.Covers offset ∧ s.style = style ∨ Paints rest offset style := by
  simp [Paints]

/-- Whether two lists of spans have the same bytes in them, each in the same style. -/
def PaintAlike (spans others : List Span) : Prop :=
  ∀ offset style, Paints spans offset style ↔ Paints others offset style

/-- Spans that are not empty, one behind the other. -/
structure InOrder (spans : List Span) : Prop where
  proper : ∀ s ∈ spans, s.start < s.stop
  apart : spans.Pairwise fun s t => s.stop ≤ t.start

theorem inOrder_cons_iff {s : Span} {rest : List Span} :
    InOrder (s :: rest) ↔
      s.start < s.stop ∧ (∀ t ∈ rest, s.stop ≤ t.start) ∧ InOrder rest := by
  constructor
  · rintro ⟨hproper, hapart⟩
    obtain ⟨hs, hrest⟩ := List.forall_mem_cons.mp hproper
    obtain ⟨hbehind, hlater⟩ := List.pairwise_cons.mp hapart
    exact ⟨hs, hbehind, hrest, hlater⟩
  · rintro ⟨hs, hbehind, hrest, hlater⟩
    exact ⟨List.forall_mem_cons.mpr ⟨hs, hrest⟩, List.pairwise_cons.mpr ⟨hbehind, hlater⟩⟩

/-- A merged span begins where one of the spans does. -/
theorem exists_start_of_mem_mergeFrom {last s : Span} {spans : List Span}
    (h : s ∈ mergeFrom last spans) : ∃ t ∈ last :: spans, s.start = t.start := by
  induction spans generalizing last with
  | nil => exact ⟨s, h, rfl⟩
  | cons next rest ih =>
    by_cases hjoin : last.continues next = true
    · rw [mergeFrom_cons_of_continues hjoin] at h
      obtain ⟨t, ht, hstart⟩ := ih h
      rcases List.mem_cons.mp ht with rfl | ht
      · exact ⟨last, List.mem_cons_self, hstart⟩
      · exact ⟨t, List.mem_cons_of_mem _ (List.mem_cons_of_mem _ ht), hstart⟩
    · rw [mergeFrom_cons_of_not_continues hjoin] at h
      rcases List.mem_cons.mp h with rfl | h
      · exact ⟨s, List.mem_cons_self, rfl⟩
      · obtain ⟨t, ht, hstart⟩ := ih h
        exact ⟨t, List.mem_cons_of_mem _ ht, hstart⟩

/-- Two spans in order that touch may be joined where the later ones are in order. -/
theorem InOrder.join {last next : Span} {rest : List Span} (h : InOrder (last :: next :: rest))
    (htouch : last.stop = next.start) : InOrder ({ last with stop := next.stop } :: rest) := by
  obtain ⟨hlast, -, hnext⟩ := inOrder_cons_iff.mp h
  obtain ⟨hproper, hbehind, hrest⟩ := inOrder_cons_iff.mp hnext
  refine inOrder_cons_iff.mpr ⟨?_, hbehind, hrest⟩
  show last.start < next.stop
  omega

theorem InOrder.mergeFrom {last : Span} {spans : List Span} (h : InOrder (last :: spans)) :
    InOrder (mergeFrom last spans) := by
  induction spans generalizing last with
  | nil => exact h
  | cons next rest ih =>
    by_cases hjoin : last.continues next = true
    · rw [mergeFrom_cons_of_continues hjoin]
      exact ih (h.join (continues_iff.mp hjoin).1)
    · rw [mergeFrom_cons_of_not_continues hjoin]
      obtain ⟨hproper, hbehind, hlater⟩ := inOrder_cons_iff.mp h
      refine inOrder_cons_iff.mpr ⟨hproper, fun s hs => ?_, ih hlater⟩
      obtain ⟨t, ht, hstart⟩ := exists_start_of_mem_mergeFrom hs
      rw [hstart]
      exact hbehind t ht

theorem paints_mergeFrom_iff {last : Span} {spans : List Span} (h : InOrder (last :: spans))
    {offset : Nat} {style : Option Style} :
    Paints (mergeFrom last spans) offset style ↔ Paints (last :: spans) offset style := by
  induction spans generalizing last with
  | nil => rfl
  | cons next rest ih =>
    by_cases hjoin : last.continues next = true
    · obtain ⟨htouch, hstyle⟩ := continues_iff.mp hjoin
      obtain ⟨hlast, -, hnext⟩ := inOrder_cons_iff.mp h
      have hproper := (inOrder_cons_iff.mp hnext).1
      have hcovers : ({ last with stop := next.stop } : Span).Covers offset ↔
          last.Covers offset ∨ next.Covers offset := by
        simp only [Covers]
        omega
      rw [mergeFrom_cons_of_continues hjoin, ih (h.join htouch), paints_cons_iff, paints_cons_iff,
        paints_cons_iff, hcovers, ← hstyle, or_and_right, or_assoc]
    · rw [mergeFrom_cons_of_not_continues hjoin, paints_cons_iff, paints_cons_iff,
        ih (inOrder_cons_iff.mp h).2.2]

theorem InOrder.mergeAdjacent {spans : List Span} (h : InOrder spans) :
    InOrder (mergeAdjacent spans) := by
  cases spans with
  | nil => exact h
  | cons first rest => exact h.mergeFrom

theorem paintAlike_mergeAdjacent {spans : List Span} (h : InOrder spans) :
    PaintAlike (mergeAdjacent spans) spans := by
  intro offset style
  cases spans with
  | nil => rfl
  | cons first rest => exact paints_mergeFrom_iff h

/-- The paint of a merged span ends with it. -/
theorem not_paints_stop {spans : List Span} (h : InOrder spans) (hmerged : IsMerged spans)
    {s : Span} (hs : s ∈ spans) : ¬ Paints spans s.stop s.style := by
  rintro ⟨t, ht, ⟨hbegun, hended⟩, hstyle⟩
  induction spans with
  | nil => exact absurd hs List.not_mem_nil
  | cons first rest ih =>
    obtain ⟨hproper, hbehind, hrest⟩ := inOrder_cons_iff.mp h
    rcases List.mem_cons.mp hs with rfl | hlater
    · rcases List.mem_cons.mp ht with rfl | ht
      · omega
      · have hstart : t.start = s.stop := Nat.le_antisymm hbegun (hbehind t ht)
        -- A span that begins where the first one ends is its neighbour.
        cases rest with
        | nil => exact absurd ht List.not_mem_nil
        | cons second rest =>
          obtain ⟨hapart, -⟩ := List.isChain_cons_cons.mp hmerged
          obtain ⟨hsecond, hthird, -⟩ := inOrder_cons_iff.mp hrest
          rcases List.mem_cons.mp ht with rfl | ht
          · exact hapart ⟨hstart.symm, hstyle.symm⟩
          · have hnext := hbehind second List.mem_cons_self
            have hbetween := hthird t ht
            omega
    · rcases List.mem_cons.mp ht with rfl | ht
      · have hnext := hbehind s hlater
        have hpos := hrest.proper s hlater
        omega
      · exact ih hrest (List.isChain_cons.mp hmerged).2 hlater ht

/-- No list of spans that paints the same bytes is shorter than a merged one in order. -/
theorem length_le_of_paintAlike {spans others : List Span} (h : InOrder spans)
    (hmerged : IsMerged spans) (halike : PaintAlike others spans) :
    spans.length ≤ others.length := by
  have hexists : ∀ s : Span, ∃ t, s ∈ spans → t ∈ others ∧ t.Covers s.start ∧ t.style = s.style := by
    intro s
    by_cases hs : s ∈ spans
    · have hpaints : Paints spans s.start s.style :=
        ⟨s, hs, ⟨Nat.le_refl _, h.proper s hs⟩, rfl⟩
      obtain ⟨t, ht, hcovers, hstyle⟩ := (halike s.start s.style).mpr hpaints
      exact ⟨t, fun _ => ⟨ht, hcovers, hstyle⟩⟩
    · exact ⟨s, fun hmem => absurd hmem hs⟩
  choose f hf using hexists
  have hnodup : (spans.map f).Nodup := by
    refine List.pairwise_map.mpr (h.apart.imp_of_mem fun {s t} hs ht hle hsame => ?_)
    obtain ⟨hmem, ⟨hbegun, -⟩, hstyle⟩ := hf s hs
    obtain ⟨-, ⟨-, hended⟩, -⟩ := hf t ht
    rw [← hsame] at hended
    -- A span for both would paint the byte behind the first of them.
    have hproper := h.proper s hs
    have hcovers : (f s).Covers s.stop := ⟨by omega, by omega⟩
    exact not_paints_stop h hmerged hs ((halike _ _).mp ⟨f s, hmem, hcovers, hstyle⟩)
  have hsubset : spans.map f ⊆ others := by
    intro t ht
    obtain ⟨s, hs, rfl⟩ := List.mem_map.mp ht
    exact (hf s hs).1
  have hlength := (List.subperm_of_subset hnodup hsubset).length_le
  rwa [List.length_map] at hlength

end Span

theorem State.inOrder_spans (st : State) (line : Text) :
    Span.InOrder ((st.fragments line).map Fragment.span) := by
  have htiles := st.fragments_tiles line
  refine ⟨fun s hs => ?_, List.pairwise_map.mpr (Fragment.pairwise_of_tiles htiles)⟩
  obtain ⟨f, hf, rfl⟩ := List.mem_map.mp hs
  exact (Fragment.bounds_of_tiles htiles f hf).2.1

namespace Span

/-- Merging gives a normal form.  Of any spans, with ranges that may be empty or reversed or
overlap, no two merged neighbours touch and have the same style; merging again changes nothing;
and parts of a list may be merged beforehand.  Of the spans of a line, the merged ones are not
empty, one is behind the other, and they paint the same bytes in the same styles, for which no
list has fewer spans. -/
theorem merged_normal_form :
    (∀ spans : List Span, (mergeAdjacent spans).IsChain fun s t =>
      ¬ (s.stop = t.start ∧ s.style = t.style)) ∧
    (∀ spans : List Span, mergeAdjacent (mergeAdjacent spans) = mergeAdjacent spans) ∧
    (∀ spans more : List Span,
      mergeAdjacent (spans ++ more) = mergeAdjacent (mergeAdjacent spans ++ mergeAdjacent more)) ∧
    ∀ (st : State) (line : Text),
      InOrder (mergeAdjacent ((st.fragments line).map Fragment.span)) ∧
      PaintAlike (mergeAdjacent ((st.fragments line).map Fragment.span))
        ((st.fragments line).map Fragment.span) ∧
      ∀ others : List Span, PaintAlike others ((st.fragments line).map Fragment.span) →
        (mergeAdjacent ((st.fragments line).map Fragment.span)).length ≤ others.length := by
  refine ⟨isMerged_mergeAdjacent, mergeAdjacent_mergeAdjacent,
    mergeAdjacent_append_mergeAdjacent, fun st line => ?_⟩
  have horder := st.inOrder_spans line
  have hpaint := paintAlike_mergeAdjacent horder
  refine ⟨horder.mergeAdjacent, hpaint, fun others hothers => ?_⟩
  refine length_le_of_paintAlike horder.mergeAdjacent (isMerged_mergeAdjacent _) ?_
  exact fun offset style => (hothers offset style).trans (hpaint offset style).symm

/-- Reversed and empty ranges are joined like any others. -/
example : mergeAdjacent [⟨3, 1, none⟩, ⟨1, 1, none⟩, ⟨1, 4, none⟩, ⟨2, 4, none⟩] =
    [⟨3, 4, none⟩, ⟨2, 4, none⟩] := by decide

end Span
end Highlighter
