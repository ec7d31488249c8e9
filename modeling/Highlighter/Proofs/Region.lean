/-
Comments and strings over any number of lines.

An enclosure runs from its opening mark to the first closing mark behind it, on the same
line or on a later one (`Text.FirstMarkOfLines`), and to the end of the document where
there is none.  A closing mark lies within one line, and so each line can be read by
itself: a line without the mark ends inside as it began, and from the line with the
first mark on the readings are those of a state outside.
-/
import Highlighter.Proofs.Enclosure

namespace Highlighter
namespace State

/-- The readings of lines that follow one another. -/
def runLines (st : State) : List Text → List Reading
  | [] => []
  | line :: later => st.run line ++ (st.afterLine line).runLines later

theorem runLines_append (st : State) (lines more : List Text) :
    st.runLines (lines ++ more) =
      st.runLines lines ++ (lines.foldl afterLine st).runLines more := by
  induction lines generalizing st with
  | nil => rfl
  | cons line later ih =>
    rw [List.cons_append, runLines, runLines, ih, List.append_assoc]
    rfl

theorem afterReadings_append_cons (st : State) (readings : List Reading) (r : Reading)
    (later : List Reading) :
    st.afterReadings (readings ++ r :: later) = r.state.afterReadings later := by
  induction readings generalizing st with
  | nil => exact st.afterReadings_cons r later
  | cons q readings ih => rw [List.cons_append, afterReadings_cons, ih]

/-- Where the state changes in the middle of a line, the new state reads what is left of
it and the lines that follow. -/
theorem runLines_of_run {st st' : State} {line after : Text} {body : List Reading}
    {last : Reading} (hrun : st.run line = body ++ last :: st'.run after)
    (hlast : last.state = st') (later : List Text) :
    st.runLines (line :: later) = body ++ last :: st'.runLines (after :: later) := by
  have hafter : st.afterLine line = st'.afterLine after := by
    rw [afterLine, hrun, afterReadings_append_cons, hlast, afterLine]
  rw [runLines, runLines, hrun, hafter, List.append_assoc]
  rfl

end State

/-- Where the first occurrence of a mark in lines is: in no line before it, and at the
first place of its own line. -/
structure Text.FirstMarkOfLines (mark : Text) (lines before : List Text) (front after : Text)
    (later : List Text) : Prop where
  lines_eq : lines = before ++ (front ++ (mark ++ after)) :: later
  before : ∀ line ∈ before, ¬ mark <:+: line
  first : Text.FirstMark mark front after

theorem Text.exists_firstMarkOfLines {mark : Text} {lines : List Text}
    (h : ∃ line ∈ lines, mark <:+: line) :
    ∃ before front after later, Text.FirstMarkOfLines mark lines before front after later := by
  induction lines with
  | nil =>
    obtain ⟨line, hline, -⟩ := h
    exact absurd hline List.not_mem_nil
  | cons line lines ih =>
    by_cases hmark : mark <:+: line
    · obtain ⟨front, after, rfl, hfirst⟩ := Text.exists_firstMark hmark
      exact ⟨[], front, after, lines, rfl, fun _ h => absurd h List.not_mem_nil, hfirst⟩
    · have hlater : ∃ line ∈ lines, mark <:+: line := by
        obtain ⟨other, hother, hoccurs⟩ := h
        rcases List.mem_cons.mp hother with rfl | hother
        · exact absurd hoccurs hmark
        · exact ⟨other, hother, hoccurs⟩
      obtain ⟨before, front, after, later, rfl, hbefore, hfirst⟩ := ih hlater
      refine ⟨line :: before, front, after, later, rfl, fun other hother => ?_, hfirst⟩
      rcases List.mem_cons.mp hother with rfl | hother
      · exact hmark
      · exact hbefore other hother

namespace Enclosure

variable {e : Enclosure} {m : Mode} {painted more : List (Char × Option Style)}
  {readings others : List Reading} {last : Reading}

theorem Open.append (h : Open e m painted readings) (hmore : Open e m more others) :
    Open e m (painted ++ more) (readings ++ others) := by
  refine ⟨fun r hr => ?_, ?_⟩
  · rcases List.mem_append.mp hr with hr | hr
    · exact h.state r hr
    · exact hmore.state r hr
  · rw [Reading.characters_append, h.characters, hmore.characters]

theorem Open.append_closed (h : Open e m painted readings) (hmore : Closed e m more others last) :
    Closed e m (painted ++ more) (readings ++ others) last := by
  refine ⟨fun r hr => ?_, hmore.closes, ?_⟩
  · rcases List.mem_append.mp hr with hr | hr
    · exact h.state r hr
    · exact hmore.state r hr
  · rw [List.append_assoc, Reading.characters_append, h.characters, hmore.characters]

/-- Readings that leave an enclosure open lead to the state inside. -/
theorem Open.afterReadings {st : State} (h : Open e m painted readings)
    (hnil : readings = [] → st = e.inside m) : st.afterReadings readings = e.inside m := by
  rw [State.afterReadings]
  cases hlast : readings.getLast? with
  | none => exact hnil (List.getLast?_eq_none_iff.mp hlast)
  | some r => exact h.state r (List.mem_of_getLast? hlast)

theorem afterLine_open {line : Text} (h : ¬ e.closing <:+: line) :
    (e.inside m).afterLine line = e.inside m :=
  (run_open h).afterReadings fun _ => rfl

theorem runLines_open {lines : List Text} (h : ∀ line ∈ lines, ¬ e.closing <:+: line) :
    Open e m (e.paint lines.flatten) ((e.inside m).runLines lines) ∧
      lines.foldl State.afterLine (e.inside m) = e.inside m := by
  induction lines with
  | nil => exact ⟨.nil, rfl⟩
  | cons line later ih =>
    have hline := h line List.mem_cons_self
    obtain ⟨hopen, hstate⟩ := ih fun other hother => h other (List.mem_cons_of_mem _ hother)
    rw [State.runLines, List.foldl_cons, afterLine_open hline, List.flatten_cons, paint_append]
    exact ⟨(run_open hline).append hopen, hstate⟩

theorem runLines_closed {lines before later : List Text} {front after : Text}
    (h : Text.FirstMarkOfLines e.closing lines before front after later) :
    ∃ body last, (e.inside m).runLines lines =
        body ++ last :: (e.outside m).runLines (after :: later) ∧
      Closed e m (e.paint (before.flatten ++ (front ++ e.closing))) body last := by
  obtain ⟨hopen, hstate⟩ := runLines_open (m := m) h.before
  obtain ⟨body, last, hrun, hclosed⟩ := run_closed (m := m) h.first
  rw [h.lines_eq, State.runLines_append, hstate, State.runLines_of_run hrun hclosed.closes,
    ← List.append_assoc, paint_append]
  exact ⟨_, last, rfl, hopen.append_closed hclosed⟩

theorem paintBehind_append (e : Enclosure) (gap s t : Text) :
    e.paintBehind gap (s ++ t) = e.paintBehind gap s ++ e.paint t := by
  simp only [paintBehind, paint_append, List.append_assoc]

end Enclosure

namespace State

section Extent

variable {e : Enclosure} {st : State} {gap rest : Text} (hmode : e.scanner.BelongsTo st.mode)
  (hgap : gap.all Unicode.isWhiteSpace = true)
  (hgave : ∀ sc ∈ st.suspended, sc.step (gap ++ (e.opening ++ rest)) = none)

include hmode hgap hgave

theorem afterLine_of_no_mark (h : ¬ e.closing <:+: rest) :
    st.afterLine (gap ++ (e.opening ++ rest)) = e.inside st.mode := by
  obtain ⟨hne, hopen⟩ := Enclosure.run_opening_open hmode hgap hgave h
  exact hopen.afterReadings fun hnil => absurd hnil hne

theorem runLines_of_first_mark {later before remaining : List Text} {front after : Text}
    (h : Text.FirstMarkOfLines e.closing (rest :: later) before front after remaining) :
    ∃ body last, st.runLines ((gap ++ (e.opening ++ rest)) :: later) =
        body ++ last :: (e.outside st.mode).runLines (after :: remaining) ∧
      e.Closed st.mode (e.paintBehind gap (before.flatten ++ (front ++ e.closing))) body last := by
  obtain ⟨hlines, hbefore, hfirst⟩ := h
  cases before with
  | nil =>
    obtain ⟨hrest, rfl⟩ := List.cons.inj hlines
    obtain ⟨body, last, hrun, hclosed⟩ :=
      Enclosure.run_opening_closed hmode hgap hgave hrest hfirst
    exact ⟨body, last, runLines_of_run hrun hclosed.closes later, hclosed⟩
  | cons line before =>
    obtain ⟨rfl, hlater⟩ := List.cons.inj hlines
    have hrest := hbefore rest List.mem_cons_self
    obtain ⟨-, hopen⟩ := Enclosure.run_opening_open hmode hgap hgave hrest
    obtain ⟨body, last, hrun, hclosed⟩ := Enclosure.runLines_closed (m := st.mode)
      ⟨hlater, fun line hline => hbefore line (List.mem_cons_of_mem _ hline), hfirst⟩
    refine ⟨st.run (gap ++ (e.opening ++ rest)) ++ body, last, ?_, ?_⟩
    · rw [runLines, afterLine_of_no_mark hmode hgap hgave hrest, hrun, List.append_assoc]
    · rw [List.flatten_cons, List.append_assoc, Enclosure.paintBehind_append]
      exact hopen.append_closed hclosed

theorem runLines_of_no_mark {later : List Text}
    (h : ∀ line ∈ rest :: later, ¬ e.closing <:+: line) :
    e.Open st.mode (e.paintBehind gap (rest :: later).flatten)
        (st.runLines ((gap ++ (e.opening ++ rest)) :: later)) ∧
      ((gap ++ (e.opening ++ rest)) :: later).foldl afterLine st = e.inside st.mode := by
  have hrest := h rest List.mem_cons_self
  obtain ⟨-, hopen⟩ := Enclosure.run_opening_open hmode hgap hgave hrest
  obtain ⟨hlater, hend⟩ := Enclosure.runLines_open (m := st.mode)
    fun line hline => h line (List.mem_cons_of_mem _ hline)
  rw [runLines, List.foldl_cons, afterLine_of_no_mark hmode hgap hgave hrest,
    List.flatten_cons, Enclosure.paintBehind_append]
  exact ⟨hopen.append hlater, hend⟩

end Extent

/-- The extent of a comment or of a string.  Where the scanners at work give up in front
of an opening mark, every character from the mark to the first closing mark behind it is
in the style of the enclosure, whichever marks and words are among them; up to the
closing mark the state is the one inside, behind it no scanner is at work, the mode is
what it was and the style is remembered, and what follows is read in that state.  Without
a closing mark all that is left of the document is inside.  An empty line leaves every
state as it is. -/
theorem enclosure_extent {e : Enclosure} {st : State} (hmode : e.scanner.BelongsTo st.mode)
    {gap rest : Text} (hgap : gap.all Unicode.isWhiteSpace = true)
    (hgave : ∀ sc ∈ st.suspended, sc.step (gap ++ (e.opening ++ rest)) = none)
    (later : List Text) :
    (∀ before front after remaining,
      Text.FirstMarkOfLines e.closing (rest :: later) before front after remaining →
      ∃ body last, st.runLines ((gap ++ (e.opening ++ rest)) :: later) =
          body ++ last :: (e.outside st.mode).runLines (after :: remaining) ∧
        e.Closed st.mode (e.paintBehind gap (before.flatten ++ (front ++ e.closing)))
          body last) ∧
    ((∃ line ∈ rest :: later, e.closing <:+: line) → ∃ before front after remaining,
      Text.FirstMarkOfLines e.closing (rest :: later) before front after remaining) ∧
    ((∀ line ∈ rest :: later, ¬ e.closing <:+: line) →
      e.Open st.mode (e.paintBehind gap (rest :: later).flatten)
          (st.runLines ((gap ++ (e.opening ++ rest)) :: later)) ∧
        ((gap ++ (e.opening ++ rest)) :: later).foldl afterLine st = e.inside st.mode) ∧
    ∀ any : State, any.run [] = [] ∧ any.afterLine [] = any :=
  ⟨fun _ _ _ _ h => runLines_of_first_mark hmode hgap hgave h, Text.exists_firstMarkOfLines,
    runLines_of_no_mark hmode hgap hgave, fun any => ⟨any.run_nil, any.afterLine_nil⟩⟩

/-- A comment with a second opening mark and a definer in it, whose closing mark is not
the one divided by the end of a line, and a string behind a URI that stays open. -/
theorem enclosure_extent_comment :
    let begun : State := ⟨[], .within .grammar, some (.word "concrete".toList)⟩
    let e : Enclosure := .comment .grammar
    let reference : State := ⟨[.uri], .within .theory, some (.style .variable2)⟩
    let q : Enclosure := .string '"'
    (∃ body last,
      begun.runLines ((" ".toList ++ (e.opening ++ " \x7b- '*/ -".toList)) ::
          [[], "\x7d concrete --\x7d x".toList]) =
        body ++ last :: (e.outside begun.mode).runLines [" x".toList] ∧
      e.Closed begun.mode (e.paintBehind " ".toList
        (" \x7b- '*/ -".toList ++ ("\x7d concrete -".toList ++ e.closing))) body last) ∧
    q.Open reference.mode (q.paintBehind [] ("a\\".toList ++ ("theory".toList ++ [])))
      (reference.runLines (([] ++ (q.opening ++ "a\\".toList)) :: ["theory".toList])) := by
  intro begun e reference q
  have hfirst : Text.FirstMarkOfLines e.closing
      [" \x7b- '*/ -".toList, [], "\x7d concrete --\x7d x".toList]
      [" \x7b- '*/ -".toList, []] "\x7d concrete -".toList " x".toList [] :=
    ⟨by decide +kernel, by decide +kernel, by decide +kernel⟩
  have hidle : ∀ sc ∈ begun.suspended,
      sc.step (" ".toList ++ (e.opening ++ " \x7b- '*/ -".toList)) = none :=
    fun sc hsc => absurd hsc List.not_mem_nil
  have hgap : " ".toList.all Unicode.isWhiteSpace = true := by decide +kernel
  have hmode : e.scanner.BelongsTo begun.mode := rfl
  have hcomment := enclosure_extent hmode hgap hidle [[], "\x7d concrete --\x7d x".toList]
  have hquote : q.scanner.BelongsTo reference.mode := Or.inl rfl
  have hgave : ∀ sc ∈ reference.suspended, sc.step ([] ++ (q.opening ++ "a\\".toList)) = none := by
    intro sc hsc
    rw [List.mem_singleton.mp hsc]
    decide +kernel
  have hstring := enclosure_extent hquote rfl hgave ["theory".toList]
  have hnone : ∀ line ∈ ["a\\".toList, "theory".toList], ¬ q.closing <:+: line := by
    decide +kernel
  exact ⟨hcomment.1 _ _ _ _ hfirst, (hstring.2.2.1 hnone).1⟩

end State
end Highlighter
