/-
Line ends do not matter.

The lines of a text do not tell how they were ended.  A carriage return in front of a line feed
belongs to the line end, so that a text in which every line feed gets one has the same lines,
unless one stood there before: that one would now be left in its line
(`Text.lines_withReturns`).  The last line is the same whether a line feed ends it or the text
does, except that a carriage return at its end is dropped with the line feed only
(`Text.lines_concat_newline`).  All that is reported of a document is made of its lines
(`ReportedAlike.of_lines`).
-/
import Highlighter.Command

namespace Highlighter
namespace Text

/-- The text with a carriage return put in front of every line feed. -/
def withReturns (s : Text) : Text :=
  s.flatMap fun c => if c = '\n' then ['\r', '\n'] else [c]

theorem withReturns_newline (rest : Text) :
    withReturns ('\n' :: rest) = '\r' :: '\n' :: withReturns rest := rfl

theorem withReturns_cons {c : Char} (h : c ≠ '\n') (rest : Text) :
    withReturns (c :: rest) = c :: withReturns rest := by
  rw [withReturns, List.flatMap_cons, if_neg h]
  rfl

theorem closedLine_of_head? {before : Text} (h : before.head? ≠ some '\r') :
    closedLine before = before.reverse := by
  unfold closedLine
  split
  · exact absurd rfl h
  · rfl

theorem linesFrom_withReturns {before s : Text} (h : ¬ ['\r', '\n'] <:+: before.reverse ++ s) :
    linesFrom before s.withReturns = linesFrom before s := by
  induction s generalizing before with
  | nil => rfl
  | cons c rest ih =>
    by_cases hc : c = '\n'
    · subst hc
      have hbefore : before.head? ≠ some '\r' := by
        intro hhead
        obtain ⟨others, rfl⟩ := List.head?_eq_some_iff.mp hhead
        exact h ⟨others.reverse, rest, by simp⟩
      have hrest : ¬ ['\r', '\n'] <:+: [].reverse ++ rest := fun hmark =>
        h (hmark.trans ⟨before.reverse ++ ['\n'], [], by simp⟩)
      have hreturn : '\r' ≠ '\n' := by decide
      -- The new carriage return is the one that is dropped, and no other one was.
      rw [withReturns_newline, linesFrom, if_neg hreturn, linesFrom, if_pos rfl, linesFrom,
        if_pos rfl, ih hrest, closedLine_of_head? hbefore]
      rfl
    · rw [withReturns_cons hc, linesFrom, if_neg hc, linesFrom, if_neg hc]
      apply ih
      rwa [List.reverse_cons, List.append_assoc]

theorem lines_withReturns {s : Text} (h : ¬ ['\r', '\n'] <:+: s) :
    lines s.withReturns = lines s :=
  linesFrom_withReturns h

theorem linesFrom_concat_newline {before s : Text} {c : Char}
    (h : (before.reverse ++ s).getLast? = some c) (hfeed : c ≠ '\n') (hreturn : c ≠ '\r') :
    linesFrom before (s ++ ['\n']) = linesFrom before s := by
  induction s generalizing before with
  | nil =>
    rw [List.append_nil, List.getLast?_reverse] at h
    have hbefore : before.head? ≠ some '\r' := by
      rw [h]
      exact fun heq => hreturn (Option.some.inj heq)
    obtain ⟨others, rfl⟩ := List.head?_eq_some_iff.mp h
    show closedLine (c :: others) :: linesFrom [] [] = [(c :: others).reverse]
    rw [closedLine_of_head? hbefore]
    rfl
  | cons d rest ih =>
    rw [List.cons_append, linesFrom, linesFrom]
    by_cases hd : d = '\n'
    · rw [if_pos hd, if_pos hd]
      cases rest with
      | nil =>
        -- The text would end with the line feed.
        rw [List.getLast?_concat] at h
        exact absurd ((Option.some.inj h).symm.trans hd) hfeed
      | cons e rest =>
        have hlast : ([].reverse ++ e :: rest).getLast? = some c := by
          simpa [List.getLast?_append, List.getLast?_cons_cons] using h
        rw [ih hlast]
    · rw [if_neg hd, if_neg hd]
      apply ih
      rwa [List.reverse_cons, List.append_assoc]

theorem lines_concat_newline {s : Text} {c : Char} (h : s.getLast? = some c) (hfeed : c ≠ '\n')
    (hreturn : c ≠ '\r') : lines (s ++ ['\n']) = lines s :=
  linesFrom_concat_newline h hfeed hreturn

end Text

/-- Whether the same is reported of two documents: the spans of their lines, also when they
are merged, their markup, and what the commands make of their bytes. -/
structure ReportedAlike (s t : Text) : Prop where
  spans : (highlight s).map HighlightedLine.spans = (highlight t).map HighlightedLine.spans
  merged : (highlight s).map (fun l => Span.mergeAdjacent l.spans) =
    (highlight t).map fun l => Span.mergeAdjacent l.spans
  markup : Markup.render (Markup.document s) = Markup.render (Markup.document t)
  listing : Command.listing (Text.encode s) = Command.listing (Text.encode t)
  page : ∀ arguments,
    Command.page arguments (Text.encode s) = Command.page arguments (Text.encode t)

theorem Command.onDocument_encode (f : Text → Text) (s : Text) :
    onDocument f (Text.encode s) = .ok (f s) := by
  rw [onDocument, Text.decode?_eq_some_iff.mpr rfl]

/-- What is reported of a document is made of its lines. -/
theorem ReportedAlike.of_lines {s t : Text} (h : Text.lines s = Text.lines t) :
    ReportedAlike s t := by
  have hhighlight : highlight s = highlight t := by rw [highlight, highlight, h]
  have hdocument : Markup.document s = Markup.document t := by
    rw [Markup.document, Markup.document, hhighlight]
  refine ⟨?_, ?_, ?_, ?_, fun arguments => ?_⟩
  · rw [hhighlight]
  · rw [hhighlight]
  · rw [hdocument]
  · rw [Command.listing, Command.listing, Command.onDocument_encode, Command.onDocument_encode,
      Listing.ofDocument, Listing.ofDocument, hhighlight]
  · rw [Command.page, Command.page, Command.onDocument_encode, Command.onDocument_encode,
      Markup.page, Markup.page, hdocument]

/-- The same is reported of a document whether its lines end with a line feed or with a
carriage return and a line feed, where no carriage return stood in front of a line feed before,
and whether or not its last line is ended at all, where it ends with a character that belongs to
no line end. -/
theorem line_ends_immaterial (s : Text) :
    (¬ ['\r', '\n'] <:+: s → ReportedAlike s.withReturns s) ∧
      ((∃ c, s.getLast? = some c ∧ c ≠ '\n' ∧ c ≠ '\r') → ReportedAlike (s ++ ['\n']) s) := by
  refine ⟨fun h => .of_lines (Text.lines_withReturns h), ?_⟩
  rintro ⟨c, hlast, hfeed, hreturn⟩
  exact .of_lines (Text.lines_concat_newline hlast hfeed hreturn)

/-- A carriage return in the middle of a line stays there in either form. -/
theorem line_ends_immaterial_lone_return :
    let s : Text := ['-', '-', '\r', 'a', '\n', 'b']
    s.withReturns = ['-', '-', '\r', 'a', '\r', '\n', 'b'] ∧ ReportedAlike s.withReturns s ∧
      ReportedAlike (s ++ ['\n']) s := by
  intro s
  have hmark : ¬ ['\r', '\n'] <:+: s := by decide
  have hlast : ∃ c, s.getLast? = some c ∧ c ≠ '\n' ∧ c ≠ '\r' :=
    ⟨'b', rfl, by decide, by decide⟩
  obtain ⟨hreturns, hended⟩ := line_ends_immaterial s
  exact ⟨by decide, hreturns hmark, hended hlast⟩

end Highlighter
