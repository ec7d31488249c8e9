/-
The lines of a text.

A line ends at a line feed, and a carriage return directly before that line feed
belongs to the line end as well.  What follows the last line feed is a line of its
own unless it is empty; a carriage return at its end stays, since no line feed
follows it.
-/
import Highlighter.Text.Basic

namespace Highlighter
namespace Text

/-- The line whose characters were read in reverse, less a carriage return at its end. -/
def closedLine : Text → Text
  | '\r' :: before => before.reverse
  | before => before.reverse

/-- The lines of a text, given in reverse what was read of the current one. -/
def linesFrom (before : Text) : Text → List Text
  | [] => if before.isEmpty then [] else [before.reverse]
  | c :: rest => if c = '\n' then closedLine before :: linesFrom [] rest
    else linesFrom (c :: before) rest

def lines (s : Text) : List Text := linesFrom [] s

@[simp] theorem lines_nil : lines [] = [] := rfl

theorem mem_of_mem_closedLine {before : Text} {c : Char} (h : c ∈ closedLine before) :
    c ∈ before := by
  unfold closedLine at h
  split at h
  · exact List.mem_cons_of_mem _ (List.mem_reverse.mp h)
  · exact List.mem_reverse.mp h

theorem newline_not_mem_linesFrom {before s : Text} (hb : '\n' ∉ before) :
    ∀ line ∈ linesFrom before s, '\n' ∉ line := by
  induction s generalizing before with
  | nil =>
    intro line hline
    rw [linesFrom] at hline
    split at hline
    · exact absurd hline List.not_mem_nil
    · rw [List.mem_singleton.mp hline]
      exact fun hc => hb (List.mem_reverse.mp hc)
  | cons c s ih =>
    intro line hline
    rw [linesFrom] at hline
    split at hline
    · rcases List.mem_cons.mp hline with rfl | hline
      · exact fun hc => hb (mem_of_mem_closedLine hc)
      · exact ih List.not_mem_nil line hline
    · case isFalse hc =>
      refine ih (fun hmem => ?_) line hline
      rcases List.mem_cons.mp hmem with h | h
      · exact hc h.symm
      · exact hb h

theorem newline_not_mem_lines {s : Text} : ∀ line ∈ lines s, '\n' ∉ line :=
  newline_not_mem_linesFrom List.not_mem_nil

end Text
end Highlighter
