/-
Lexicons that take the same.

A lexicon is asked for nothing but what its patterns take of a text.  So one step of a scanner,
one token, a line and a document are each read in the same way by lexicons whose patterns take
the same (`State.run_congr`, `highlight_congr`), and a pattern may be replaced by any other one
that does.
-/
import Highlighter.Document

namespace Highlighter

/-- Whether two lexicons take the same of every text for every lexeme. -/
def Lexicon.Alike (l l' : Lexicon) : Prop := ∀ x s, Lexeme.split? x s l = Lexeme.split? x s l'

variable {l l' : Lexicon}

theorem Scanner.step_congr (h : l.Alike l') (sc : Scanner) (s : Text) :
    sc.step s l = sc.step s l' := by
  cases sc with
  | comment syn => rw [step, step, h]
  | string quote => rfl
  | uri =>
    have hsplit : ∀ x, Lexeme.split? x s l = Lexeme.split? x s l' := fun x => h x s
    simp only [step, hsplit]

theorem Scanner.opened_congr (h : l.Alike l') (sc : Scanner) (s : Text) :
    sc.opened s l = sc.opened s l' := by
  rw [opened, opened, step_congr h]

theorem Mode.find_congr (h : l.Alike l') (m : Mode) (c : Char) (s : Text) :
    m.find c s l = m.find c s l' := by
  have hfind : ∀ r : Rule, r.find? (c :: s) l = r.find? (c :: s) l' := by
    intro r
    rw [Rule.find?, Rule.find?, h]
  rw [find, find, funext hfind]

theorem Finding.extent_congr (h : l.Alike l') (f : Finding) : f.extent l = f.extent l' := by
  unfold extent
  simp only [Scanner.opened_congr h]

theorem Mode.cut_congr (h : l.Alike l') (m : Mode) (s : Text) : m.cut s l = m.cut s l' := by
  unfold cut
  simp only [find_congr h, Finding.extent_congr h]

theorem cut_congr (h : l.Alike l') (m : Mode) (suspended : List Scanner) (s : Text) :
    cut m suspended s l = cut m suspended s l' := by
  induction suspended with
  | nil => exact m.cut_congr h s
  | cons sc around ih => rw [cut, cut, Scanner.step_congr h, ih]

namespace State

theorem read_congr (h : l.Alike l') (st : State) (s : Text) : st.read s l = st.read s l' := by
  rw [read, read, cut_congr h]

/-- A line is read token after token in the same way. -/
theorem run_congr (h : l.Alike l') (st : State) (line : Text) : st.run line l = st.run line l' := by
  fun_induction run st line l with
  | case1 st => rw [run_nil st l']
  | case2 st line hline _ ih => rw [run_of_ne_nil st hline l', ← read_congr h, ih]

end State

theorem highlightLines_congr (h : l.Alike l') (st : State) (lines : List Text) :
    highlightLines st lines l = highlightLines st lines l' := by
  induction lines generalizing st with
  | nil => rfl
  | cons line rest ih =>
    rw [highlightLines, highlightLines, State.fragments, State.fragments, State.afterLine,
      State.afterLine, State.run_congr h, ih]

theorem highlight_congr (h : l.Alike l') (document : Text) :
    highlight document l = highlight document l' :=
  highlightLines_congr h .start (Text.lines document)

end Highlighter
