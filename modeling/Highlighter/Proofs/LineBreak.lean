/-
A line break is as good as a space.

A line and the one behind it, read as a single line with a space between them, end in the
same state and look the same (`State.Joins`).  The proof reads on to the break with both: a
token is found in front of the space as it is found at the end of the line, or the rest is
white space, or a comment or a string is opened there and takes the space along
(`State.read_space_cases`).  At the break no scanner is at work, which skips the space, or a
comment or a string is, of which the space is a character.  A URI is the one scanner that a
space ends and a line break does not.
-/
import Highlighter.Proofs.Coverage
import Highlighter.Proofs.Read
import Highlighter.Proofs.Stop

namespace Highlighter

def Reading.behind (r : Reading) (gap : Text) : Reading := { r with token := r.token.behind gap }

def Reading.extend (r : Reading) (more : Text) : Reading := { r with rest := r.rest ++ more }

namespace State

section GaveUp

variable {st : State} {s : Text} (hs : s ≠ []) (h : ∀ sc ∈ st.suspended, sc.step s = none)

include hs h

theorem run_of_gaveUp : st.run s = st.idle.run s := by
  rw [st.run_of_ne_nil hs, st.idle.run_of_ne_nil hs, read_of_gaveUp h]

theorem afterLine_of_gaveUp : st.afterLine s = st.idle.afterLine s := by
  rw [st.afterLine_of_ne_nil hs, st.idle.afterLine_of_ne_nil hs, read_of_gaveUp h]

theorem coverage_of_gaveUp : st.coverage s = st.idle.coverage s := by
  rw [coverage, run_of_gaveUp hs h, coverage]

end GaveUp

section Idle

variable {st : State} (h : st.suspended = []) {gap : Text}
  (hgap : gap.all Unicode.isWhiteSpace = true)

include h hgap

theorem read_blank : st.read gap = ⟨⟨[], gap, none, .blank⟩, [], st⟩ := by
  obtain ⟨suspended, mode, memory⟩ := st
  obtain rfl : suspended = [] := h
  rcases mode.cut_cases gap with ⟨-, hblank⟩ | ⟨front, c, rest, rfl, -, hc, -⟩
  · rw [read, cut, hblank]
    rfl
  · simp [hc] at hgap

theorem blank_line : st.afterLine gap = st ∧
    st.coverage gap = List.replicate (Text.byteLength gap) none := by
  by_cases hnil : gap = []
  · rw [hnil]
    exact ⟨st.afterLine_nil, st.coverage_nil⟩
  · rw [st.afterLine_of_ne_nil hnil, st.coverage_of_ne_nil hnil, read_blank h hgap, coverage_nil,
      afterLine_nil]
    simp [Token.coverage, Token.isBlank, hgap]

/-- White space at the beginning of a line is skipped. -/
theorem skip (s : Text) : st.afterLine (gap ++ s) = st.afterLine s ∧
    st.coverage (gap ++ s) = List.replicate (Text.byteLength gap) none ++ st.coverage s := by
  rcases st.mode.cut_cases s with ⟨hblank, -⟩ | ⟨front, c, rest, rfl, hfront, hc, -⟩
  · have hall : (gap ++ s).all Unicode.isWhiteSpace = true := by simp [hgap, hblank]
    obtain ⟨hstate, hcoverage⟩ := blank_line h hall
    obtain ⟨hstate', hcoverage'⟩ := blank_line h hblank
    rw [hstate, hcoverage, hstate', hcoverage', Text.byteLength_append,
      List.replicate_append_replicate]
    exact ⟨rfl, rfl⟩
  · have hall : (gap ++ front).all Unicode.isWhiteSpace = true := by simp [hgap, hfront]
    have hread : st.read (gap ++ (front ++ c :: rest)) =
        (st.read (front ++ c :: rest)).behind gap := by
      rw [← List.append_assoc, read, read, h, cut, cut, st.mode.cut_of_gap hall hc,
        st.mode.cut_of_gap hfront hc]
      rfl
    have hne : front ++ c :: rest ≠ [] := by simp
    have hne' : gap ++ (front ++ c :: rest) ≠ [] := by simp
    rw [st.afterLine_of_ne_nil hne, st.afterLine_of_ne_nil hne', st.coverage_of_ne_nil hne,
      st.coverage_of_ne_nil hne', hread]
    refine ⟨rfl, ?_⟩
    rw [← List.append_assoc, ← Token.coverage_behind]
    rfl

end Idle

/-- Whether a line and the one behind it end in the state of the single line with a space
between them, and look like it. -/
structure Joins (st : State) (a b : Text) : Prop where
  state : (st.afterLine a).afterLine b = st.afterLine (a ++ ' ' :: b)
  coverage : ∃ space, st.coverage (a ++ ' ' :: b) =
    st.coverage a ++ space :: (st.afterLine a).coverage b

theorem read_of_opening {st : State} {e : Enclosure} {s gap text rest : Text}
    (h : cut st.mode st.suspended s = ⟨.rule e.action, gap, text, rest, [e.scanner], st.mode⟩) :
    st.read s = ⟨⟨gap, text, some e.style, .rule e.action⟩, rest, e.inside st.mode⟩ := by
  rw [read, h]
  cases e <;> rfl

/-- How a token in front of a space differs from the same token at the end of a line: not
at all, or it is white space, which goes on, or it has opened a comment or a string, whose
first character is the space. -/
theorem read_space_cases {st : State} {s : Text} (hs : s ≠ [])
    (hline : (st.read s).token.origin ≠ .rule .lineComment) (more : Text) :
    st.read (s ++ ' ' :: more) = (st.read s).extend (' ' :: more) ∨
      ((∀ sc ∈ st.suspended, sc.step s = none) ∧ s.all Unicode.isWhiteSpace = true) ∨
      ∃ e : Enclosure, ∃ gap taken,
        st.read s = ⟨⟨gap, taken, some e.style, .rule e.action⟩, [], e.inside st.mode⟩ ∧
        st.read (s ++ ' ' :: more) =
          ⟨⟨gap, taken ++ [' '], some e.style, .rule e.action⟩, more, e.inside st.mode⟩ := by
  have hextend : ((∀ sc ∈ st.suspended, sc.step s = none) →
      st.mode.cut (s ++ ' ' :: more) = (st.mode.cut s).extend (' ' :: more)) →
        st.read (s ++ ' ' :: more) = (st.read s).extend (' ' :: more) := by
    intro hcut
    rw [read, read, Cut.cut_space st.mode hs more hcut]
    rfl
  by_cases hgave : ∀ sc ∈ st.suspended, sc.step s = none
  · rcases st.mode.cut_cases s with ⟨hblank, -⟩ | ⟨gap, c, rest, rfl, hgap, hc, hfound⟩
    · exact Or.inr (Or.inl ⟨hgave, hblank⟩)
    · have hspace := st.mode.cut_space hgap hc (s := rest) more
      have haction : (st.mode.find c rest).action ≠ .lineComment := by
        intro haction
        rw [read, Cut.cut_of_gaveUp st.mode hgave, hfound] at hline
        exact hline (congrArg Origin.rule haction)
      rcases Finding.toCut_space_cases haction (fun e => e.belongsTo_of_find) gap more with
        hsame | ⟨e, hcut, hcut'⟩
      · refine Or.inl (hextend fun _ => ?_)
        rw [hspace, hfound, hsame]
      · refine Or.inr (Or.inr ⟨e, gap, (st.mode.find c rest).taken, ?_, ?_⟩)
        · apply read_of_opening
          rw [Cut.cut_of_gaveUp st.mode hgave, hfound, hcut]
        · apply read_of_opening
          rw [Cut.cut_of_gaveUp st.mode (Scanner.gaveUp_space hs hgave more), hspace, hcut']
  · exact Or.inl (hextend fun h => absurd h hgave)

theorem Joins.of_extend {st : State} {a b : Text} (ha : a ≠ [])
    (hread : st.read (a ++ ' ' :: b) = (st.read a).extend (' ' :: b))
    (h : (st.read a).state.Joins (st.read a).rest b) : st.Joins a b := by
  have hne : a ++ ' ' :: b ≠ [] := by simp
  obtain ⟨space, hspace⟩ := h.coverage
  refine ⟨?_, space, ?_⟩
  · rw [st.afterLine_of_ne_nil ha, st.afterLine_of_ne_nil hne, hread]
    exact h.state
  · rw [st.afterLine_of_ne_nil ha, st.coverage_of_ne_nil ha, st.coverage_of_ne_nil hne, hread,
      List.append_assoc, ← hspace]
    rfl

/-- White space at the end of a line goes on behind the break. -/
theorem Joins.of_blank {st : State} {a : Text} (ha : a ≠ [])
    (hgave : ∀ sc ∈ st.suspended, sc.step a = none) (hall : a.all Unicode.isWhiteSpace = true)
    (b : Text) : st.Joins a b := by
  have hgave' := Scanner.gaveUp_space ha hgave b
  have hne : a ++ ' ' :: b ≠ [] := by simp
  have hspace : (a ++ [' ']).all Unicode.isWhiteSpace = true := by
    rw [List.all_append, hall]
    rfl
  have hidle : st.idle.suspended = [] := rfl
  obtain ⟨hstate, hcoverage⟩ := blank_line hidle hall
  obtain ⟨hstate', hcoverage'⟩ := skip hidle hspace b
  rw [List.append_assoc, List.singleton_append] at hstate' hcoverage'
  refine ⟨?_, none, ?_⟩
  · rw [afterLine_of_gaveUp ha hgave, afterLine_of_gaveUp hne hgave', hstate, hstate']
  · rw [afterLine_of_gaveUp ha hgave, coverage_of_gaveUp ha hgave, coverage_of_gaveUp hne hgave',
      hstate, hcoverage, hcoverage', Text.byteLength_append, ← List.replicate_append_replicate,
      List.append_assoc]
    rfl

theorem Joins.of_opening {st : State} {a b gap taken : Text} {e : Enclosure} (ha : a ≠ [])
    (hread : st.read a = ⟨⟨gap, taken, some e.style, .rule e.action⟩, [], e.inside st.mode⟩)
    (hread' : st.read (a ++ ' ' :: b) =
      ⟨⟨gap, taken ++ [' '], some e.style, .rule e.action⟩, b, e.inside st.mode⟩) :
    st.Joins a b := by
  have hne : a ++ ' ' :: b ≠ [] := by simp
  refine ⟨?_, some (some e.style), ?_⟩
  · rw [st.afterLine_of_ne_nil ha, st.afterLine_of_ne_nil hne, hread, hread', afterLine_nil]
  · rw [st.afterLine_of_ne_nil ha, st.coverage_of_ne_nil ha, st.coverage_of_ne_nil hne, hread,
      hread', afterLine_nil, coverage_nil, List.append_nil]
    have hbytes : Text.byteLength (taken ++ [' ']) = Text.byteLength taken + 1 :=
      Text.byteLength_append taken [' ']
    simp [Token.coverage, Token.isBlank, hbytes, List.replicate_succ']

/-- The state of a scanner that is not the one of a URI. -/
theorem Steady.eq_inside {st : State} (h : st.Steady) (huri : st.suspended.head? ≠ some .uri) :
    st.suspended = [] ∨
      ∃ e : Enclosure, e.scanner.BelongsTo st.mode ∧ st = e.inside st.mode := by
  cases h with
  | idle mode memory => exact Or.inl rfl
  | @busy sc mode style hsc hstyle =>
    cases sc with
    | comment syn =>
      rw [List.mem_singleton.mp hstyle]
      exact Or.inr ⟨.comment syn, hsc, rfl⟩
    | string quote =>
      rw [List.mem_singleton.mp hstyle]
      exact Or.inr ⟨.string quote, hsc, rfl⟩
    | uri => exact absurd rfl huri

/-- A space at the beginning of a line is skipped, or is a character of a comment or of a
string. -/
theorem joins_nil {st : State} (h : st.Steady) (huri : st.suspended.head? ≠ some .uri) (b : Text) :
    st.Joins [] b := by
  rcases h.eq_inside huri with hidle | ⟨e, hbelongs, hinside⟩
  · have hspace : [' '].all Unicode.isWhiteSpace = true := rfl
    obtain ⟨hstate, hcoverage⟩ := skip hidle hspace b
    refine ⟨?_, none, ?_⟩
    · rw [afterLine_nil]
      exact hstate.symm
    · rw [afterLine_nil, coverage_nil]
      exact hcoverage
  · have hread := e.read_cons st.mode (e.not_closing_isPrefix_space hbelongs b)
    rw [← hinside] at hread
    have hne : ' ' :: b ≠ [] := List.cons_ne_nil _ _
    refine ⟨?_, some (some e.style), ?_⟩
    · rw [afterLine_nil, List.nil_append, st.afterLine_of_ne_nil hne, hread]
    · rw [afterLine_nil, coverage_nil, List.nil_append, List.nil_append,
        st.coverage_of_ne_nil hne, hread]
      rfl

theorem joins {st : State} (h : st.Steady) {a : Text}
    (hline : ∀ r ∈ st.run a, r.token.origin ≠ .rule .lineComment)
    (huri : (st.afterLine a).suspended.head? ≠ some .uri) (b : Text) : st.Joins a b := by
  -- Along the run of the first line: what is open at its end is known only there, so that
  -- the condition on it is carried to the end of the run.
  fun_induction run st a with
  | case1 st =>
    rw [afterLine_nil] at huri
    exact joins_nil h huri b
  | case2 st a hne _ ih =>
    rw [st.afterLine_of_ne_nil hne] at huri
    have hlater := ih (read_steady h a) (fun r hr => hline r (List.mem_cons_of_mem _ hr)) huri
    have hhere := hline (st.read a) List.mem_cons_self
    rcases read_space_cases hne hhere b with
      hread | ⟨hgave, hall⟩ | ⟨e, gap, taken, hread, hread'⟩
    · exact .of_extend hne hread hlater
    · exact .of_blank hne hgave hall b
    · exact .of_opening hne hread hread'

/-- A line break is as good as a space.  A line in which no comment goes on to its end and
at whose end no URI is open can be put in front of the next one, with a space between them:
the state at the end is the same, every byte of the two lines lies in a fragment of the
same style, and what lies in no fragment lies in none. -/
theorem line_break_is_space {st : State} (h : st.Reachable) {a : Text}
    (hline : ∀ r ∈ st.run a, r.token.origin ≠ .rule .lineComment)
    (huri : (st.afterLine a).suspended.head? ≠ some .uri) (b : Text) :
    (st.afterLine a).afterLine b = st.afterLine (a ++ ' ' :: b) ∧
      (∀ n < Text.byteLength a, ∀ style,
        Fragment.StyledAt (st.fragments a) n style ↔
          Fragment.StyledAt (st.fragments (a ++ ' ' :: b)) n style) ∧
      ∀ n < Text.byteLength b, ∀ style,
        Fragment.StyledAt ((st.afterLine a).fragments b) n style ↔
          Fragment.StyledAt (st.fragments (a ++ ' ' :: b)) (Text.byteLength a + 1 + n) style := by
  obtain ⟨hstate, space, hcoverage⟩ := joins h.steady hline huri b
  have hlength := st.length_coverage a
  refine ⟨hstate, fun n hn style => ?_, fun n hn style => ?_⟩
  · rw [styledAt_iff, styledAt_iff, hcoverage, List.getElem?_append_left (by omega)]
  · have hindex : Text.byteLength a + 1 + n - Text.byteLength a = n + 1 := by omega
    rw [styledAt_iff, styledAt_iff, hcoverage, List.getElem?_append_right (by omega), hlength,
      hindex, List.getElem?_cons_succ]

/-- A string that is open at the break, and closed behind it. -/
theorem line_break_is_space_open_string :
    let a : Text := ['\'']
    let b : Text := "x' q".toList
    (start.afterLine a).suspended = [.string '\''] ∧
      (start.afterLine a).afterLine b = start.afterLine (a ++ ' ' :: b) ∧
      (∀ n < Text.byteLength a, ∀ style,
        Fragment.StyledAt (start.fragments a) n style ↔
          Fragment.StyledAt (start.fragments (a ++ ' ' :: b)) n style) ∧
      ∀ n < Text.byteLength b, ∀ style,
        Fragment.StyledAt ((start.afterLine a).fragments b) n style ↔
          Fragment.StyledAt (start.fragments (a ++ ' ' :: b)) (Text.byteLength a + 1 + n) style := by
  intro a b
  have hne : a ≠ [] := List.cons_ne_nil _ _
  have hrest : (start.read a).rest = [] := by decide +kernel
  have hsuspended : (start.afterLine a).suspended = [.string '\''] := by
    rw [start.afterLine_of_ne_nil hne, hrest, afterLine_nil]
    decide +kernel
  have hline : ∀ r ∈ start.run a, r.token.origin ≠ .rule .lineComment := by
    rw [start.run_of_ne_nil hne, hrest, run_nil]
    intro r hr
    rw [List.mem_singleton.mp hr]
    decide +kernel
  have huri : (start.afterLine a).suspended.head? ≠ some .uri := by
    rw [hsuspended]
    decide
  exact ⟨hsuspended, line_break_is_space .start hline huri b⟩

end State
end Highlighter
