/-
What a cut can be.

`Mode.cut` and `cut` are opened here once, and every later proof goes by the cases
found: a cut by the rules of a mode is white space up to the end of the line or a
finding behind white space (`Mode.cut_cases`), and a cut with scanners suspended is
a step of the first scanner that does not give up, or a cut by the rules once all
of them have given up (`Cut.cut_cases`).
-/
import Highlighter.Memory
import Highlighter.Proofs.FirstCharacter

namespace Highlighter
namespace Scanner

/-- The styles that the steps of a scanner can have. -/
def styles : Scanner → List Style
  | comment _ => [.comment]
  | string _ => [.string]
  | uri => [.operator, .metadata, .variable2]

theorem step_style_mem {sc : Scanner} {s : Text} {st : Step} (h : sc.step s = some st) :
    st.style ∈ sc.styles := by
  cases sc with
  | comment syn =>
    rw [step] at h
    split at h <;> cases h <;> exact List.mem_singleton_self _
  | string quote =>
    cases h
    exact List.mem_singleton_self _
  | uri =>
    obtain ⟨⟨x, style⟩, hx, hstep⟩ := List.exists_of_findSome?_eq_some h
    obtain ⟨⟨taken, rest⟩, -, rfl⟩ := Option.map_eq_some_iff.mp hstep
    exact List.mem_map_of_mem (f := Prod.snd) hx

/-- No step of a scanner is remembered by its text. -/
theorem isWordLike_of_mem_styles {sc : Scanner} {style : Style} (h : style ∈ sc.styles) :
    style.isWordLike = false := by
  have hall : ∀ t ∈ [Style.comment, .string, .operator, .metadata, .variable2],
      t.isWordLike = false := by decide
  have hsub : sc.styles ⊆ [.comment, .string, .operator, .metadata, .variable2] := by
    cases sc <;> simp [styles]
  exact hall style (hsub h)

theorem uri_step_head {s : Text} {st : Step} (h : uri.step s = some st) :
    ∃ c t, st.taken = c :: t ∧ Unicode.isWhiteSpace c = false := by
  obtain ⟨⟨x, style⟩, hx, hstep⟩ := List.exists_of_findSome?_eq_some h
  obtain ⟨⟨taken, rest⟩, hsplit, rfl⟩ := Option.map_eq_some_iff.mp hstep
  obtain ⟨c, t, rfl, hc⟩ := Pattern.head_mayBegin_of_split? hsplit
  exact ⟨c, t, rfl, Lexeme.isWhiteSpace_of_mayBegin_uri hx hc⟩

end Scanner

namespace Finding

/-- The cut that a finding makes behind white space. -/
def toCut (f : Finding) (m : Mode) (gap : Text) : Cut :=
  ⟨.rule f.action, gap, f.extent.1, f.extent.2.1, f.extent.2.2, f.modeAfter m⟩

theorem extent_head {f : Finding} {c : Char} {s : Text} (hne : f.taken ≠ [])
    (happ : f.taken ++ f.rest = c :: s) : ∃ t, f.extent.1 = c :: t := by
  obtain ⟨d, t, htaken⟩ := List.exists_cons_of_ne_nil hne
  obtain ⟨more, hmore⟩ := f.taken_isPrefix_extent
  rw [htaken, List.cons_append] at happ hmore
  obtain ⟨rfl, -⟩ := List.cons.inj happ
  exact ⟨t ++ more, hmore.symm⟩

end Finding

namespace Mode

/-- The first rule that finds something decides. -/
theorem find_of_rules {m : Mode} {before after : List Rule} {r : Rule} {c : Char} {s : Text}
    {f : Finding} (hrules : m.rules = before ++ r :: after)
    (hbefore : ∀ q ∈ before, q.find? (c :: s) = none) (hr : r.find? (c :: s) = some f) :
    m.find c s = f := by
  rw [find, hrules, List.findSome?_append, List.findSome?_eq_none_iff.mpr hbefore,
    Option.none_or, List.findSome?_cons, hr]
  rfl

theorem cut_of_dropWhile (m : Mode) {s : Text} {c : Char} {rest : Text}
    (h : s.dropWhile Unicode.isWhiteSpace = c :: rest) :
    m.cut s = (m.find c rest).toCut m (s.takeWhile Unicode.isWhiteSpace) := by
  rw [cut, h]
  rfl

theorem cut_of_gap (m : Mode) {gap : Text} {c : Char} (hgap : gap.all Unicode.isWhiteSpace = true)
    (hc : Unicode.isWhiteSpace c = false) (rest : Text) :
    m.cut (gap ++ c :: rest) = (m.find c rest).toCut m gap := by
  have hspace : ∀ d ∈ gap, Unicode.isWhiteSpace d = true := List.all_eq_true.mp hgap
  have hdrop : (gap ++ c :: rest).dropWhile Unicode.isWhiteSpace = c :: rest := by
    rw [List.dropWhile_append_of_pos hspace, List.dropWhile_cons_of_neg (by rw [hc]; decide)]
  have htake : (gap ++ c :: rest).takeWhile Unicode.isWhiteSpace = gap := by
    rw [List.takeWhile_append_of_pos hspace, List.takeWhile_cons_of_neg (by rw [hc]; decide),
      List.append_nil]
  rw [cut_of_dropWhile m hdrop, htake]

theorem cut_cases (m : Mode) (s : Text) :
    (s.all Unicode.isWhiteSpace = true ∧ m.cut s = ⟨.blank, [], s, [], [], m⟩) ∨
      ∃ gap c rest, s = gap ++ c :: rest ∧ gap.all Unicode.isWhiteSpace = true ∧
        Unicode.isWhiteSpace c = false ∧ m.cut s = (m.find c rest).toCut m gap := by
  have happ := List.takeWhile_append_dropWhile (p := Unicode.isWhiteSpace) (l := s)
  have hgap := List.all_takeWhile (p := Unicode.isWhiteSpace) (l := s)
  cases hdrop : s.dropWhile Unicode.isWhiteSpace with
  | nil =>
    rw [hdrop, List.append_nil] at happ
    refine Or.inl ⟨by rw [← happ]; exact hgap, ?_⟩
    rw [cut, hdrop]
  | cons c rest =>
    rw [hdrop] at happ
    have hc : Unicode.isWhiteSpace c = false := by
      have hhead := List.head?_dropWhile_not Unicode.isWhiteSpace s
      rw [hdrop] at hhead
      simpa using hhead
    exact Or.inr ⟨_, c, rest, happ.symm, hgap, hc, m.cut_of_dropWhile hdrop⟩

end Mode

namespace Cut

theorem cut_cases (m : Mode) (suspended : List Scanner) (s : Text) :
    (∃ gaveUp sc around st, suspended = gaveUp ++ sc :: around ∧
        (∀ g ∈ gaveUp, g.step s = none) ∧ sc.step s = some st ∧
        cut m suspended s = ⟨.scanner sc st.style, [], st.taken, st.rest,
          if st.closes then around else sc :: around, m⟩) ∨
      ((∀ g ∈ suspended, g.step s = none) ∧ cut m suspended s = m.cut s) := by
  induction suspended with
  | nil => exact Or.inr ⟨fun g hg => absurd hg List.not_mem_nil, rfl⟩
  | cons sc around ih =>
    cases hstep : sc.step s with
    | some st =>
      refine Or.inl ⟨[], sc, around, st, rfl, fun g hg => absurd hg List.not_mem_nil, hstep, ?_⟩
      rw [cut, hstep]
    | none =>
      have hcut : cut m (sc :: around) s = cut m around s := by rw [cut, hstep]
      rcases ih with ⟨gaveUp, inner, outer, st, rfl, hnone, hsome, heq⟩ | ⟨hnone, heq⟩
      · refine Or.inl ⟨sc :: gaveUp, inner, outer, st, rfl, ?_, hsome, hcut.trans heq⟩
        intro g hg
        rcases List.mem_cons.mp hg with rfl | hg
        · exact hstep
        · exact hnone g hg
      · refine Or.inr ⟨?_, hcut.trans heq⟩
        intro g hg
        rcases List.mem_cons.mp hg with rfl | hg
        · exact hstep
        · exact hnone g hg

/-- Once all scanners have given up, the rules of the mode cut the token. -/
theorem cut_of_gaveUp (m : Mode) {suspended : List Scanner} {s : Text}
    (h : ∀ sc ∈ suspended, sc.step s = none) : cut m suspended s = m.cut s := by
  induction suspended with
  | nil => rfl
  | cons sc around ih =>
    rw [cut, h sc List.mem_cons_self]
    exact ih fun g hg => h g (List.mem_cons_of_mem _ hg)

end Cut
end Highlighter
