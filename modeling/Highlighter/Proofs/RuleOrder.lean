/-
Which rule has found a token, and what the rules in front of it have not.

The first rule whose lexeme is found decides, so that a finding says something of all the
lexemes that the mode asks for earlier: none of them is in front of the text
(`Mode.split?_eq_none_of_mem_lexemesBefore`).  A name is found where an identifier begins, and
takes all of it (`Mode.find_of_name`); where no rule applies there is no identifier.
-/
import Highlighter.Proofs.Read
import Highlighter.Proofs.ReservedWord

namespace Highlighter
namespace Rule

theorem find?_eq_some_iff {r : Rule} {s : Text} {f : Finding} :
    r.find? s = some f ↔ f.action = r.action ∧ r.lexeme.split? s = some (f.taken, f.rest) := by
  obtain ⟨action, taken, rest⟩ := f
  rw [find?, Option.map_eq_some_iff]
  constructor
  · rintro ⟨⟨taken', rest'⟩, hsplit, hf⟩
    cases hf
    exact ⟨rfl, hsplit⟩
  · rintro ⟨rfl, hsplit⟩
    exact ⟨(taken, rest), hsplit, rfl⟩

theorem find?_eq_none_iff {r : Rule} {s : Text} :
    r.find? s = none ↔ r.lexeme.split? s = none :=
  Option.map_eq_none_iff

/-- In front of the rules with the action of the first finding nothing has been found. -/
theorem find?_eq_none_of_mem_takeWhile {rules : List Rule} {s : Text} {f : Finding}
    (h : rules.findSome? (·.find? s) = some f) :
    ∀ r ∈ rules.takeWhile (·.action != f.action), r.find? s = none := by
  induction rules with
  | nil => exact fun r hr => absurd hr List.not_mem_nil
  | cons q rules ih =>
    intro r hr
    rw [List.takeWhile_cons] at hr
    rw [List.findSome?_cons] at h
    cases hq : q.find? s with
    | some g =>
      rw [hq] at h
      obtain rfl := Option.some.inj h
      rw [(find?_eq_some_iff.mp hq).1, bne_self_eq_false] at hr
      exact absurd hr List.not_mem_nil
    | none =>
      rw [hq] at h
      split at hr
      · rcases List.mem_cons.mp hr with rfl | hr
        · exact hq
        · exact ih h r hr
      · exact absurd hr List.not_mem_nil

end Rule

namespace Mode

/-- The lexemes that a mode asks for before it comes to the rules with an action. -/
def lexemesBefore (m : Mode) (a : Action) : List Lexeme :=
  (m.rules.takeWhile (·.action != a)).map Rule.lexeme

/-- What the mode asks for earlier is not in front of what it has found. -/
theorem split?_eq_none_of_mem_lexemesBefore {m : Mode} {c : Char} {s : Text} {x : Lexeme}
    (h : x ∈ m.lexemesBefore (m.find c s).action) : x.split? (c :: s) = none := by
  obtain ⟨r, hr, rfl⟩ := List.mem_map.mp h
  refine Rule.find?_eq_none_iff.mp ?_
  cases hfound : m.rules.findSome? (·.find? (c :: s)) with
  | some f =>
    rw [find, hfound] at hr
    exact Rule.find?_eq_none_of_mem_takeWhile hfound r hr
  | none => exact List.findSome?_eq_none_iff.mp hfound r ((List.takeWhile_sublist _).subset hr)

/-- The rule for identifiers is the one that makes names. -/
theorem lexeme_eq_identifier_iff {m : Mode} {r : Rule} (hr : r ∈ m.rules) :
    r.lexeme = .identifier ↔ r.action = .name := by
  have hall : ∀ r ∈ m.rules, r.lexeme = .identifier ↔ r.action = .name := by
    cases m with
    | shell => decide
    | within language => cases language <;> decide
  exact hall r hr

theorem unruled_cases (c : Char) : unruled c = .openString c ∨ unruled c = .leave := by
  unfold unruled
  split
  · exact Or.inl rfl
  · exact Or.inr rfl

/-- A name is found where an identifier begins, and it is the whole identifier. -/
theorem find_of_name {m : Mode} {c : Char} {s : Text} (h : (m.find c s).action = .name) :
    Lexeme.isIdentifierStart c = true ∧ m.find c s =
      ⟨.name, c :: s.takeWhile Lexeme.isIdentifierPart, s.dropWhile Lexeme.isIdentifierPart⟩ := by
  rcases find_cases m c s with ⟨r, hr, hfind⟩ | ⟨-, hfind⟩
  · obtain ⟨haction, hsplit⟩ := Rule.find?_eq_some_iff.mp hfind
    rw [h] at haction
    rw [(lexeme_eq_identifier_iff hr).mpr haction.symm] at hsplit
    have hstart : Lexeme.isIdentifierStart c = true := by
      obtain ⟨d, t, htaken, hd⟩ := Pattern.head_mayBegin_of_split? hsplit
      obtain ⟨rfl, -⟩ := List.cons.inj ((htaken ▸ Lexeme.split?_append hsplit : d :: t ++ _ = _))
      simpa [Lexeme.pattern, Pattern.mayBegin, Pattern.isNullable] using hd
    rw [Lexeme.split?_identifier hstart] at hsplit
    obtain ⟨htaken, hrest⟩ := Prod.mk.inj (Option.some.inj hsplit)
    refine ⟨hstart, ?_⟩
    rw [htaken, hrest, ← h]
  · rw [hfind] at h
    rcases unruled_cases c with hunruled | hunruled
    · rw [hunruled] at h
      cases h
    · rw [hunruled] at h
      cases h

/-- Where no rule applies no identifier begins. -/
theorem isIdentifierStart_of_unruled {m : Mode} {c : Char} {s : Text}
    (h : ∀ r ∈ m.rules, r.find? (c :: s) = none) : Lexeme.isIdentifierStart c = false := by
  have hidentifier : ∃ r ∈ m.rules, r.lexeme = .identifier := by
    cases m with
    | shell => decide
    | within language => cases language <;> decide
  obtain ⟨r, hr, hlexeme⟩ := hidentifier
  refine Bool.eq_false_iff.mpr fun hstart => ?_
  have hnone := Rule.find?_eq_none_iff.mp (h r hr)
  rw [hlexeme, Lexeme.split?_identifier hstart] at hnone
  cases hnone

end Mode

namespace Action

/-- Whether a token goes on behind what the rule has found. -/
def goesOn : Action → Bool
  | lineComment | openComment _ | openString _ => true
  | paint _ | name | latch _ | openUri | leave => false

end Action

namespace Finding

/-- Most tokens are just what was found. -/
theorem extent_of_not_goesOn {f : Finding} (h : f.action.goesOn = false) :
    f.extent.1 = f.taken ∧ f.extent.2.1 = f.rest := by
  cases haction : f.action with
  | lineComment | openComment syn | openString quote =>
    rw [haction] at h
    cases h
  | _ => simp only [extent, haction, and_self]

end Finding
end Highlighter
