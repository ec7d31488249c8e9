/-
Extensions that are given with a dot.

A registration looks for every extension of the new mode with the dot dropped, and compares
it with the extensions that the modes before have given, which keep theirs.  So a new mode
claims nothing of the modes before it (`Descriptor.ClaimsNothingOf`), whatever its extensions
are, and of two modes that share an extension both have given it with a dot.  A mode is found
by an extension that it has given if it has also given it without the dot
(`Registry.extensions_owned`).
-/
import Highlighter.Proofs.Registry

namespace Highlighter
namespace Text

/-- A character of which the small form is no small letter is that form itself. -/
theorem eq_of_toLower {c d : Char} (hd : d.isLower = false) (h : c.toLower = d) : c = d := by
  by_cases hupper : c.val ≥ 'A'.val ∧ c.val ≤ 'Z'.val
  · have hval : d.val = c.val + ('a'.val - 'A'.val) := by
      rw [← h]
      exact congrArg Char.val (dif_pos hupper)
    have hletter : d.val ≥ 'a'.val ∧ d.val ≤ 'z'.val := by
      rw [hval]
      grind
    have hlower : d.isLower = true :=
      Bool.and_eq_true_iff.mpr ⟨decide_eq_true hletter.1, decide_eq_true hletter.2⟩
    rw [hd] at hlower
    cases hlower
  · have hlower : c.toLower = c := dif_neg hupper
    exact hlower.symm.trans h

theorem head?_of_sameIgnoringCase {s t : Text} (h : sameIgnoringCase s t = true)
    (ht : t.head? = some '.') : s.head? = some '.' := by
  have hmap := congrArg List.head? (sameIgnoringCase_iff.mp h)
  rw [List.head?_map, List.head?_map, ht] at hmap
  obtain ⟨c, hc, hlower⟩ := Option.map_eq_some_iff.mp hmap
  have hdot : c.toLower = '.' := hlower
  rw [hc, eq_of_toLower (by decide) hdot]

end Text

namespace Descriptor

/-- Whether none of the extensions of a mode is found, with the dot dropped, among those of
another mode. -/
def ClaimsNothingOf (d other : Descriptor) : Prop :=
  ∀ e ∈ d.extensions, other.hasExtension (Registry.bareExtension e) = false

theorem hasExtension_of_mem {d : Descriptor} {e : Text} (he : e ∈ d.extensions) :
    d.hasExtension e = true :=
  hasExtension_iff.mpr ⟨e, he, Text.sameIgnoringCase_iff.mpr rfl⟩

/-- An extension that is claimed all the same has been given with a dot by both modes. -/
theorem ClaimsNothingOf.dotted {d other : Descriptor} (h : d.ClaimsNothingOf other)
    {own e : Text} (hown : own ∈ other.extensions) (he : e ∈ d.extensions)
    (hsame : Text.sameIgnoringCase own e = true) :
    own.head? = some '.' ∧ e.head? = some '.' := by
  have hdot : e.head? = some '.' := by
    refine Classical.byContradiction fun hplain => ?_
    have hfree := h e he
    rw [Registry.bareExtension_of_head? hplain, hasExtension_iff.mpr ⟨own, hown, hsame⟩] at hfree
    cases hfree
  exact ⟨Text.head?_of_sameIgnoringCase hsame hdot, hdot⟩

end Descriptor

namespace Registry

theorem claimsNothingOf_of_conflict? {r : Registry} {d : Descriptor}
    (h : r.conflict? d = none) : ∀ m ∈ r.modes, d.ClaimsNothingOf m := by
  obtain ⟨-, hnone⟩ := Option.or_eq_none_iff.mp h
  intro m hm e he
  have hlookup := Option.map_eq_none_iff.mp (List.findSome?_eq_none_iff.mp hnone e he)
  exact Bool.eq_false_iff.mpr (lookup?_eq_none_iff (k := .extension e) |>.mp hlookup m hm)

/-- Whether every mode of a registry claims nothing of those before it. -/
def Staggered (r : Registry) : Prop := r.modes.Pairwise fun m d => d.ClaimsNothingOf m

theorem attempt_staggered {r : Registry} (h : r.Staggered) (d : Descriptor) :
    ((attempt d).run.run r).2.Staggered := by
  rw [run_attempt]
  cases hregister : r.register d with
  | error c => exact h
  | ok r' =>
    obtain ⟨hnone, rfl⟩ := register_eq_ok_iff.mp hregister
    refine List.pairwise_append.mpr ⟨h, List.pairwise_singleton _ d, fun m hm other hother => ?_⟩
    rw [List.mem_singleton.mp hother]
    exact claimsNothingOf_of_conflict? hnone m hm

theorem after_staggered {r : Registry} (h : r.Staggered) (ds : List Descriptor) :
    (r.after ds).Staggered := by
  induction ds generalizing r with
  | nil => exact h
  | cons d ds ih =>
    rw [after_cons]
    exact ih (attempt_staggered h d)

/-- The modes before one that has given an extension do not have it with the dot dropped, so
that the mode is the first one if it has it so. -/
theorem byExtension?_iff_of_staggered {r : Registry} (h : r.Staggered) {m : Descriptor}
    (hm : m ∈ r.modes) {e : Text} (he : e ∈ m.extensions) :
    r.byExtension? e = some m ↔ m.hasExtension (bareExtension e) = true := by
  constructor
  · exact fun hfound => (of_lookup? (k := .extension e) hfound).2
  · intro hhas
    obtain ⟨before, after, hmodes⟩ := List.append_of_mem hm
    rw [Staggered, hmodes, List.pairwise_append] at h
    rw [byExtension?, hmodes]
    refine List.find?_eq_some_iff_append.mpr ⟨hhas, before, after, rfl, fun other hother => ?_⟩
    rw [h.2.2 other hother m List.mem_cons_self e he]
    rfl

/-- Who has an extension after any registrations, whatever the extensions of the modes are.  No
mode claims anything of those before it, and two modes that share an extension have both given
it with a dot.  A mode is found by an extension that it has given just where it has given it
without a dot too, and so by each that has no dot. -/
theorem extensions_owned (ds : List Descriptor) :
    let r := empty.after ds
    r.Staggered ∧
    r.modes.Pairwise (fun m d => ∀ own ∈ m.extensions, ∀ e ∈ d.extensions,
      Text.sameIgnoringCase own e = true → own.head? = some '.' ∧ e.head? = some '.') ∧
    ∀ m ∈ r.modes, ∀ e ∈ m.extensions,
      (r.byExtension? e = some m ↔ m.hasExtension (bareExtension e) = true) ∧
      (e.head? ≠ some '.' → r.byExtension? e = some m) := by
  intro r
  have hr : r.Staggered := after_staggered List.Pairwise.nil ds
  refine ⟨hr, ?_, fun m hm e he => ?_⟩
  · refine hr.imp fun hclaims own hown e he hsame => ?_
    exact hclaims.dotted hown he hsame
  · have hiff := byExtension?_iff_of_staggered hr hm he
    refine ⟨hiff, fun hplain => hiff.mpr ?_⟩
    rw [bareExtension_of_head? hplain]
    exact Descriptor.hasExtension_of_mem he

/-- A mode that gives an extension with and without a dot, and one that cannot have it then. -/
theorem extensions_owned_both :
    let both : Descriptor := ⟨"both".toList, "Both".toList, "text/both".toList,
      [".gf".toList, "gf".toList], "#".toList⟩
    let late : Descriptor := ⟨"late".toList, "Late".toList, "text/late".toList,
      [".GF".toList], "#".toList⟩
    let r := empty.after [both, late]
    r.modes = [both] ∧ r.Staggered ∧
      ".gf".toList ∈ both.extensions ∧ r.byExtension? ".gf".toList = some both ∧
      "gf".toList ∈ both.extensions ∧ r.byExtension? "gf".toList = some both := by
  intro both late r
  have hmodes : r.modes = [both] := by decide +kernel
  have hmem : both ∈ r.modes := hmodes ▸ List.mem_singleton_self both
  have hdotted : ".gf".toList ∈ both.extensions := by decide
  have hplain : "gf".toList ∈ both.extensions := by decide
  obtain ⟨hstaggered, -, hfound⟩ := extensions_owned [both, late]
  exact ⟨hmodes, hstaggered, hdotted,
    (hfound both hmem _ hdotted).1.mpr (by decide +kernel),
    hplain, (hfound both hmem _ hplain).2 (by decide)⟩

/-- Two modes that give the same extension with a dot are both accepted, and neither of them is
found by it. -/
theorem dotted_extension_shared :
    let first : Descriptor := ⟨"a".toList, "A".toList, "text/a".toList, [".gf".toList], "#".toList⟩
    let second : Descriptor :=
      ⟨"b".toList, "B".toList, "text/b".toList, [".gf".toList], "#".toList⟩
    let r := empty.after [first, second]
    (¬ r.modes.Pairwise fun m d => ∀ own ∈ m.extensions, ∀ e ∈ d.extensions,
      ¬ Text.sameIgnoringCase own e = true) ∧
    ¬ ∀ m ∈ r.modes, ∀ e ∈ m.extensions, r.byExtension? e = some m := by
  intro first second r
  have hmodes : r.modes = [first, second] := by decide +kernel
  constructor
  · intro h
    rw [hmodes, List.pairwise_pair] at h
    exact h ".gf".toList (by decide) ".gf".toList (by decide) (by decide)
  · intro h
    have hfound := h first (hmodes ▸ List.mem_cons_self) ".gf".toList (by decide)
    exact absurd hfound (by decide +kernel)

end Registry
end Highlighter
