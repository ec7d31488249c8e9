/-
Every key of a registry has one owner.

Two modes are `Apart` where no key stands for both of them.  The keys are compared in
three ways: names as they are, MIME types and extensions without regard to the case of
ASCII letters, and an extension is asked for with or without the dot in front of it.  A
registration is accepted exactly where the new mode is apart from all modes that are
there (`Registry.conflict?_eq_none_iff`), so that the modes of a registry are pairwise
apart after any registrations (`Registry.after_exclusive`).  The first mode that a
look-up finds is then the only one (`Registry.lookup?_eq_some_iff`), and neither the
order of the registrations nor later ones make a difference.

All this is about modes whose extensions are given without the dot, since a registration
looks for each of them with the dot dropped.
-/
import Highlighter.Registry.Basic
import Mathlib.Data.List.Pairwise

namespace Highlighter
namespace Text

theorem sameIgnoringCase_comm (s t : Text) : sameIgnoringCase s t = sameIgnoringCase t s :=
  Bool.beq_comm

theorem sameIgnoringCase_trans {s t u : Text} (h : sameIgnoringCase s t = true)
    (h' : sameIgnoringCase t u = true) : sameIgnoringCase s u = true :=
  sameIgnoringCase_iff.mpr ((sameIgnoringCase_iff.mp h).trans (sameIgnoringCase_iff.mp h'))

end Text

/-- What a mode can be asked for by. -/
inductive Key where
  | name (n : Text)
  | mime (t : Text)
  | extension (e : Text)
deriving DecidableEq, Repr

namespace Descriptor

/-- Whether a key stands for a mode. -/
def answers (d : Descriptor) : Key → Bool
  | .name n => d.name == n
  | .mime t => Text.sameIgnoringCase d.mime t
  | .extension e => d.hasExtension (Registry.bareExtension e)

/-- Whether no key stands for both of two modes. -/
structure Apart (d other : Descriptor) : Prop where
  name : d.name ≠ other.name
  mime : ¬ Text.sameIgnoringCase d.mime other.mime = true
  extension : ∀ e ∈ d.extensions, ∀ e' ∈ other.extensions, ¬ Text.sameIgnoringCase e e' = true

/-- Whether the extensions of a mode are given without the dot in front. -/
def IsPlain (d : Descriptor) : Prop := ∀ e ∈ d.extensions, e.head? ≠ some '.'

theorem Apart.symm {d other : Descriptor} (h : d.Apart other) : other.Apart d := by
  refine ⟨fun hname => h.name hname.symm, fun hmime => h.mime ?_, ?_⟩
  · rw [Text.sameIgnoringCase_comm]
    exact hmime
  · intro e he e' he' hsame
    rw [Text.sameIgnoringCase_comm] at hsame
    exact h.extension e' he' e he hsame

instance : Std.Symm Apart := ⟨fun _ _ h => h.symm⟩

theorem hasExtension_iff {d : Descriptor} {e : Text} :
    d.hasExtension e = true ↔ ∃ own ∈ d.extensions, Text.sameIgnoringCase own e = true :=
  List.any_eq_true

theorem Apart.not_answers {d other : Descriptor} (h : d.Apart other) {k : Key}
    (hd : d.answers k = true) : ¬ other.answers k = true := by
  intro hother
  cases k with
  | name n => exact h.name ((eq_of_beq hd).trans (eq_of_beq hother).symm)
  | mime t =>
    have hother' : Text.sameIgnoringCase t other.mime = true := by
      rw [Text.sameIgnoringCase_comm]
      exact hother
    exact h.mime (Text.sameIgnoringCase_trans hd hother')
  | extension e =>
    obtain ⟨own, hown, hsame⟩ := hasExtension_iff.mp hd
    obtain ⟨own', hown', hsame'⟩ := hasExtension_iff.mp hother
    rw [Text.sameIgnoringCase_comm] at hsame'
    exact h.extension own hown own' hown' (Text.sameIgnoringCase_trans hsame hsame')

end Descriptor

namespace Conflict

/-- What a conflict says is true: the key belongs to the new mode, and the mode that is
named as its owner is registered and has it. -/
def Holds (c : Conflict) (r : Registry) (d : Descriptor) : Prop :=
  match c with
  | name taken => taken = d.name ∧ ∃ m ∈ r.modes, m.name = taken
  | mime taken owner => taken = d.mime ∧
    ∃ m ∈ r.modes, m.name = owner ∧ Text.sameIgnoringCase m.mime taken = true
  | extension taken owner => taken ∈ d.extensions ∧
    ∃ m ∈ r.modes, m.name = owner ∧ ∃ e ∈ m.extensions, Text.sameIgnoringCase e taken = true

end Conflict

namespace Registry

def lookup? (r : Registry) : Key → Option Descriptor
  | .name n => r.byName? n
  | .mime t => r.byMime? t
  | .extension e => r.byExtension? e

theorem lookup?_eq_find? (r : Registry) (k : Key) :
    r.lookup? k = r.modes.find? (·.answers k) := by
  cases k <;> rfl

theorem bareExtension_of_head? {e : Text} (h : e.head? ≠ some '.') : bareExtension e = e := by
  unfold bareExtension
  split
  · exact absurd rfl h
  · rfl

/-- A mode that is found has the key it was asked for by. -/
theorem of_lookup? {r : Registry} {k : Key} {m : Descriptor} (h : r.lookup? k = some m) :
    m ∈ r.modes ∧ m.answers k = true := by
  rw [lookup?_eq_find?] at h
  exact ⟨List.mem_of_find?_eq_some h, (List.find?_eq_some_iff_append.mp h).1⟩

theorem lookup?_eq_none_iff {r : Registry} {k : Key} :
    r.lookup? k = none ↔ ∀ m ∈ r.modes, ¬ m.answers k = true := by
  rw [lookup?_eq_find?, List.find?_eq_none]

/-! ## Registrations -/

theorem conflict?_eq_none_iff {r : Registry} {d : Descriptor} (hd : d.IsPlain) :
    r.conflict? d = none ↔ ∀ m ∈ r.modes, m.Apart d := by
  have hname : r.byName? d.name = none ↔ ∀ m ∈ r.modes, ¬ m.answers (.name d.name) = true :=
    lookup?_eq_none_iff (k := .name d.name)
  have hmime : r.byMime? d.mime = none ↔ ∀ m ∈ r.modes, ¬ m.answers (.mime d.mime) = true :=
    lookup?_eq_none_iff (k := .mime d.mime)
  have hextension : ∀ e, r.byExtension? e = none ↔
      ∀ m ∈ r.modes, ¬ m.answers (.extension e) = true :=
    fun e => lookup?_eq_none_iff (k := .extension e)
  simp only [conflict?, Option.or_eq_none_iff, Option.map_eq_none_iff,
    List.findSome?_eq_none_iff, hname, hmime, hextension]
  constructor
  · rintro ⟨⟨hnames, hmimes⟩, hextensions⟩ m hm
    refine ⟨fun heq => hnames m hm (beq_iff_eq.mpr heq), hmimes m hm, ?_⟩
    intro own hown e he hsame
    refine hextensions e he m hm (Descriptor.hasExtension_iff.mpr ⟨own, hown, ?_⟩)
    rw [bareExtension_of_head? (hd e he)]
    exact hsame
  · intro h
    refine ⟨⟨fun m hm hsame => (h m hm).name (eq_of_beq hsame), fun m hm => (h m hm).mime⟩, ?_⟩
    intro e he m hm hanswers
    obtain ⟨own, hown, hsame⟩ := Descriptor.hasExtension_iff.mp hanswers
    rw [bareExtension_of_head? (hd e he)] at hsame
    exact (h m hm).extension own hown e he hsame

/-- A refusal names the key and one who has it. -/
theorem conflict?_holds {r : Registry} {d : Descriptor} (hd : d.IsPlain) {c : Conflict}
    (h : r.conflict? d = some c) : c.Holds r d := by
  rcases Option.or_eq_some_iff.mp h with h | ⟨-, h⟩
  · rcases Option.or_eq_some_iff.mp h with h | ⟨-, h⟩
    · obtain ⟨m, hm, rfl⟩ := Option.map_eq_some_iff.mp h
      obtain ⟨hmem, hanswers⟩ := of_lookup? (k := .name d.name) hm
      exact ⟨rfl, m, hmem, eq_of_beq hanswers⟩
    · obtain ⟨m, hm, rfl⟩ := Option.map_eq_some_iff.mp h
      obtain ⟨hmem, hanswers⟩ := of_lookup? (k := .mime d.mime) hm
      exact ⟨rfl, m, hmem, rfl, hanswers⟩
  · obtain ⟨e, he, hfound⟩ := List.exists_of_findSome?_eq_some h
    obtain ⟨m, hm, rfl⟩ := Option.map_eq_some_iff.mp hfound
    obtain ⟨hmem, hanswers⟩ := of_lookup? (k := .extension e) hm
    obtain ⟨own, hown, hsame⟩ := Descriptor.hasExtension_iff.mp hanswers
    rw [bareExtension_of_head? (hd e he)] at hsame
    exact ⟨he, m, hmem, rfl, own, hown, hsame⟩

/-- The checks in front of a registration one after the other, each of which may end it,
and the new mode behind them. -/
def accept (r : Registry) (d : Descriptor) : ExceptT Conflict (StateM Registry) Unit := do
  if (r.byName? d.name).isSome then throw (.name d.name)
  if let some owner := r.byMime? d.mime then throw (.mime d.mime owner.name)
  for e in d.extensions do
    if let some owner := r.byExtension? e then throw (.extension e owner.name)
  set (⟨r.modes ++ [d]⟩ : Registry)

/-- A registration as it changes the registry it is made in. -/
def attempt (d : Descriptor) : ExceptT Conflict (StateM Registry) Unit := do
  (← get).accept d

theorem run_extensions (r r' : Registry) (es : List Text)
    (k : ExceptT Conflict (StateM Registry) Unit) :
    (do
      for e in es do
        if let some owner := r.byExtension? e then throw (Conflict.extension e owner.name)
      k : ExceptT Conflict (StateM Registry) Unit).run.run r' =
    match es.findSome? fun e => (r.byExtension? e).map fun owner =>
        Conflict.extension e owner.name with
    | some c => (.error c, r')
    | none => k.run.run r' := by
  induction es with
  | nil => rfl
  | cons e es ih =>
    rw [List.forIn_cons, List.findSome?_cons]
    cases h : r.byExtension? e with
    | some owner => rfl
    | none => exact ih

/-- A registration that is refused leaves the registry as it is. -/
theorem run_attempt (r : Registry) (d : Descriptor) :
    (attempt d).run.run r =
      match r.register d with
      | .ok r' => (.ok (), r')
      | .error c => (.error c, r) := by
  show (r.accept d).run.run r = _
  unfold accept register conflict?
  cases hname : r.byName? d.name with
  | some m => rfl
  | none =>
    cases hmime : r.byMime? d.mime with
    | some m => rfl
    | none =>
      refine (run_extensions r r d.extensions _).trans ?_
      simp only [Option.map_none, Option.none_or]
      cases d.extensions.findSome? fun e => (r.byExtension? e).map fun owner =>
          Conflict.extension e owner.name with
      | some c => rfl
      | none => rfl

/-- The registry after registrations that follow one another, accepted or not. -/
def after (r : Registry) (ds : List Descriptor) : Registry :=
  ds.foldl (fun r d => ((attempt d).run.run r).2) r

theorem register_of_apart {r : Registry} {d : Descriptor} (hd : d.IsPlain)
    (h : ∀ m ∈ r.modes, m.Apart d) : r.register d = .ok ⟨r.modes ++ [d]⟩ ∧
      (attempt d).run.run r = (.ok (), ⟨r.modes ++ [d]⟩) := by
  have hregister := register_eq_ok_iff.mpr ⟨(conflict?_eq_none_iff hd).mpr h, rfl⟩
  rw [run_attempt, hregister]
  exact ⟨rfl, rfl⟩

theorem register_of_not_apart {r : Registry} {d : Descriptor} (hd : d.IsPlain)
    (h : ¬ ∀ m ∈ r.modes, m.Apart d) : ∃ c : Conflict, c.Holds r d ∧
      r.register d = .error c ∧ (attempt d).run.run r = (.error c, r) := by
  rw [← conflict?_eq_none_iff hd] at h
  obtain ⟨c, hc⟩ := Option.ne_none_iff_exists'.mp h
  have hregister := register_eq_error_iff.mpr hc
  rw [run_attempt, hregister]
  exact ⟨c, conflict?_holds hd hc, rfl, rfl⟩

theorem after_cons (r : Registry) (d : Descriptor) (ds : List Descriptor) :
    r.after (d :: ds) = ((attempt d).run.run r).2.after ds := rfl

/-- A registration adds the new mode behind the others or nothing. -/
theorem modes_attempt (r : Registry) (d : Descriptor) :
    ((attempt d).run.run r).2 = r ∨ ((attempt d).run.run r).2 = ⟨r.modes ++ [d]⟩ := by
  rw [run_attempt]
  cases h : r.register d with
  | ok r' => exact Or.inr (register_eq_ok_iff.mp h).2
  | error c => exact Or.inl rfl

theorem modes_after (r : Registry) (ds : List Descriptor) :
    ∃ more, (r.after ds).modes = r.modes ++ more := by
  induction ds generalizing r with
  | nil => exact ⟨[], (List.append_nil _).symm⟩
  | cons d ds ih =>
    obtain ⟨more, hmore⟩ := ih ((attempt d).run.run r).2
    rw [after_cons, hmore]
    rcases r.modes_attempt d with hsame | hadded
    · exact ⟨more, by rw [hsame]⟩
    · exact ⟨d :: more, by rw [hadded, List.append_assoc, List.singleton_append]⟩

/-! ## The modes of a registry -/

/-- Whether no key stands for two modes of a registry. -/
def Exclusive (r : Registry) : Prop := r.modes.Pairwise Descriptor.Apart

theorem attempt_exclusive {r : Registry} (h : r.Exclusive) {d : Descriptor} (hd : d.IsPlain) :
    ((attempt d).run.run r).2.Exclusive := by
  by_cases hapart : ∀ m ∈ r.modes, m.Apart d
  · rw [(register_of_apart hd hapart).2]
    show (r.modes ++ [d]).Pairwise Descriptor.Apart
    rw [List.pairwise_append]
    refine ⟨h, List.pairwise_singleton _ d, fun m hm other hother => ?_⟩
    rw [List.mem_singleton.mp hother]
    exact hapart m hm
  · obtain ⟨c, -, -, hrun⟩ := register_of_not_apart hd hapart
    rw [hrun]
    exact h

theorem after_exclusive {r : Registry} (h : r.Exclusive) {ds : List Descriptor}
    (hds : ∀ d ∈ ds, d.IsPlain) : (r.after ds).Exclusive := by
  induction ds generalizing r with
  | nil => exact h
  | cons d ds ih =>
    rw [after_cons]
    exact ih (attempt_exclusive h (hds d List.mem_cons_self))
      fun other hother => hds other (List.mem_cons_of_mem d hother)

/-- A key has one owner at most, so that the first mode that has it is the only one. -/
theorem lookup?_eq_some_iff {r : Registry} (h : r.Exclusive) {k : Key} {m : Descriptor} :
    r.lookup? k = some m ↔ m ∈ r.modes ∧ m.answers k = true := by
  constructor
  · exact of_lookup?
  · rintro ⟨hm, hanswers⟩
    cases hfound : r.lookup? k with
    | none => exact absurd hanswers (lookup?_eq_none_iff.mp hfound m hm)
    | some other =>
      obtain ⟨hother, hanswers'⟩ := of_lookup? hfound
      by_cases heq : other = m
      · rw [heq]
      · have hapart := h.forall hother hm heq
        exact absurd hanswers (hapart.not_answers hanswers')

/-- Two registries of the same modes give the same answers, whatever their order. -/
theorem lookup?_congr {r r' : Registry} (h : r.Exclusive) (h' : r'.Exclusive)
    (hmodes : ∀ m, m ∈ r.modes ↔ m ∈ r'.modes) (k : Key) : r.lookup? k = r'.lookup? k := by
  refine Option.ext fun m => ?_
  rw [lookup?_eq_some_iff h, lookup?_eq_some_iff h', hmodes]

/-- Later registrations change no answer. -/
theorem lookup?_after {r : Registry} {k : Key} {m : Descriptor} (h : r.lookup? k = some m)
    (ds : List Descriptor) : (r.after ds).lookup? k = some m := by
  obtain ⟨more, hmore⟩ := r.modes_after ds
  rw [lookup?_eq_find?] at h ⊢
  rw [hmore, List.find?_append, h, Option.some_or]

/-- Modes that are apart from one another and from those that are there are all
accepted. -/
theorem after_of_pairwise {r : Registry} {ds : List Descriptor} (hds : ∀ d ∈ ds, d.IsPlain)
    (h : (r.modes ++ ds).Pairwise Descriptor.Apart) : (r.after ds).modes = r.modes ++ ds := by
  induction ds generalizing r with
  | nil => exact (List.append_nil _).symm
  | cons d ds ih =>
    have hapart : ∀ m ∈ r.modes, m.Apart d := by
      intro m hm
      exact (List.pairwise_append.mp h).2.2 m hm d List.mem_cons_self
    have hlater : ((⟨r.modes ++ [d]⟩ : Registry).modes ++ ds).Pairwise Descriptor.Apart := by
      show (r.modes ++ [d] ++ ds).Pairwise Descriptor.Apart
      rw [List.append_assoc, List.singleton_append]
      exact h
    rw [after_cons, (register_of_apart (hds d List.mem_cons_self) hapart).2,
      ih (fun other hother => hds other (List.mem_cons_of_mem d hother)) hlater,
      List.append_assoc, List.singleton_append]

/-- After any registrations the modes have different names, MIME types and extensions.
A further one is accepted exactly where it is apart from all of them, and a refusal names
an owner of the key and changes nothing.  Every look-up finds the owner of its key, keeps
finding it whatever is registered later, and does not depend on the order in which the
modes came; and where all modes were accepted in one order they are in any other. -/
theorem registrations_exclusive {ds : List Descriptor} (hds : ∀ d ∈ ds, d.IsPlain) :
    let r := empty.after ds
    r.modes.Pairwise Descriptor.Apart ∧
    (∀ d, d.IsPlain → (∀ m ∈ r.modes, m.Apart d) →
      r.register d = .ok ⟨r.modes ++ [d]⟩ ∧
        (attempt d).run.run r = (.ok (), ⟨r.modes ++ [d]⟩)) ∧
    (∀ d, d.IsPlain → ¬ (∀ m ∈ r.modes, m.Apart d) → ∃ c : Conflict, c.Holds r d ∧
      r.register d = .error c ∧ (attempt d).run.run r = (.error c, r)) ∧
    (∀ n m, r.byName? n = some m ↔ m ∈ r.modes ∧ m.name = n) ∧
    (∀ t m, r.byMime? t = some m ↔ m ∈ r.modes ∧ Text.sameIgnoringCase m.mime t = true) ∧
    (∀ e m, r.byExtension? e = some m ↔ m ∈ r.modes ∧
      ∃ own ∈ m.extensions, Text.sameIgnoringCase own (bareExtension e) = true) ∧
    (∀ k m, r.lookup? k = some m → ∀ more, (r.after more).lookup? k = some m) ∧
    (∀ ds', (∀ d ∈ ds', d.IsPlain) → (∀ m, m ∈ r.modes ↔ m ∈ (empty.after ds').modes) →
      ∀ k, r.lookup? k = (empty.after ds').lookup? k) ∧
    (r.modes = ds → ∀ ds', ds'.Perm ds → (empty.after ds').modes = ds') := by
  intro r
  have hr : r.Exclusive := after_exclusive List.Pairwise.nil hds
  refine ⟨hr, fun d hd hapart => register_of_apart hd hapart,
    fun d hd hclash => register_of_not_apart hd hclash, ?_, ?_, ?_,
    fun k m h more => lookup?_after h more, ?_, ?_⟩
  · intro n m
    have hfound := lookup?_eq_some_iff (k := .name n) (m := m) hr
    rw [Descriptor.answers, beq_iff_eq] at hfound
    exact hfound
  · intro t m
    exact lookup?_eq_some_iff (k := .mime t) hr
  · intro e m
    rw [← Descriptor.hasExtension_iff]
    exact lookup?_eq_some_iff (k := .extension e) hr
  · intro ds' hds' hmodes
    exact lookup?_congr hr (after_exclusive List.Pairwise.nil hds') hmodes
  · intro hall ds' hperm
    have hds' : ∀ d ∈ ds', d.IsPlain := fun d hd => hds d (hperm.mem_iff.mp hd)
    have hpairwise : ds'.Pairwise Descriptor.Apart := by
      rw [hperm.pairwise_iff Descriptor.Apart.symm, ← hall]
      exact hr
    exact after_of_pairwise hds' hpairwise

/-- A mode that asks for an extension of the first one in capital letters is refused, and
one behind it is accepted and found. -/
theorem registrations_exclusive_refused :
    let other : Descriptor := ⟨"other".toList, "Other".toList, "text/other".toList,
      ["oth".toList], "#".toList⟩
    let clash : Descriptor := ⟨"third".toList, "Third".toList, "text/third".toList,
      ["x".toList, "GF".toList], "#".toList⟩
    let r := empty.after [.grammar, clash, other]
    r.modes = [.grammar, other] ∧ r.modes.Pairwise Descriptor.Apart ∧
      (∃ c : Conflict, c.Holds r clash ∧ r.register clash = .error c ∧
        (attempt clash).run.run r = (.error c, r)) ∧
      r.byExtension? ".OTH".toList = some other := by
  intro other clash r
  have hplain : ∀ d ∈ [Descriptor.grammar, clash, other], d.IsPlain := by
    unfold Descriptor.IsPlain
    decide +kernel
  have hmodes : r.modes = [.grammar, other] := by decide +kernel
  obtain ⟨hexclusive, -, hrefused, -, -, hextension, -⟩ := registrations_exclusive hplain
  have hclash : ¬ ∀ m ∈ r.modes, m.Apart clash := by
    rw [hmodes]
    intro hapart
    have hgf := (hapart .grammar List.mem_cons_self).extension "gf".toList (by decide +kernel)
      "GF".toList (by decide +kernel)
    exact hgf (by decide +kernel)
  refine ⟨hmodes, hexclusive, hrefused clash (hplain clash (by decide +kernel)) hclash, ?_⟩
  refine (hextension ".OTH".toList other).mpr ⟨?_, "oth".toList, ?_, ?_⟩
  · rw [hmodes]
    exact List.mem_cons_of_mem _ List.mem_cons_self
  · decide +kernel
  · decide +kernel

end Registry
end Highlighter
