/-
How far a URI goes.

The lexemes of a URI take word characters and the marks of `isUriCharacter`, and in front of
each of these characters one of them takes something, so that the scanner gives up exactly in
front of any other character (`Scanner.uri_step_eq_none_iff`).  Each step takes as much as its
lexeme likes, and together the steps take the longest front of the line that has only such
characters (`Cursor.exists_readsUri`).
-/
import Highlighter.Proofs.CharacterClass
import Highlighter.Proofs.Machine.Progress
import Highlighter.Proofs.Read

namespace Highlighter

/-- The characters of a URI behind its scheme. -/
def isUriCharacter (c : Char) : Bool :=
  "-+*/%&|^<>=~!@:?.".toList.contains c || Unicode.isWordCharacter c

namespace Lexeme

theorem takesOnly_uriWord : uriWord.pattern.TakesOnly isUriCharacter := by
  have hpart : ∀ c, isUriWordPart c = true → isUriCharacter c = true := by
    intro c hc
    rw [isUriWordPart, Bool.or_eq_true] at hc
    rw [isUriCharacter, Bool.or_eq_true]
    rcases hc with hword | hdot
    · exact .inr hword
    · rw [eq_of_beq hdot]
      exact .inl (by decide)
  exact ⟨hpart, hpart⟩

theorem takesOnly_of_mem_uriLexemes {x : Lexeme} {style : Style}
    (h : (x, style) ∈ Scanner.uriLexemes) : x.pattern.TakesOnly isUriCharacter := by
  simp only [Scanner.uriLexemes, List.mem_cons, Prod.mk.injEq, List.not_mem_nil, or_false] at h
  rcases h with ⟨rfl, -⟩ | ⟨rfl, -⟩ | ⟨rfl, -⟩
  · exact takesOnly_operator (by decide)
  · exact Pattern.takesOnly_oneOf (by decide)
  · exact takesOnly_uriWord

/-- Every character of a URI is taken by one of the lexemes, whatever follows it. -/
theorem exists_takesOne {c : Char} (h : isUriCharacter c = true) :
    ∃ p ∈ Scanner.uriLexemes, p.1.pattern.takesOne c = true := by
  rw [isUriCharacter, Bool.or_eq_true, List.contains_iff_mem] at h
  rcases h with hmark | hword
  · have hall : "-+*/%&|^<>=~!@:?.".toList.all
        (fun c => Scanner.uriLexemes.any fun p => p.1.pattern.takesOne c) = true := by
      decide
    exact List.any_eq_true.mp (List.all_eq_true.mp hall c hmark)
  · refine ⟨(.uriWord, .variable2), by decide, ?_⟩
    show (isUriWordPart c && true || false && _) = true
    rw [isUriWordPart, hword]
    rfl

end Lexeme

namespace Scanner

theorem uri_step_all {s : Text} {st : Step} (h : uri.step s = some st) :
    st.taken.all isUriCharacter = true ∧ st.closes = false := by
  obtain ⟨⟨x, style⟩, hx, hstep⟩ := List.exists_of_findSome?_eq_some h
  obtain ⟨⟨taken, rest⟩, hsplit, rfl⟩ := Option.map_eq_some_iff.mp hstep
  exact ⟨Pattern.all_of_split? (Lexeme.takesOnly_of_mem_uriLexemes hx) hsplit, rfl⟩

/-- The scanner of a URI gives up exactly in front of a character that is no part of one. -/
theorem uri_step_eq_none_iff {c : Char} {s : Text} :
    uri.step (c :: s) = none ↔ isUriCharacter c = false := by
  constructor
  · intro h
    refine Bool.eq_false_iff.mpr fun hc => ?_
    obtain ⟨⟨x, style⟩, hx, hone⟩ := Lexeme.exists_takesOne hc
    obtain ⟨parts, hparts⟩ := Lexeme.exists_split?_of_takesOne hone s
    have hnone : (x.split? (c :: s)).map _ = none := List.findSome?_eq_none_iff.mp h _ hx
    rw [hparts] at hnone
    cases hnone
  · intro hc
    cases hstep : uri.step (c :: s) with
    | none => rfl
    | some st =>
      obtain ⟨d, t, htaken⟩ := List.exists_cons_of_ne_nil (step_ne_nil hstep (List.cons_ne_nil c s))
      have happ := step_append hstep
      have hall := (uri_step_all hstep).1
      rw [htaken, List.cons_append] at happ
      rw [htaken, List.all_cons, (List.cons.inj happ).1, hc] at hall
      cases hall

end Scanner

namespace State

/-- A step of a URI leaves the URI open. -/
theorem read_of_uri_step {st : State} (h : st.suspended = [.uri]) {s : Text}
    {step : Scanner.Step} (hstep : Scanner.uri.step s = some step) :
    st.read s = ⟨⟨[], step.taken, some step.style, .scanner .uri step.style⟩, step.rest,
      ⟨[.uri], st.mode, some (.style step.style)⟩⟩ := by
  have hcut : cut st.mode st.suspended s =
      ⟨.scanner .uri step.style, [], step.taken, step.rest, [.uri], st.mode⟩ := by
    rw [h, cut, hstep]
    simp only [(Scanner.uri_step_all hstep).2]
    rfl
  have hmemory := Memory.after_of_not_isWordLike
    (Scanner.isWordLike_of_mem_styles (Scanner.step_style_mem hstep)) st.memory step.taken
  rw [State.read, hcut]
  simp only [Origin.style, hmemory]

end State

namespace Cursor

/-- Calls that read the rest of a URI at a cursor, and the state and the cursor that they lead
to.  They read the longest front of the line that has only characters of a URI. -/
structure ReadsUri (st : State) (c : Cursor) (calls : List Call) (st' : State) (c' : Cursor) :
    Prop where
  reads : ReadsTo st c calls st' c'
  style : ∀ k ∈ calls, k.style ∈ [some .operator, some .metadata, some .variable2]
  isOpen : ∀ k ∈ calls, k.state.suspended = [.uri]
  text : calls.flatMap (·.cursor.current) = c.rest.takeWhile isUriCharacter
  rest : c'.rest = c.rest.dropWhile isUriCharacter
  position : c'.position = c.position + Text.byteLength (c.rest.takeWhile isUriCharacter)
  suspended : st'.suspended = [.uri]
  mode : st'.mode = st.mode

theorem call_of_uri_step {st : State} (h : st.suspended = [.uri]) {c : Cursor}
    (hc : c.isAtEnd = false) {step : Scanner.Step} (hstep : Scanner.uri.step c.rest = some step) :
    call st c = ⟨.scanner .uri step.style, some step.style,
      ⟨[.uri], st.mode, some (.style step.style)⟩,
      c.startToken.afterToken [] step.taken step.rest⟩ := by
  rw [call_of_not_isAtEnd st hc, State.read_of_uri_step h hstep]

/-- In front of a character that is no part of a URI nothing more of it is read. -/
theorem readsUri_nil {st : State} (h : st.suspended = [.uri]) {c : Cursor}
    (hstop : ∀ d ∈ c.rest.head?, isUriCharacter d = false) : ReadsUri st c [] st c := by
  have hsplit : c.rest.takeWhile isUriCharacter = [] ∧
      c.rest.dropWhile isUriCharacter = c.rest := by
    cases hrest : c.rest with
    | nil => exact ⟨rfl, rfl⟩
    | cons d s =>
      have hd : ¬ isUriCharacter d = true := by
        rw [hstop d (by rw [hrest]; rfl)]
        exact Bool.false_ne_true
      exact ⟨List.takeWhile_cons_of_neg hd, List.dropWhile_cons_of_neg hd⟩
  refine ⟨.nil st c, List.forall_mem_nil _, List.forall_mem_nil _, hsplit.1.symm,
    hsplit.2.symm, ?_, h, rfl⟩
  rw [hsplit.1, Text.byteLength_nil, Nat.add_zero]

/-- A step is put in front of the calls that read on behind it. -/
theorem readsUri_cons {st st' : State} (h : st.suspended = [.uri]) {c c' : Cursor}
    (hc : c.isAtEnd = false) {step : Scanner.Step} (hstep : Scanner.uri.step c.rest = some step)
    {later : List Call} (hlater : ReadsUri (call st c).state (call st c).cursor later st' c') :
    ReadsUri st c (call st c :: later) st' c' := by
  have hall := List.all_eq_true.mp (Scanner.uri_step_all hstep).1
  have hstyle : step.style ∈ Scanner.uri.styles := Scanner.step_style_mem hstep
  have htake : c.rest.takeWhile isUriCharacter =
      step.taken ++ step.rest.takeWhile isUriCharacter := by
    rw [← Scanner.step_append hstep, List.takeWhile_append_of_pos hall]
  have hdrop : c.rest.dropWhile isUriCharacter = step.rest.dropWhile isUriCharacter := by
    rw [← Scanner.step_append hstep, List.dropWhile_append_of_pos hall]
  have hcall := call_of_uri_step h hc hstep
  have hcurrent : (call st c).cursor.current = step.taken := by
    rw [hcall, current_afterToken]
  have hrest : (call st c).cursor.rest = step.rest := by
    rw [hcall, rest_afterToken]
  have hposition : (call st c).cursor.position = c.position + Text.byteLength step.taken := by
    rw [hcall, position_afterToken, Text.byteLength_nil, Nat.add_zero]
  refine ⟨.cons hc ?_ hlater.reads, ?_, ?_, ?_, ?_, ?_, hlater.suspended, ?_⟩
  · rw [hcall, start_afterToken, Text.byteLength_nil, Nat.add_zero]
  · refine List.forall_mem_cons.mpr ⟨?_, hlater.style⟩
    rw [hcall]
    exact List.mem_map_of_mem hstyle
  · refine List.forall_mem_cons.mpr ⟨?_, hlater.isOpen⟩
    rw [hcall]
  · rw [List.flatMap_cons, hlater.text, hcurrent, hrest, htake]
  · rw [hlater.rest, hrest, hdrop]
  · rw [hlater.position, hposition, hrest, htake, Text.byteLength_append, Nat.add_assoc]
  · rw [hlater.mode, hcall]

/-- Where a URI is open, calls read it as far as it goes. -/
theorem exists_readsUri {st : State} (h : st.suspended = [.uri]) (c : Cursor) :
    ∃ calls st' c', ReadsUri st c calls st' c' := by
  fun_induction calls st c with
  | case1 st c hend =>
    refine ⟨[], st, c, readsUri_nil h fun d hd => ?_⟩
    rw [List.isEmpty_iff.mp hend] at hd
    cases hd
  | case2 st c hmore _ ih =>
    have hc : c.isAtEnd = false := Bool.eq_false_iff.mpr hmore
    cases hstep : Scanner.uri.step c.rest with
    | none =>
      refine ⟨[], st, c, readsUri_nil h fun d hd => ?_⟩
      obtain ⟨s, hrest⟩ := List.head?_eq_some_iff.mp hd
      rw [hrest] at hstep
      exact Scanner.uri_step_eq_none_iff.mp hstep
    | some step =>
      have hopen : (call st c).state.suspended = [.uri] := by
        rw [call_of_uri_step h hc hstep]
      obtain ⟨later, st', c', hlater⟩ := ih hopen
      exact ⟨_, st', c', readsUri_cons h hc hstep hlater⟩

end Cursor

namespace Finding

theorem extent_of_openUri {f : Finding} (h : f.action = .openUri) :
    f.extent = (f.taken, f.rest, [.uri]) := by
  rw [extent, h]

theorem action_of_head?_suspended {f : Finding} (h : f.extent.2.2.head? = some .uri) :
    f.action = .openUri := by
  cases hopens : f.action.opens with
  | none =>
    rw [suspended_of_opens_none hopens] at h
    cases h
  | some sc =>
    rcases suspended_of_opens_some hopens with hnone | hone
    · rw [hnone] at h
      cases h
    · rw [hone] at h
      obtain rfl := Option.some.inj h
      cases haction : f.action with
      | openUri => rfl
      | _ =>
        rw [haction] at hopens
        cases hopens

end Finding

namespace Mode

/-- Only the scheme of a URI opens one. -/
theorem scheme_of_openUri {m : Mode} {c : Char} {s : Text} (h : (m.find c s).action = .openUri) :
    m = .within .theory ∧ (m.find c s).taken = "http".toList := by
  have hmode : Scanner.uri.BelongsTo m := belongsTo_of_find (by rw [h]; rfl)
  obtain rfl : m = .within .theory := hmode
  refine ⟨rfl, ?_⟩
  rcases find_cases (.within .theory) c s with ⟨r, hr, hfind⟩ | ⟨-, hfind⟩
  · obtain ⟨⟨taken, rest⟩, hsplit, hf⟩ := Option.map_eq_some_iff.mp hfind
    have hscheme : ∀ r ∈ (within .theory).rules, r.action = .openUri → r.lexeme = .uriScheme := by
      decide
    rw [← hf] at h ⊢
    rw [hscheme r hr h] at hsplit
    exact Pattern.eq_of_split?_literal hsplit
  · rw [hfind] at h
    have hunruled : unruled c ≠ .openUri := by
      unfold unruled
      split <;> exact Action.noConfusion
    exact absurd h hunruled

/-- In a theory nothing but the scheme of a URI has the style of a second variable. -/
theorem action_of_variable2 {c : Char} {s text : Text} {memory : Option Memory}
    (h : ((within .theory).find c s).action.style (.within .theory) memory text =
      some .variable2) : ((within .theory).find c s).action = .openUri := by
  rcases find_styled_cases h with ⟨-, hstyle⟩ | ⟨r, hr, taken, rest, -, hfind, hfixed⟩ | hstring
  · rw [nameStyle] at hstyle
    split at hstyle <;> cases hstyle
  · have hopen : ∀ r ∈ (within .theory).rules, r.action.fixedStyle? = some .variable2 →
        r.action = .openUri := by
      decide
    rw [hfind]
    exact hopen r hr hfixed
  · cases hstring

end Mode

namespace State

/-- A URI is open behind a token if it was open and goes on, or if the token is the scheme of
one, found in a theory. -/
theorem head?_suspended_read_iff {st : State} (h : st.Steady) {s : Text} (hs : s ≠ []) :
    (st.read s).state.suspended.head? = some .uri ↔
      st.suspended.head? = some .uri ∧ (∀ d ∈ s.head?, isUriCharacter d = true) ∨
      st.mode = .within .theory ∧ (∃ action, (st.read s).token.origin = .rule action) ∧
        (st.read s).token.text = "http".toList ∧ (st.read s).token.style = some .variable2 := by
  obtain ⟨d, s, rfl⟩ := List.exists_cons_of_ne_nil hs
  have hhead : (∀ e ∈ (d :: s).head?, isUriCharacter e = true) ↔ isUriCharacter d = true := by
    simp
  rw [hhead]
  rcases Cut.cut_cases st.mode st.suspended (d :: s) with
    ⟨gaveUp, sc, around, step, hsuspended, -, hstep, hcut⟩ | ⟨hgave, hcut⟩
  · have honly : gaveUp = [] ∧ around = [] := by
      have hlength := h.length_suspended_le
      rw [hsuspended, List.length_append, List.length_cons] at hlength
      exact ⟨List.length_eq_zero_iff.mp (by omega), List.length_eq_zero_iff.mp (by omega)⟩
    obtain ⟨rfl, rfl⟩ := honly
    rw [List.nil_append] at hsuspended
    have hscanner : (st.read (d :: s)).token.origin = .scanner sc step.style := by
      rw [read, hcut]
    have hstate : (st.read (d :: s)).state.suspended = if step.closes then [] else [sc] := by
      rw [read, hcut]
    rw [hscanner, hstate, hsuspended]
    by_cases hsc : sc = .uri
    · subst hsc
      have hd : isUriCharacter d = true := by
        cases hd : isUriCharacter d with
        | true => rfl
        | false =>
          rw [Scanner.uri_step_eq_none_iff.mpr hd] at hstep
          cases hstep
      simp [(Scanner.uri_step_all hstep).2, hd]
    · cases step.closes <;> simp [hsc]
  · have hclosed : ¬ (st.suspended.head? = some .uri ∧ isUriCharacter d = true) := by
      rintro ⟨huri, hd⟩
      rw [Scanner.uri_step_eq_none_iff.mp (hgave .uri (List.mem_of_head? huri))] at hd
      cases hd
    rw [or_iff_right hclosed, read, hcut]
    rcases st.mode.cut_cases (d :: s) with ⟨-, hblank⟩ | ⟨gap, c, rest, -, -, -, hfound⟩
    · rw [hblank]
      simp
    · rw [hfound]
      constructor
      · intro hopen
        have haction := Finding.action_of_head?_suspended hopen
        obtain ⟨hmode, htaken⟩ := Mode.scheme_of_openUri haction
        refine ⟨hmode, ⟨_, rfl⟩, ?_, ?_⟩
        · show (st.mode.find c rest).extent.1 = _
          rw [Finding.extent_of_openUri haction, htaken]
        · show (st.mode.find c rest).action.style _ _ _ = _
          rw [haction]
          rfl
      · rintro ⟨hmode, -, -, hstyle⟩
        have hpainted : (st.mode.find c rest).action.style st.mode st.memory
            (st.mode.find c rest).extent.1 = some .variable2 := hstyle
        rw [hmode] at hpainted
        show (st.mode.find c rest).extent.2.2.head? = some .uri
        rw [hmode, Finding.extent_of_openUri (Mode.action_of_variable2 hpainted)]
        rfl

end State

/-- Behind its longest front a URI is at the end of the line, or it gives up. -/
theorem Cursor.ReadsUri.step_eq_none {st st' : State} {c c' : Cursor} {calls : List Call}
    (h : ReadsUri st c calls st' c') (hmore : c'.isAtEnd = false) :
    Scanner.uri.step c'.rest = none := by
  obtain ⟨d, s, hrest⟩ := List.exists_cons_of_ne_nil (rest_ne_nil_of_not_isAtEnd hmore)
  have hstop := List.head?_dropWhile_not isUriCharacter c.rest
  rw [← h.rest, hrest] at hstop
  rw [hrest]
  exact Scanner.uri_step_eq_none_iff.mpr (by simpa using hstop)

namespace State

/-- Where a URI gives up, the call does what it does with no scanner at work, in one round
more. -/
theorem next_of_uri_gaveUp {st : State} (h : st.suspended = [.uri]) {c : Cursor}
    (hc : c.isAtEnd = false) (hstep : Scanner.uri.step c.rest = none) :
    Cursor.next st c = Cursor.next st.idle c ∧
      (Machine.ofState st).next c = ((Machine.ofState st.idle).next c).map
        fun k => { k with rounds := k.rounds + 1 } := by
  have hgave : ∀ sc ∈ st.suspended, sc.step c.rest = none := by
    rw [h]
    exact List.forall_mem_singleton.mpr hstep
  have hnext : Cursor.next st c = Cursor.next st.idle c := by
    rw [Cursor.next_of_not_isAtEnd st hc, Cursor.next_of_not_isAtEnd st.idle hc,
      read_of_gaveUp hgave]
  have hrounds : st.rounds c.rest = st.idle.rounds c.rest + 1 := by
    rw [rounds, rounds, h, List.takeWhile_cons_of_pos (by rw [hstep]; rfl)]
    rfl
  refine ⟨hnext, ?_⟩
  rw [Machine.next_ofState, Machine.next_ofState, hnext, hc, hrounds]
  rfl

/-- How far a URI goes, and where one is opened.  From a state that can be reached, in which a
URI is open, calls read the longest front of the line that has only characters of a URI, without
a gap and in three styles.  At the end of the line the URI stays open.  Otherwise the next call
gives it up and does in one more round what it does where no scanner is at work.  Behind a call
a URI is open if it was and has gone on, or if the call has found the scheme in a theory. -/
theorem uri_extent {st : State} (h : st.Reachable) {c : Cursor} (hc : c.isAtEnd = false) :
    (st.suspended.head? = some .uri → ∃ calls st' c', Cursor.ReadsUri st c calls st' c' ∧
      st'.Reachable ∧
      (c'.isAtEnd = true → st.afterLine c.rest = st') ∧
      (c'.isAtEnd = false → Cursor.next st' c' = Cursor.next st'.idle c' ∧
        (Machine.ofState st').next c' = ((Machine.ofState st'.idle).next c').map
          fun k => { k with rounds := k.rounds + 1 })) ∧
    ((Cursor.call st c).state.suspended.head? = some .uri ↔
      st.suspended.head? = some .uri ∧ (∀ d ∈ c.rest.head?, isUriCharacter d = true) ∨
      st.mode = .within .theory ∧ (∃ action, (Cursor.call st c).origin = .rule action) ∧
        (Cursor.call st c).cursor.current = "http".toList ∧
        (Cursor.call st c).style = some .variable2) := by
  constructor
  · intro huri
    obtain ⟨calls, st', c', hreads⟩ :=
      Cursor.exists_readsUri (h.steady.suspended_of_head? huri) c
    refine ⟨calls, st', c', hreads, h.readsTo hreads.reads, fun hend => ?_, fun hmore => ?_⟩
    · rw [afterLine_of_readsTo hreads.reads, List.isEmpty_iff.mp hend, afterLine_nil]
    · exact next_of_uri_gaveUp hreads.suspended hmore (hreads.step_eq_none hmore)
  · rw [Cursor.call_of_not_isAtEnd st hc]
    simp only [Cursor.current_afterToken]
    exact head?_suspended_read_iff h.steady (Cursor.rest_ne_nil_of_not_isAtEnd hc)

/-- Behind the scheme the URI goes on up to the space. -/
theorem uri_extent_behind_scheme :
    ∃ st : State, st.Reachable ∧ st.suspended = [.uri] ∧
      ∃ calls st' c', Cursor.ReadsUri st (.ofLine "://a.b c".toList) calls st' c' ∧
        c'.rest = " c".toList ∧ Cursor.next st' c' = Cursor.next st'.idle c' := by
  have hlatched := Reachable.start.next (.ofLine "theory".toList)
  have hreachable := hlatched.next (.ofLine "http".toList)
  have hopen : (Cursor.next (Cursor.next State.start (.ofLine "theory".toList)).2.1
      (.ofLine "http".toList)).2.1 = ⟨[.uri], .within .theory, some (.style .variable2)⟩ := by
    decide +kernel
  rw [hopen] at hreachable
  obtain ⟨calls, st', c', hreads, -, -, hgives⟩ :=
    (uri_extent hreachable (c := .ofLine "://a.b c".toList) rfl).1 rfl
  have hrest : c'.rest = " c".toList := by
    rw [hreads.rest]
    decide +kernel
  have hmore : c'.isAtEnd = false := by
    rw [Cursor.isAtEnd, hrest]
    rfl
  exact ⟨_, hreachable, rfl, calls, st', c', hreads, hrest, (hgives hmore).1⟩

end State
end Highlighter
