/-
A machine with an explicit stack of frames.

A `State` holds the suspended scanners and nothing beneath them, so that the rules
of the mode apply once no scanner is left.  Here the rules are a frame of their own,
the dispatcher, and nothing in the type of a machine says where it stands, how often,
or what may lie on it.  A call of `Machine.next` scans with the frame on top in a loop:
a frame that gives up without having moved the cursor is popped, and the frame beneath
it scans at the same place.  The loop ends because the stack becomes shorter.  A frame
that gives up at the bottom is not popped and would be asked again and again
(`gaveUp_repeats`), so that `loop` and `next` have no result there.  `Machine.drive`
calls `next` along a line and stops early at a call that leaves the cursor where it was;
every other call brings it nearer to the end of the line (`next_follows`).
-/
import Highlighter.Proofs.Cursor
import Highlighter.Span

namespace Highlighter
namespace Cursor

/-- Whether a cursor stands behind another one, with some text of the line between them. -/
def Follows (later c : Cursor) : Prop :=
  ∃ taken, taken ++ later.rest = c.rest ∧ later.position = c.position + Text.byteLength taken

theorem Follows.refl (c : Cursor) : c.Follows c := ⟨[], rfl, rfl⟩

theorem Follows.trans {c₁ c₂ c₃ : Cursor} (h : c₁.Follows c₂) (h' : c₂.Follows c₃) :
    c₁.Follows c₃ := by
  obtain ⟨s, hrest, hposition⟩ := h
  obtain ⟨t, hrest', hposition'⟩ := h'
  refine ⟨t ++ s, by rw [List.append_assoc, hrest, hrest'], ?_⟩
  rw [hposition, hposition', Text.byteLength_append, Nat.add_assoc]

theorem startToken_follows (c : Cursor) : c.startToken.Follows c :=
  ⟨[], rfl, position_startToken c⟩

theorem advance_follows {c : Cursor} {taken rest : Text} (h : taken ++ rest = c.rest) :
    (c.advance taken rest).Follows c :=
  ⟨taken, h, c.position_advance taken rest⟩

/-- A cursor that has moved on has less of the line before it. -/
theorem Follows.length_rest_lt {later c : Cursor} (h : later.Follows c)
    (hmoved : later.position ≠ c.position) : later.rest.length < c.rest.length := by
  obtain ⟨taken, hrest, hposition⟩ := h
  have hne : taken ≠ [] := by
    rintro rfl
    exact hmoved hposition
  have hpos := List.length_pos_iff.mpr hne
  rw [← hrest, List.length_append]
  omega

end Cursor

inductive Frame where
  | dispatcher
  | scanner (sc : Scanner)
deriving DecidableEq, Repr

structure Machine where
  /-- The frames, the one on top first. -/
  stack : List Frame
  mode : Mode
  memory : Option Memory
deriving DecidableEq, Repr

namespace Machine

/-- What a frame makes of the text at a cursor. -/
structure Scan where
  style : Option Style
  pops : Bool
  cursor : Cursor
  machine : Machine

/-- What a call of `next` comes to. -/
structure Call where
  rounds : Nat
  style : Option Style
  cursor : Cursor
  machine : Machine

/-- What is left of a line that was read. -/
structure Drive where
  calls : List Call
  cursor : Cursor
  machine : Machine
  /-- Whether a call that did not move the cursor ended the reading. -/
  stalled : Bool

def start : Machine := ⟨[.dispatcher], .shell, none⟩

def active (k : Machine) : Frame := k.stack.head?.getD .dispatcher

def push (k : Machine) (frame : Frame) : Machine := { k with stack := frame :: k.stack }

/-- Takes the frame on top off the stack, unless it is the last one. -/
def pop (k : Machine) : Machine :=
  if 1 < k.stack.length then { k with stack := k.stack.tail } else k

def scanWith (k : Machine) (sc : Scanner) (c : Cursor) : Scan :=
  match sc.step c.rest with
  | some st => ⟨some st.style, st.closes, c.advance st.taken st.rest, k⟩
  | none => ⟨none, true, c, k⟩

/-- Pushes a scanner and lets it take its first step in the same token. -/
def enter (k : Machine) (sc : Scanner) (c : Cursor) : Scan :=
  let scan := (k.push (.scanner sc)).scanWith sc c
  { scan with pops := false, machine := if scan.pops then scan.machine.pop else scan.machine }

/-- Does what a finding asks for, at the cursor behind what was found. -/
def perform (k : Machine) (f : Finding) (c : Cursor) : Scan :=
  match f.action with
  | .paint style => ⟨some style, false, c, k⟩
  | .name => ⟨k.mode.nameStyle k.memory f.taken, false, c, k⟩
  | .latch language => ⟨some .keyword, false, c, { k with mode := .within language }⟩
  | .lineComment => ⟨some .comment, false, c.skipToEnd, k⟩
  | .openComment syn => k.enter (.comment syn) c
  | .openString quote => k.enter (.string quote) c
  | .openUri => ⟨some .variable2, false, c, k.push (.scanner .uri)⟩
  | .leave => ⟨none, false, c, k⟩

def dispatch (k : Machine) (c : Cursor) : Scan :=
  let c := c.eatSpace.2
  match c.rest with
  | [] => ⟨none, false, c, k⟩
  | d :: rest =>
    let found := k.mode.find d rest
    k.perform found (c.startToken.advance found.taken found.rest)

def scan (k : Machine) (c : Cursor) : Scan :=
  match k.active with
  | .dispatcher => k.dispatch c
  | .scanner sc => k.scanWith sc c

theorem scanWith_follows (k : Machine) (sc : Scanner) (c : Cursor) :
    (k.scanWith sc c).cursor.Follows c := by
  rw [scanWith]
  cases hstep : sc.step c.rest with
  | some st => exact Cursor.advance_follows (Scanner.step_append hstep)
  | none => exact .refl c

theorem perform_follows (k : Machine) (f : Finding) (c : Cursor) :
    (k.perform f c).cursor.Follows c := by
  obtain ⟨action, taken, rest⟩ := f
  cases action with
  | lineComment => exact Cursor.advance_follows (List.append_nil _)
  | openComment syn => exact (k.push (.scanner (.comment syn))).scanWith_follows (.comment syn) c
  | openString quote => exact (k.push (.scanner (.string quote))).scanWith_follows (.string quote) c
  | _ => exact .refl c

theorem perform_pops (k : Machine) (f : Finding) (c : Cursor) : (k.perform f c).pops = false := by
  obtain ⟨action, taken, rest⟩ := f
  cases action <;> rfl

theorem dispatch_cases (k : Machine) (c : Cursor) :
    k.dispatch c = ⟨none, false, c.eatSpace.2, k⟩ ∨ ∃ d rest, c.eatSpace.2.rest = d :: rest ∧
      k.dispatch c = k.perform (k.mode.find d rest)
        (c.eatSpace.2.startToken.advance (k.mode.find d rest).taken (k.mode.find d rest).rest) := by
  unfold dispatch
  simp only
  split
  · exact Or.inl rfl
  · case h_2 d rest hrest => exact Or.inr ⟨d, rest, hrest, rfl⟩

theorem dispatch_follows (k : Machine) (c : Cursor) : (k.dispatch c).cursor.Follows c := by
  have hspace : c.eatSpace.2.Follows c := Cursor.advance_follows List.takeWhile_append_dropWhile
  rcases k.dispatch_cases c with hblank | ⟨d, rest, hrest, hfound⟩
  · rw [hblank]
    exact hspace
  · rw [hfound]
    have happ : (k.mode.find d rest).taken ++ (k.mode.find d rest).rest =
        c.eatSpace.2.startToken.rest := (k.mode.find_append d rest).trans hrest.symm
    exact (perform_follows ..).trans ((Cursor.advance_follows happ).trans
      ((Cursor.startToken_follows _).trans hspace))

theorem dispatch_pops (k : Machine) (c : Cursor) : (k.dispatch c).pops = false := by
  rcases k.dispatch_cases c with hblank | ⟨d, rest, -, hfound⟩
  · rw [hblank]
  · rw [hfound]
    exact perform_pops ..

theorem scan_follows (k : Machine) (c : Cursor) : (k.scan c).cursor.Follows c := by
  unfold scan
  split
  · exact k.dispatch_follows c
  · exact k.scanWith_follows _ c

/-- Scans until a frame does not give up.  There is no result where a frame gives up
and stays on the stack. -/
def loop (k : Machine) (c : Cursor) : Option Call := do
  let scan := k.scan c
  if scan.pops then
    if scan.style = none ∧ scan.cursor.position = c.position then
      if scan.machine.pop.stack.length < k.stack.length then
        let call ← loop scan.machine.pop scan.cursor
        some { call with rounds := call.rounds + 1 }
      else none
    else some ⟨1, scan.style, scan.cursor, scan.machine.pop⟩
  else some ⟨1, scan.style, scan.cursor, scan.machine⟩
termination_by k.stack.length

theorem scan_of_gaveUp {k : Machine} {c : Cursor} (h : (k.scan c).pops = true)
    (hstyle : (k.scan c).style = none) : k.scan c = ⟨none, true, c, k⟩ := by
  cases hactive : k.active with
  | dispatcher =>
    have hscan : k.scan c = k.dispatch c := by rw [scan, hactive]
    rw [hscan, dispatch_pops] at h
    cases h
  | scanner sc =>
    have hscan : k.scan c = k.scanWith sc c := by rw [scan, hactive]
    rw [hscan] at hstyle ⊢
    cases hstep : sc.step c.rest with
    | some st =>
      rw [scanWith, hstep] at hstyle
      cases hstyle
    | none => rw [scanWith, hstep]

/-- Where a frame gives up and stays on the stack, the next round would be the same. -/
theorem gaveUp_repeats {k : Machine} {c : Cursor} (h : (k.scan c).pops = true)
    (hstyle : (k.scan c).style = none)
    (hstays : ¬ (k.scan c).machine.pop.stack.length < k.stack.length) :
    (k.scan c).machine.pop = k ∧ (k.scan c).cursor = c := by
  rw [scan_of_gaveUp h hstyle] at hstays ⊢
  have hkept : ¬ k.pop.stack.length < k.stack.length := hstays
  have hshort : ¬ 1 < k.stack.length := by
    intro hlong
    rw [pop, if_pos hlong, List.length_tail] at hkept
    omega
  exact ⟨if_neg hshort, rfl⟩

/-- Reads the next token.  At the end of the line there is none. -/
def next (k : Machine) (c : Cursor) : Option Call := do
  let c := c.startToken
  if c.isAtEnd then some ⟨0, none, c, k⟩
  else
    let call ← k.loop c
    let memory := Memory.after call.machine.memory call.style call.cursor.current
    some { call with machine := { call.machine with memory := memory } }

theorem loop_follows {k : Machine} {c : Cursor} {call : Call} (h : k.loop c = some call) :
    call.cursor.Follows c := by
  fun_induction loop k c generalizing call
  case case1 k c _ _ _ _ ih =>
    obtain ⟨later, hlater, hcall⟩ := Option.bind_eq_some_iff.mp h
    cases hcall
    exact (ih hlater).trans (k.scan_follows c)
  case case2 => cases h
  case case3 k c _ _ _ | case4 k c _ _ =>
    cases h
    exact k.scan_follows c

theorem next_follows {k : Machine} {c : Cursor} {call : Call} (h : k.next c = some call) :
    call.cursor.Follows c := by
  unfold next at h
  simp only at h
  split at h
  · cases h
    exact c.startToken_follows
  · obtain ⟨scanned, hscanned, hcall⟩ := Option.bind_eq_some_iff.mp h
    cases hcall
    exact (loop_follows hscanned).trans c.startToken_follows

/-- Reads a line to its end, or up to a call that does not move the cursor. -/
def drive (k : Machine) (c : Cursor) : Option Drive :=
  if c.isAtEnd then some ⟨[], c, k, false⟩
  else
    match hcall : k.next c with
    | none => none
    | some call =>
      if hstalled : call.cursor.position = c.position then
        some ⟨[], call.cursor, call.machine, true⟩
      else
        have := (next_follows hcall).length_rest_lt hstalled
        (call.machine.drive call.cursor).map fun later =>
          { later with calls := call :: later.calls }
termination_by c.rest.length

/-- What is reported of a call: white space without a style is left out. -/
def Call.span? (call : Call) : Option Span :=
  if call.style.isNone && call.cursor.current.all Unicode.isWhiteSpace then none
  else some ⟨call.cursor.start, call.cursor.position, call.style⟩

/-- The machines that calls of `next` lead to from the beginning of a document, at
any positions of any lines. -/
inductive Reachable : Machine → Prop
  | start : Reachable start
  | next {k : Machine} {c : Cursor} {call : Call} (h : Reachable k)
      (hcall : k.next c = some call) : Reachable call.machine

theorem push_pop {k : Machine} (h : k.stack ≠ []) (frame : Frame) : (k.push frame).pop = k := by
  have hpos := List.length_pos_iff.mpr h
  rw [pop, if_pos]
  · rfl
  · show 1 < k.stack.length + 1
    omega

theorem loop_of_not_pops {k : Machine} {c : Cursor} (h : (k.scan c).pops = false) :
    k.loop c = some ⟨1, (k.scan c).style, (k.scan c).cursor, (k.scan c).machine⟩ := by
  rw [loop]
  simp [h]

theorem loop_of_pops {k : Machine} {c : Cursor} (h : (k.scan c).pops = true)
    (hstyle : (k.scan c).style ≠ none) :
    k.loop c = some ⟨1, (k.scan c).style, (k.scan c).cursor, (k.scan c).machine.pop⟩ := by
  rw [loop]
  simp [h, hstyle]

theorem loop_of_gaveUp {k : Machine} {c : Cursor} (h : (k.scan c).pops = true)
    (hstyle : (k.scan c).style = none) (hcursor : (k.scan c).cursor.position = c.position)
    (hshorter : (k.scan c).machine.pop.stack.length < k.stack.length) :
    k.loop c = ((k.scan c).machine.pop.loop (k.scan c).cursor).map
      fun call => { call with rounds := call.rounds + 1 } := by
  rw [loop]
  simp only [h, hstyle, hcursor, and_self, hshorter, if_true]
  cases (k.scan c).machine.pop.loop (k.scan c).cursor <;> rfl

theorem drive_of_isAtEnd (k : Machine) {c : Cursor} (h : c.isAtEnd = true) :
    k.drive c = some ⟨[], c, k, false⟩ := by
  rw [drive, if_pos h]

theorem drive_of_next {k : Machine} {c : Cursor} {call : Call} (h : c.isAtEnd = false)
    (hcall : k.next c = some call) (hmoved : call.cursor.position ≠ c.position) :
    k.drive c = (call.machine.drive call.cursor).map
      fun later => { later with calls := call :: later.calls } := by
  rw [drive, if_neg (by rw [h]; decide)]
  split
  · case h_1 hnone =>
    rw [hcall] at hnone
    cases hnone
  · case h_2 call' hcall' =>
    obtain rfl : call = call' := Option.some.inj (hcall.symm.trans hcall')
    rw [dif_neg hmoved]

end Machine
end Highlighter
