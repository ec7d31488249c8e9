/-
Comments and strings within a line.

An `Enclosure` is what stands between an opening and a closing mark: a comment of a
sublanguage or a string.  Where the rules of a mode apply, the opening mark is always
taken for one, since no rule before it may begin with its first character
(`Enclosure.find_opening`).  The scanner takes the closing mark where it stands and a
single character everywhere else, so that what is inside ends at the first closing mark
(`Enclosure.run_closed`), or not at all (`Enclosure.run_open`).

The first step of the scanner is read along with the opening mark
(`Enclosure.run_opening`), so that a closing mark right behind it ends the same token.
From the second step on the line is one that begins inside.
-/
import Highlighter.Proofs.Cursor
import Highlighter.Proofs.Machine.Invariant
import Highlighter.Proofs.WholeWord

namespace Highlighter

/-- The characters of a token and of the white space before it, each with its style. -/
def Token.characters (t : Token) : List (Char × Option Style) :=
  t.gap.map (·, none) ++ t.text.map (·, t.style)

/-- The characters of readings that follow one another. -/
def Reading.characters (readings : List Reading) : List (Char × Option Style) :=
  readings.flatMap fun r => r.token.characters

theorem Reading.characters_append (readings later : List Reading) :
    characters (readings ++ later) = characters readings ++ characters later :=
  List.flatMap_append

theorem Rule.find?_eq_none_of_mayBegin {r : Rule} {c : Char}
    (h : r.lexeme.pattern.mayBegin c = false) (s : Text) : r.find? (c :: s) = none := by
  rw [find?, Lexeme.split?, Pattern.split?_eq_none_of_mayBegin h]
  rfl

namespace Text

/-- Whether the first occurrence of a mark in a text is the one between two parts. -/
def FirstMark (mark front after : Text) : Prop :=
  ∀ shorter longer, front ++ (mark ++ after) = shorter ++ (mark ++ longer) →
    front.length ≤ shorter.length

section FirstMark

variable {mark front after : Text} {c : Char}

theorem firstMark_nil : FirstMark mark [] after := fun _ _ _ => Nat.zero_le _

theorem firstMark_cons : FirstMark mark (c :: front) after ↔
    ¬ mark <+: c :: (front ++ (mark ++ after)) ∧ FirstMark mark front after := by
  constructor
  · refine fun h => ⟨?_, fun shorter longer heq => ?_⟩
    · rintro ⟨longer, heq⟩
      exact absurd (h [] longer heq.symm) (Nat.not_succ_le_zero _)
    · exact Nat.le_of_succ_le_succ (h (c :: shorter) longer (congrArg (c :: ·) heq))
  · rintro ⟨hno, h⟩ shorter longer heq
    cases shorter with
    | nil => exact absurd ⟨longer, heq.symm⟩ hno
    | cons d shorter =>
      obtain ⟨-, htail⟩ := List.cons.inj heq
      exact Nat.succ_le_succ (h shorter longer htail)

instance decidableFirstMark (mark : Text) :
    (front after : Text) → Decidable (FirstMark mark front after)
  | [], _ => isTrue firstMark_nil
  | _ :: front, after =>
    have := decidableFirstMark mark front after
    decidable_of_iff _ firstMark_cons.symm

theorem exists_firstMark {s : Text} (h : mark <:+: s) :
    ∃ front after, s = front ++ (mark ++ after) ∧ FirstMark mark front after := by
  induction s with
  | nil => exact ⟨[], [], by rw [List.infix_nil.mp h]; rfl, firstMark_nil⟩
  | cons c s ih =>
    by_cases hpre : mark <+: c :: s
    · obtain ⟨after, hafter⟩ := hpre
      exact ⟨[], after, hafter.symm, firstMark_nil⟩
    · obtain ⟨front, after, rfl, hfirst⟩ := ih ((List.infix_cons_iff.mp h).resolve_left hpre)
      exact ⟨c :: front, after, rfl, firstMark_cons.mpr ⟨hpre, hfirst⟩⟩

end FirstMark
end Text

/-- What stands between an opening and a closing mark. -/
inductive Enclosure where
  | comment (syn : CommentSyntax)
  | string (quote : Char)

namespace Enclosure

def opening : Enclosure → Text
  | comment .grammar => ['{', '-']
  | comment .logic => ['/', '*']
  | string quote => [quote]

def closing : Enclosure → Text
  | comment .grammar => ['-', '}']
  | comment .logic => ['*', '/']
  | string quote => [quote]

def scanner : Enclosure → Scanner
  | comment syn => .comment syn
  | string quote => .string quote

def style : Enclosure → Style
  | comment _ => .comment
  | string _ => .string

def action : Enclosure → Action
  | comment syn => .openComment syn
  | string quote => .openString quote

/-- The characters of a text in the style of an enclosure. -/
def paint (e : Enclosure) (s : Text) : List (Char × Option Style) := s.map (·, some e.style)

/-- The state within an enclosure of a mode. -/
def inside (e : Enclosure) (m : Mode) : State := ⟨[e.scanner], m, some (.style e.style)⟩

/-- The state behind an enclosure of a mode. -/
def outside (e : Enclosure) (m : Mode) : State := ⟨[], m, some (.style e.style)⟩

theorem paint_append (e : Enclosure) (s t : Text) : e.paint (s ++ t) = e.paint s ++ e.paint t :=
  List.map_append

theorem opening_ne_nil (e : Enclosure) : e.opening ≠ [] := by
  cases e with
  | comment syn => cases syn <;> exact List.cons_ne_nil _ _
  | string quote => exact List.cons_ne_nil _ _

theorem closing_ne_nil (e : Enclosure) : e.closing ≠ [] := by
  cases e with
  | comment syn => cases syn <;> exact List.cons_ne_nil _ _
  | string quote => exact List.cons_ne_nil _ _

section Step

variable (e : Enclosure)

theorem step_closing (after : Text) :
    e.scanner.step (e.closing ++ after) = some ⟨e.style, e.closing, after, true⟩ := by
  cases e with
  | comment syn =>
    have hsplit : (Lexeme.commentClose syn).split? ((comment syn).closing ++ after) =
        some ((comment syn).closing, after) := by
      cases syn <;> exact Pattern.split?_literal_append (List.cons_ne_nil _ _) after
    rw [scanner, Scanner.step, hsplit]
    rfl
  | string quote => simp [scanner, closing, style, Scanner.step]

variable {e}

theorem step_cons {c : Char} {s : Text} (h : ¬ e.closing <+: c :: s) :
    e.scanner.step (c :: s) = some ⟨e.style, [c], s, false⟩ := by
  cases e with
  | comment syn =>
    have hsplit : (Lexeme.commentClose syn).split? (c :: s) = none := by
      cases syn <;> exact Pattern.split?_literal_eq_none h
    rw [scanner, Scanner.step, hsplit]
    rfl
  | string quote =>
    have hne : c ≠ quote := by
      rintro rfl
      exact h (List.prefix_append [c] s)
    simp [scanner, style, Scanner.step, hne]

theorem step_nil : e.scanner.step [] = some ⟨e.style, [], [], false⟩ := by
  cases e with
  | comment syn =>
    have hsplit : (Lexeme.commentClose syn).split? [] = none := by
      cases syn <;> exact Pattern.split?_literal_eq_none (by simp)
    rw [scanner, Scanner.step, hsplit]
    rfl
  | string quote => rfl

end Step

section Opening

variable {e : Enclosure} {m : Mode}

theorem find_comment {syn : CommentSyntax} {c : Char} {more : Text}
    (hopening : (comment syn).opening = c :: more) (rest : Text) :
    (Mode.within syn.language).find c (more ++ rest) =
      ⟨.openComment syn, (comment syn).opening, rest⟩ := by
  have hsplit : (Lexeme.commentOpen syn).split? (c :: (more ++ rest)) =
      some ((comment syn).opening, rest) := by
    rw [← List.cons_append, ← hopening]
    cases syn <;> exact Pattern.split?_literal_append (List.cons_ne_nil _ _) rest
  have hfound : (⟨.commentOpen syn, .openComment syn⟩ : Rule).find? (c :: (more ++ rest)) =
      some ⟨.openComment syn, (comment syn).opening, rest⟩ := by rw [Rule.find?, hsplit]; rfl
  cases syn with
  | grammar =>
    cases hopening
    have hbefore : ∀ r ∈ (Mode.within .grammar).rules.take 3,
        r.lexeme.pattern.mayBegin '{' = false := by decide
    exact Mode.find_of_rules (by rfl)
      (fun r hr => Rule.find?_eq_none_of_mayBegin (hbefore r hr) _) hfound
  | logic =>
    cases hopening
    have hbefore : ∀ r ∈ (Mode.within .logic).rules.take 4,
        r.lexeme.pattern.mayBegin '/' = false := by decide
    exact Mode.find_of_rules (by rfl)
      (fun r hr => Rule.find?_eq_none_of_mayBegin (hbefore r hr) _) hfound

theorem find_quote {quote : Char} (h : quote = '"' ∨ quote = '\'') (m : Mode) (rest : Text) :
    m.find quote rest = ⟨.openString quote, [quote], rest⟩ := by
  have hnone : ∀ r ∈ m.rules, r.lexeme.pattern.mayBegin quote = false := by
    cases m with
    | shell => rcases h with rfl | rfl <;> decide
    | within language => cases language <;> rcases h with rfl | rfl <;> decide
  rcases Mode.find_cases m quote rest with ⟨r, hr, hfind⟩ | ⟨-, hfind⟩
  · rw [Rule.find?_eq_none_of_mayBegin (hnone r hr)] at hfind
    cases hfind
  · rw [hfind, Mode.unruled, if_pos h]

/-- Where the rules of a mode apply, the opening mark opens the enclosure. -/
theorem find_opening (h : e.scanner.BelongsTo m) :
    ∃ c more, e.opening = c :: more ∧ Unicode.isWhiteSpace c = false ∧
      ∀ rest, m.find c (more ++ rest) = ⟨e.action, e.opening, rest⟩ := by
  cases e with
  | comment syn =>
    obtain rfl : m = .within syn.language := h
    obtain ⟨c, more, hopening⟩ := List.exists_cons_of_ne_nil (comment syn).opening_ne_nil
    refine ⟨c, more, hopening, ?_, find_comment hopening⟩
    cases syn <;> cases hopening <;> decide
  | string quote =>
    refine ⟨quote, [], rfl, ?_, find_quote h m⟩
    rcases h with rfl | rfl <;> decide

theorem cut_opening (h : e.scanner.BelongsTo m) {gap : Text}
    (hgap : gap.all Unicode.isWhiteSpace = true) (rest : Text) :
    m.cut (gap ++ (e.opening ++ rest)) =
      (⟨e.action, e.opening, rest⟩ : Finding).toCut m gap := by
  obtain ⟨c, more, hopening, hc, hfind⟩ := find_opening h
  rw [hopening, List.cons_append, Mode.cut_of_gap m hgap hc, hfind, ← hopening]

end Opening

section Reading

variable (e : Enclosure) (m : Mode)

theorem after_style (memory : Option Memory) (text : Text) :
    Memory.after memory (some e.style) text = some (.style e.style) := by
  cases e <;> rfl

theorem read_of_step {s taken rest : Text} {closes : Bool}
    (h : e.scanner.step s = some ⟨e.style, taken, rest, closes⟩) : (e.inside m).read s =
      ⟨⟨[], taken, some e.style, .scanner e.scanner e.style⟩, rest,
        ⟨if closes then [] else [e.scanner], m, some (.style e.style)⟩⟩ := by
  have hcut : cut m [e.scanner] s = ⟨.scanner e.scanner e.style, [], taken, rest,
      if closes then [] else [e.scanner], m⟩ := by rw [cut, h]
  rw [State.read, inside, hcut, Origin.style, after_style]

theorem read_closing (after : Text) : (e.inside m).read (e.closing ++ after) =
    ⟨⟨[], e.closing, some e.style, .scanner e.scanner e.style⟩, after, e.outside m⟩ :=
  e.read_of_step m (e.step_closing after)

theorem read_cons {c : Char} {s : Text} (h : ¬ e.closing <+: c :: s) :
    (e.inside m).read (c :: s) =
      ⟨⟨[], [c], some e.style, .scanner e.scanner e.style⟩, s, e.inside m⟩ :=
  e.read_of_step m (step_cons h)

theorem read_opening {st : State} (h : e.scanner.BelongsTo st.mode) {gap : Text}
    (hgap : gap.all Unicode.isWhiteSpace = true) {rest taken left : Text} {closes : Bool}
    (hgave : ∀ sc ∈ st.suspended, sc.step (gap ++ (e.opening ++ rest)) = none)
    (hstep : e.scanner.step rest = some ⟨e.style, taken, left, closes⟩) :
    st.read (gap ++ (e.opening ++ rest)) =
      ⟨⟨gap, e.opening ++ taken, some e.style, .rule e.action⟩, left,
        ⟨if closes then [] else [e.scanner], st.mode, some (.style e.style)⟩⟩ := by
  have hextent : (⟨e.action, e.opening, rest⟩ : Finding).extent =
      (e.opening ++ taken, left, if closes then [] else [e.scanner]) := by
    have hopened : e.scanner.opened rest = (taken, left, if closes then [] else [e.scanner]) := by
      rw [Scanner.opened, hstep]
    have hextent : (⟨e.action, e.opening, rest⟩ : Finding).extent =
        (e.opening ++ (e.scanner.opened rest).1, (e.scanner.opened rest).2) := by
      cases e <;> rfl
    rw [hextent, hopened]
  have hstyle : ∀ text, e.action.style st.mode st.memory text = some e.style := by
    cases e <;> exact fun _ => rfl
  have hmode : (⟨e.action, e.opening, rest⟩ : Finding).modeAfter st.mode = st.mode := by
    cases e <;> rfl
  have hcut := (Cut.cut_of_gaveUp st.mode hgave).trans (cut_opening h hgap rest)
  rw [State.read, hcut, Finding.toCut, hextent, hmode]
  simp only [Origin.style, hstyle, after_style]

end Reading

/-- Readings of which none closes an enclosure, with the characters they make up. -/
structure Open (e : Enclosure) (m : Mode) (painted : List (Char × Option Style))
    (readings : List Reading) : Prop where
  state : ∀ r ∈ readings, r.state = e.inside m
  characters : Reading.characters readings = painted

/-- Readings of which the last one closes an enclosure, with the characters they make
up. -/
structure Closed (e : Enclosure) (m : Mode) (painted : List (Char × Option Style))
    (body : List Reading) (last : Reading) : Prop where
  state : ∀ r ∈ body, r.state = e.inside m
  closes : last.state = e.outside m
  characters : Reading.characters (body ++ [last]) = painted

section Line

variable {e : Enclosure} {m : Mode} {painted whole : List (Char × Option Style)}
  {readings body : List Reading} {r last : Reading}

theorem Open.nil : Open e m [] [] := ⟨fun _ hr => absurd hr List.not_mem_nil, rfl⟩

theorem Open.cons (h : Open e m painted readings) (hr : r.state = e.inside m)
    (hwhole : r.token.characters ++ painted = whole) : Open e m whole (r :: readings) := by
  refine ⟨fun q hq => ?_, (congrArg (r.token.characters ++ ·) h.characters).trans hwhole⟩
  rcases List.mem_cons.mp hq with rfl | hq
  · exact hr
  · exact h.state q hq

theorem Closed.nil (hlast : last.state = e.outside m) (hwhole : last.token.characters = whole) :
    Closed e m whole [] last :=
  ⟨fun _ hr => absurd hr List.not_mem_nil, hlast, (List.append_nil _).trans hwhole⟩

theorem Closed.cons (h : Closed e m painted body last) (hr : r.state = e.inside m)
    (hwhole : r.token.characters ++ painted = whole) : Closed e m whole (r :: body) last := by
  refine ⟨fun q hq => ?_, h.closes, (congrArg (r.token.characters ++ ·) h.characters).trans hwhole⟩
  rcases List.mem_cons.mp hq with rfl | hq
  · exact hr
  · exact h.state q hq

/-- Without a closing mark a line is inside to its end. -/
theorem run_open {line : Text} (h : ¬ e.closing <:+: line) :
    Open e m (e.paint line) ((e.inside m).run line) := by
  induction line with
  | nil =>
    rw [State.run_nil]
    exact .nil
  | cons c s ih =>
    rw [State.run_of_ne_nil _ (List.cons_ne_nil c s), e.read_cons m fun hpre => h hpre.isInfix]
    exact (ih fun hoccurs => h (List.infix_cons hoccurs)).cons rfl rfl

/-- What is inside ends at the first closing mark, and the rules of the mode apply to
what follows. -/
theorem run_closed {front after : Text} (h : Text.FirstMark e.closing front after) :
    ∃ body last, (e.inside m).run (front ++ (e.closing ++ after)) =
        body ++ last :: (e.outside m).run after ∧
      Closed e m (e.paint (front ++ e.closing)) body last := by
  induction front with
  | nil =>
    have hne : e.closing ++ after ≠ [] := by simp [e.closing_ne_nil]
    rw [List.nil_append, List.nil_append, State.run_of_ne_nil _ hne, e.read_closing]
    exact ⟨[], _, rfl, .nil rfl rfl⟩
  | cons c s ih =>
    obtain ⟨hno, hfirst⟩ := Text.firstMark_cons.mp h
    obtain ⟨body, last, hrun, hclosed⟩ := ih hfirst
    have hread := e.read_cons m hno
    rw [List.cons_append, State.run_of_ne_nil _ (List.cons_ne_nil c _), hread, hrun]
    exact ⟨_ :: body, last, rfl, hclosed.cons rfl rfl⟩

end Line

section OpeningLine

variable {e : Enclosure} {st : State} {gap rest : Text} (hmode : e.scanner.BelongsTo st.mode)
  (hgap : gap.all Unicode.isWhiteSpace = true)
  (hgave : ∀ sc ∈ st.suspended, sc.step (gap ++ (e.opening ++ rest)) = none)

/-- The characters from the gap in front of an opening mark on. -/
def paintBehind (e : Enclosure) (gap s : Text) : List (Char × Option Style) :=
  gap.map (·, none) ++ e.paint (e.opening ++ s)

include hmode hgap hgave

theorem run_opening {taken left : Text} {closes : Bool}
    (hstep : e.scanner.step rest = some ⟨e.style, taken, left, closes⟩) :
    st.run (gap ++ (e.opening ++ rest)) =
      ⟨⟨gap, e.opening ++ taken, some e.style, .rule e.action⟩, left,
        ⟨if closes then [] else [e.scanner], st.mode, some (.style e.style)⟩⟩ ::
      State.run ⟨if closes then [] else [e.scanner], st.mode, some (.style e.style)⟩ left := by
  have hne : gap ++ (e.opening ++ rest) ≠ [] := by simp [e.opening_ne_nil]
  rw [st.run_of_ne_nil hne, e.read_opening hmode hgap hgave hstep]

theorem run_opening_open (h : ¬ e.closing <:+: rest) :
    st.run (gap ++ (e.opening ++ rest)) ≠ [] ∧
      Open e st.mode (e.paintBehind gap rest) (st.run (gap ++ (e.opening ++ rest))) := by
  cases rest with
  | nil =>
    rw [run_opening hmode hgap hgave step_nil, State.run_nil]
    exact ⟨List.cons_ne_nil _ _, Open.nil.cons rfl (List.append_nil _)⟩
  | cons c s =>
    rw [run_opening hmode hgap hgave (step_cons fun hpre => h hpre.isInfix)]
    refine ⟨List.cons_ne_nil _ _, ?_⟩
    refine (run_open fun hoccurs => h (List.infix_cons hoccurs)).cons rfl ?_
    simp [Token.characters, paintBehind, paint]

theorem run_opening_closed {front after : Text} (hrest : rest = front ++ (e.closing ++ after))
    (h : Text.FirstMark e.closing front after) :
    ∃ body last, st.run (gap ++ (e.opening ++ rest)) =
        body ++ last :: (e.outside st.mode).run after ∧
      Closed e st.mode (e.paintBehind gap (front ++ e.closing)) body last := by
  subst hrest
  cases front with
  | nil =>
    rw [run_opening hmode hgap hgave (e.step_closing after)]
    exact ⟨[], _, rfl, .nil rfl rfl⟩
  | cons c s =>
    obtain ⟨hno, hfirst⟩ := Text.firstMark_cons.mp h
    obtain ⟨body, last, hrun, hclosed⟩ := run_closed hfirst
    rw [run_opening hmode hgap hgave (step_cons hno)]
    refine ⟨_ :: body, last, congrArg (_ :: ·) hrun, hclosed.cons rfl ?_⟩
    simp [Token.characters, paintBehind, paint]

end OpeningLine
end Enclosure
end Highlighter
