/-
Cutting the next token off a text.

Where a token ends, and which scanners and which mode the next one is read with,
depends on the text, on the mode and on the suspended scanners alone.  `cut` works
it out.  The innermost scanner reads the token; a scanner that gives up is dropped,
and the one around it reads on at the same place.  Once no scanner is left the
rules of the mode apply, after white space has been skipped.

`cut_append` says that the white space before the token, the token and the rest
make up the text, and `rest_length_lt` that a text which is not empty becomes
shorter.
-/
import Highlighter.Rule
import Highlighter.Unicode.WhiteSpace

namespace Highlighter

/-- What a token was made by. -/
inductive Origin where
  | blank
  | rule (action : Action)
  | scanner (sc : Scanner) (style : Style)
deriving DecidableEq, Repr

/-- A token cut off a text, before its style is settled. -/
structure Cut where
  origin : Origin
  gap : Text
  text : Text
  rest : Text
  /-- The scanners that are at work after it, the innermost first. -/
  suspended : List Scanner
  mode : Mode

namespace Scanner

/-- The part of a token that a scanner reads when it has just been opened, what is
left, and the scanners at work after it. -/
def opened (sc : Scanner) (s : Text) (lexicon : Lexicon := Lexeme.pattern) :
    Text × Text × List Scanner :=
  match sc.step s lexicon with
  | some st => (st.taken, st.rest, if st.closes then [] else [sc])
  | none => ([], s, [])

theorem opened_append (sc : Scanner) (s : Text) (lexicon : Lexicon := Lexeme.pattern) :
    (sc.opened s lexicon).1 ++ (sc.opened s lexicon).2.1 = s := by
  rw [opened]
  cases h : sc.step s lexicon with
  | some st => exact step_append h
  | none => rfl

end Scanner

namespace Finding

/-- The text of the token that a finding begins, what follows the token, and the
scanners at work after it.  A comment to the end of the line takes the whole rest,
and a comment or a string that is opened takes its first step at once. -/
def extent (f : Finding) (lexicon : Lexicon := Lexeme.pattern) : Text × Text × List Scanner :=
  match f.action with
  | .lineComment => (f.taken ++ f.rest, [], [])
  | .openComment syn =>
    let (more, rest, suspended) := (Scanner.comment syn).opened f.rest lexicon
    (f.taken ++ more, rest, suspended)
  | .openString quote =>
    let (more, rest, suspended) := (Scanner.string quote).opened f.rest lexicon
    (f.taken ++ more, rest, suspended)
  | .openUri => (f.taken, f.rest, [.uri])
  | .paint _ | .name | .latch _ | .leave => (f.taken, f.rest, [])

def modeAfter (f : Finding) (m : Mode) : Mode :=
  match f.action with
  | .latch language => .within language
  | _ => m

theorem extent_append (f : Finding) (lexicon : Lexicon := Lexeme.pattern) :
    (f.extent lexicon).1 ++ (f.extent lexicon).2.1 = f.taken ++ f.rest := by
  unfold extent
  split
  · exact List.append_nil _
  · exact (List.append_assoc _ _ _).trans (congrArg _ (Scanner.opened_append _ _ lexicon))
  · exact (List.append_assoc _ _ _).trans (congrArg _ (Scanner.opened_append _ _ lexicon))
  all_goals rfl

/-- The token begins with what was found. -/
theorem taken_isPrefix_extent (f : Finding) (lexicon : Lexicon := Lexeme.pattern) :
    f.taken <+: (f.extent lexicon).1 := by
  unfold extent
  split
  · exact List.prefix_append _ _
  · exact List.prefix_append _ _
  · exact List.prefix_append _ _
  all_goals exact List.prefix_rfl

end Finding

namespace Mode

def cut (m : Mode) (s : Text) (lexicon : Lexicon := Lexeme.pattern) : Cut :=
  match s.dropWhile Unicode.isWhiteSpace with
  | [] => ⟨.blank, [], s, [], [], m⟩
  | c :: rest =>
    let found := m.find c rest lexicon
    let (text, rest, suspended) := found.extent lexicon
    ⟨.rule found.action, s.takeWhile Unicode.isWhiteSpace, text, rest, suspended, found.modeAfter m⟩

theorem cut_append (m : Mode) (s : Text) (lexicon : Lexicon := Lexeme.pattern) :
    (m.cut s lexicon).gap ++ (m.cut s lexicon).text ++ (m.cut s lexicon).rest = s := by
  unfold cut
  split
  · exact List.append_nil s
  · case h_2 c rest hdrop =>
    have hextent := (m.find c rest lexicon).extent_append lexicon
    rw [m.find_append c rest lexicon, ← hdrop] at hextent
    show s.takeWhile _ ++ ((m.find c rest lexicon).extent lexicon).1 ++
      ((m.find c rest lexicon).extent lexicon).2.1 = s
    rw [List.append_assoc, hextent, List.takeWhile_append_dropWhile]

theorem cut_text_ne_nil (m : Mode) {s : Text} (hs : s ≠ [])
    (lexicon : Lexicon := Lexeme.pattern) : (m.cut s lexicon).text ≠ [] := by
  unfold cut
  split
  · exact hs
  · case h_2 c rest hdrop =>
    intro hnil
    have hpre := (m.find c rest lexicon).taken_isPrefix_extent lexicon
    have hnil' : ((m.find c rest lexicon).extent lexicon).1 = [] := hnil
    rw [hnil', List.prefix_nil] at hpre
    exact m.find_ne_nil c rest lexicon hpre

end Mode

/-- Cuts a token with the given scanners suspended, the innermost first. -/
def cut (m : Mode) (suspended : List Scanner) (s : Text) (lexicon : Lexicon := Lexeme.pattern) :
    Cut :=
  match suspended with
  | [] => m.cut s lexicon
  | sc :: around =>
    match sc.step s lexicon with
    | some st =>
      ⟨.scanner sc st.style, [], st.taken, st.rest, if st.closes then around else sc :: around, m⟩
    | none => cut m around s lexicon

namespace Cut

variable (m : Mode) (suspended : List Scanner)

theorem append_eq (s : Text) (lexicon : Lexicon := Lexeme.pattern) :
    (cut m suspended s lexicon).gap ++ (cut m suspended s lexicon).text ++
      (cut m suspended s lexicon).rest = s := by
  induction suspended with
  | nil => exact m.cut_append s lexicon
  | cons sc around ih =>
    unfold cut
    cases h : sc.step s lexicon with
    | some st => exact Scanner.step_append h
    | none => exact ih

theorem text_ne_nil {s : Text} (hs : s ≠ []) (lexicon : Lexicon := Lexeme.pattern) :
    (cut m suspended s lexicon).text ≠ [] := by
  induction suspended with
  | nil => exact m.cut_text_ne_nil hs lexicon
  | cons sc around ih =>
    unfold cut
    cases h : sc.step s lexicon with
    | some st => exact Scanner.step_ne_nil h hs
    | none => exact ih

theorem rest_length_lt {s : Text} (hs : s ≠ []) (lexicon : Lexicon := Lexeme.pattern) :
    (cut m suspended s lexicon).rest.length < s.length := by
  have happ := congrArg List.length (append_eq m suspended s lexicon)
  have hpos := List.length_pos_iff.mpr (text_ne_nil m suspended hs lexicon)
  rw [List.length_append, List.length_append] at happ
  omega

end Cut
end Highlighter
