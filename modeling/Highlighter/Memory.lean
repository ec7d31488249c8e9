/-
What is remembered of the tokens before, and the styles that depend on it.

The style of a name depends on the last token that had a style.  A token of a
word-like style is remembered by its text and every other one by its style, and a
token without a style leaves the memory as it is.  `Origin.style` gives the style
of any token, and names are the only tokens for which it looks at the memory.
-/
import Highlighter.Cut
import Highlighter.Unicode.Lowercase

namespace Highlighter

/-- What is remembered of a token with a style. -/
inductive Memory where
  | style (s : Style)
  | word (w : Text)
deriving DecidableEq, Repr

namespace Memory

/-- What is remembered after a token, given what was remembered before it. -/
def after (memory : Option Memory) (style : Option Style) (text : Text) : Option Memory :=
  match style with
  | none => memory
  | some s => some (if s.isWordLike then .word text else .style s)

/-- Whether the last token was one of the given words. -/
def isOneOf (words : List Text) : Option Memory → Bool
  | some (.word w) => words.contains w
  | _ => false

end Memory

namespace Mode

/-- The style of a name.  In the shell it is a command, or it is defined by the
option, the import or the export before it.  Within a sublanguage it is defined by a
definer before it, and otherwise it is a variable; in a logic program a name with a
capital letter is a variable of the logic. -/
def nameStyle (m : Mode) (memory : Option Memory) (name : Text) : Option Style :=
  match m with
  | shell =>
    match commandKind name with
    | some .kernel => some .keyword
    | some .grammarTool => some .tag
    | none =>
      if memory = some (.style .variable2) ∨
          Memory.isOneOf (wordList ["export", "import"]) memory then
        some .definition
      else none
  | within .grammar =>
    if Memory.isOneOf (Sublanguage.definers .grammar) memory then some .definition
    else if Memory.isOneOf (wordList ["of"]) memory then some .metadata
    else some .variable1
  | within .logic =>
    if Memory.isOneOf (Sublanguage.definers .logic) memory then some .definition
    else if Memory.isOneOf (wordList ["of"]) memory then some .metadata
    else if Unicode.lowercase name ≠ name then some .variable2
    else some .variable1
  | within .theory =>
    if Memory.isOneOf (Sublanguage.definers .theory) memory then some .definition
    else some .variable1

end Mode

namespace Action

def style (a : Action) (m : Mode) (memory : Option Memory) (text : Text) : Option Style :=
  match a with
  | paint s => some s
  | name => m.nameStyle memory text
  | latch _ => some .keyword
  | lineComment | openComment _ => some .comment
  | openString _ => some .string
  | openUri => some .variable2
  | leave => none

end Action

namespace Origin

def style (o : Origin) (m : Mode) (memory : Option Memory) (text : Text) : Option Style :=
  match o with
  | blank => none
  | rule action => action.style m memory text
  | scanner _ s => some s

/-- Only the style of a name depends on the memory. -/
theorem style_eq_of_ne_name {o : Origin} (h : o ≠ .rule .name) (m : Mode)
    (memory₁ memory₂ : Option Memory) (text : Text) :
    o.style m memory₁ text = o.style m memory₂ text := by
  cases o with
  | blank => rfl
  | scanner sc s => rfl
  | rule action =>
    cases action with
    | name => exact absurd rfl h
    | _ => rfl

end Origin
end Highlighter
