/-
The rules by which a token is recognised where no scanner is at work.

A document is in a mode: in the shell, or within a sublanguage.  The mode has a
list of rules, each of them a lexeme and what becomes of a text that begins with
it, and the first rule whose lexeme is found decides.  Where none applies, a quote
opens a string and any other character stands for itself.

What `Mode.find` finds depends on the mode and on the text, and on nothing that
came before.  Only the style of a name looks back, and it is settled later.
-/
import Highlighter.Scanner

namespace Highlighter

/-- Which rules apply to a document. -/
inductive Mode where
  | shell
  | within (language : Sublanguage)
deriving DecidableEq, Repr

/-- What becomes of the text that a rule has found. -/
inductive Action where
  | paint (style : Style)
  | name
  /-- It is a keyword, and the document is in a sublanguage from here on. -/
  | latch (language : Sublanguage)
  | lineComment
  | openComment (syn : CommentSyntax)
  | openString (quote : Char)
  | openUri
  /-- It has no style. -/
  | leave
deriving DecidableEq, Repr

/-- A lexeme, and what becomes of a text that begins with it. -/
structure Rule where
  lexeme : Lexeme
  action : Action

structure Finding where
  action : Action
  taken : Text
  rest : Text

namespace Rule

def find? (r : Rule) (s : Text) (lexicon : Lexicon := Lexeme.pattern) : Option Finding :=
  (r.lexeme.split? s lexicon).map fun (taken, rest) => ⟨r.action, taken, rest⟩

end Rule

namespace Mode

/-- The rules that a mode has for itself, in their order. -/
def ownRules : Mode → List Rule
  | shell =>
    [⟨.definer .grammar, .latch .grammar⟩,
      ⟨.definer .logic, .latch .logic⟩,
      ⟨.definer .theory, .latch .theory⟩,
      ⟨.identifier, .name⟩,
      ⟨.commandOption, .paint .variable2⟩,
      ⟨.commandFlag, .paint .variable2⟩]
  | within .grammar =>
    [⟨.builtin .grammar, .paint .builtin⟩,
      ⟨.keyword .grammar, .paint .keyword⟩,
      ⟨.definer .grammar, .paint .keyword⟩,
      ⟨.commentOpen .grammar, .openComment .grammar⟩,
      ⟨.lineComment .grammar, .lineComment⟩,
      ⟨.identifier, .name⟩,
      ⟨.grammarSeparator, .paint .metadata⟩]
  | within .logic =>
    [⟨.clauseOperator, .paint .operator⟩,
      ⟨.builtin .logic, .paint .builtin⟩,
      ⟨.keyword .logic, .paint .keyword⟩,
      ⟨.definer .logic, .paint .keyword⟩,
      ⟨.commentOpen .logic, .openComment .logic⟩,
      ⟨.lineComment .logic, .lineComment⟩,
      ⟨.identifier, .name⟩]
  | within .theory =>
    [⟨.objectDelimiter, .paint .variable3⟩,
      ⟨.declarationDelimiter, .paint .metadata⟩,
      ⟨.moduleDelimiter, .paint .atom⟩,
      ⟨.builtin .theory, .paint .builtin⟩,
      ⟨.keyword .theory, .paint .keyword⟩,
      ⟨.definer .theory, .paint .keyword⟩,
      ⟨.uriScheme, .openUri⟩,
      ⟨.lineComment .theory, .lineComment⟩,
      ⟨.identifier, .name⟩,
      ⟨.theorySeparator, .paint .metadata⟩]

/-- The rules that all modes have after their own. -/
def commonRules : List Rule :=
  [⟨.number, .paint .number⟩, ⟨.operator, .paint .operator⟩]

def rules (m : Mode) : List Rule := m.ownRules ++ commonRules

/-- What becomes of a character to which no rule applies. -/
def unruled (c : Char) : Action := if c = '"' ∨ c = '\'' then .openString c else .leave

/-- What is found at the front of a text, given by its first character and its rest. -/
def find (m : Mode) (c : Char) (s : Text) (lexicon : Lexicon := Lexeme.pattern) : Finding :=
  (m.rules.findSome? (·.find? (c :: s) lexicon)).getD ⟨unruled c, [c], s⟩

section Find

variable (m : Mode) (c : Char) (s : Text) (lexicon : Lexicon := Lexeme.pattern)

/-- A finding comes from a rule of the mode, or is a single character that no rule takes. -/
theorem find_cases :
    (∃ r ∈ m.rules, r.find? (c :: s) lexicon = some (m.find c s lexicon)) ∨
      (∀ r ∈ m.rules, r.find? (c :: s) lexicon = none) ∧
        m.find c s lexicon = ⟨unruled c, [c], s⟩ := by
  unfold find
  cases h : m.rules.findSome? (·.find? (c :: s) lexicon) with
  | some f => exact Or.inl (List.exists_of_findSome?_eq_some h)
  | none => exact Or.inr ⟨List.findSome?_eq_none_iff.mp h, rfl⟩

theorem find_append : (m.find c s lexicon).taken ++ (m.find c s lexicon).rest = c :: s := by
  rcases find_cases m c s lexicon with ⟨r, _, hr⟩ | ⟨_, hf⟩
  · obtain ⟨⟨taken, rest⟩, hsplit, hf⟩ := Option.map_eq_some_iff.mp hr
    rw [← hf]
    exact Lexeme.split?_append hsplit
  · rw [hf]
    rfl

theorem find_ne_nil : (m.find c s lexicon).taken ≠ [] := by
  rcases find_cases m c s lexicon with ⟨r, _, hr⟩ | ⟨_, hf⟩
  · obtain ⟨⟨taken, rest⟩, hsplit, hf⟩ := Option.map_eq_some_iff.mp hr
    rw [← hf]
    exact Lexeme.split?_ne_nil hsplit
  · rw [hf]
    exact List.cons_ne_nil c []

end Find

end Mode
end Highlighter
