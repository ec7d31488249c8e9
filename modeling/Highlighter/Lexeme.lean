/-
The lexemes: the smallest pieces of text that the rules speak of.

Every lexeme is given by a pattern for the front of a text.  Reserved words are
whole words, so that a longer word which begins with one of them is not taken for
it.  Identifiers are given by plain ranges of code points, and every character
beyond the no-break space may be part of one.

A lexicon has a pattern for every lexeme.  Texts are read by the patterns of the
lexemes themselves, unless another lexicon is given.
-/
import Highlighter.Pattern
import Highlighter.Vocabulary

namespace Highlighter

inductive CommentSyntax where
  | grammar
  | logic
deriving DecidableEq, Repr

/-- A kind of piece that a text can begin with. -/
inductive Lexeme where
  | keyword (language : Sublanguage)
  | builtin (language : Sublanguage)
  | definer (language : Sublanguage)
  | lineComment (language : Sublanguage)
  | commentOpen (comment : CommentSyntax)
  | commentClose (comment : CommentSyntax)
  | grammarSeparator
  | clauseOperator
  | theorySeparator
  | objectDelimiter
  | declarationDelimiter
  | moduleDelimiter
  | uriScheme
  | uriWord
  /-- An option of a shell command together with its value. -/
  | commandOption
  /-- An option of a shell command that is a single letter. -/
  | commandFlag
  | identifier
  | operator
  | number
deriving DecidableEq, Repr

/-- A pattern for every lexeme. -/
abbrev Lexicon := Lexeme → Pattern

namespace Lexeme

/-- Letters of the Latin alphabet, the underscore, and everything beyond the
no-break space may begin an identifier. -/
def isIdentifierStart (c : Char) : Bool := c == '_' || c.isAlpha || 0xA1 ≤ c.toNat

def isIdentifierPart (c : Char) : Bool := isIdentifierStart c || c.isDigit

def isUriWordPart (c : Char) : Bool := Unicode.isWordCharacter c || c == '.'

/-- The alternatives for an operator in their order.  The first one takes a single
slash or asterisk already, and so the two alternatives for their doubled forms are
never reached. -/
def operatorAlternatives : List Pattern :=
  [.andThen (.oneOf "-+*/%&|^".toList) (.maybe (.char '=')),
    .someOf "<>=".toList.contains,
    .andThen (.literal "//".toList) (.maybe (.char '=')),
    .andThen (.literal "**".toList) (.maybe (.char '=')),
    .literal "!=".toList,
    .oneOf "~!@".toList]

def pattern : Lexeme → Pattern
  | keyword .grammar => .wholeWord (Sublanguage.keywords .grammar)
  | keyword .logic => .wholeWord (Sublanguage.keywords .logic)
  | keyword .theory => .wholeWord (Sublanguage.keywords .theory)
  | builtin .grammar => .wholeWord (Sublanguage.builtins .grammar)
  | builtin .logic => .wholeWord (Sublanguage.builtins .logic)
  | builtin .theory => .wholeWord (Sublanguage.builtins .theory)
  | definer .grammar => .wholeWord (Sublanguage.definers .grammar)
  | definer .logic => .wholeWord (Sublanguage.definers .logic)
  | definer .theory => .wholeWord (Sublanguage.definers .theory)
  | lineComment .grammar => .literal "--".toList
  | lineComment .logic => .literal "%".toList
  | lineComment .theory => .orElse (.literal "/T".toList) (.literal "//".toList)
  | commentOpen .grammar => .literal ['{', '-']
  | commentOpen .logic => .literal ['/', '*']
  | commentClose .grammar => .literal ['-', '}']
  | commentClose .logic => .literal ['*', '/']
  | grammarSeparator => .oneOf [':', ';']
  | clauseOperator => .orElse (.literal ":-".toList) (.literal "->".toList)
  | theorySeparator => .oneOf [':', '?']
  | objectDelimiter => .char '❘'
  | declarationDelimiter => .char '❙'
  | moduleDelimiter => .char '❚'
  | uriScheme => .literal "http".toList
  | uriWord => .someOf isUriWordPart
  | commandOption => .andThen (.char '-') (.andThen (.run Unicode.isWordCharacter)
      (.andThen (.char '=') (.run Unicode.isWordCharacter)))
  | commandFlag => .orElse (.literal "-v".toList) (.literal "-c".toList)
  | identifier => .andThen (.one isIdentifierStart) (.run isIdentifierPart)
  | operator => .anyOf operatorAlternatives
  | number => .someOf Char.isDigit

/-- The text of a lexeme at the front of a text, and the rest. -/
def split? (x : Lexeme) (s : Text) (lexicon : Lexicon := pattern) : Option (Text × Text) :=
  (lexicon x).split? s

section Split

variable {x : Lexeme} {s taken rest : Text} {lexicon : Lexicon}

theorem split?_append (h : x.split? s lexicon = some (taken, rest)) : taken ++ rest = s :=
  Pattern.split?_append h

theorem split?_ne_nil (h : x.split? s lexicon = some (taken, rest)) : taken ≠ [] :=
  Pattern.split?_ne_nil h

end Split

def byteLength? (x : Lexeme) (s : Text) : Option Nat :=
  (x.split? s).map fun parts => Text.byteLength parts.1

end Lexeme
end Highlighter
