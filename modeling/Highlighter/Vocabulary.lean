/-
The reserved words of the sublanguages, and the commands of the shell.

A document is written in one of three sublanguages: grammars, logic programs, and
theories with their views.  Each of them has keywords, names of built-in types,
and definers, the words that open a definition and that also tell the sublanguage
of a document.  The shell has commands of two kinds, those it runs itself and those
it hands to the grammar tool, which have abbreviations as well.
-/
import Highlighter.Text.Basic

namespace Highlighter

/-- A language that a document can turn out to be written in. -/
inductive Sublanguage where
  | grammar
  | logic
  | theory
deriving DecidableEq, Repr

def wordList (words : List String) : List Text := words.map String.toList

namespace Sublanguage

def keywords : Sublanguage → List Text
  | grammar => wordList ["flags", "startcat", "cat", "fun", "of", "lin", "lincat", "with", "open",
      "in", "param", "linref", "table", "let", "case", "overload", "lindef", "def", "data", "oper"]
  | logic => wordList ["kind", "type", "prop", "accumulate", "pi", "sigma"]
  | theory => wordList ["include"]

def builtins : Sublanguage → List Text
  | grammar => wordList ["Str"]
  | logic => wordList ["int", "string", "list"]
  | theory => wordList ["prop", "type"]

/-- The words that open a definition.  The first of them in a document tells its
sublanguage, and the name after one of them is the name defined. -/
def definers : Sublanguage → List Text
  | grammar => wordList ["abstract", "concrete", "resource", "incomplete", "instance", "interface"]
  | logic => wordList ["elpi"]
  | theory => wordList ["theory", "view"]

end Sublanguage

/-- The sequence that a host inserts in front of a line to turn it into a comment. -/
def lineCommentMark : Text := "--".toList

/-- The commands that the shell runs itself. -/
def kernelCommands : List Text :=
  wordList ["show", "archive", "subdir", "clean", "help", "export", "construct"]

/-- The commands that the shell hands to the grammar tool, by their full names. -/
def toolCommands : List Text :=
  wordList ["abstract_info", "align_words", "clitic_analyse", "compute_conctete", "define_command",
    "depencency_graph", "define_tree", "empty", "example_based", "execute_history",
    "generate_random", "generate_trees", "import", "linearize", "linearize_chunks",
    "morpho_analyse", "morpho_quiz", "parse", "print_grammar", "print_history", "put_string",
    "put_tree", "quit", "reload", "read_file", "rank_trees", "show_dependencies", "set_encoding",
    "show_operations", "system_pipe", "show_source", "translation_quiz", "to_trie",
    "unicode_table", "visualize_dependency", "visualize_parse", "visualize_tree", "write_file"]

def toolAbbreviations : List Text :=
  wordList ["ai", "al", "ca", "cc", "dc", "dg", "dt", "e", "eb", "eh", "gr", "gt", "h", "i", "l",
    "lc", "ma", "mq", "p", "pg", "ph", "ps", "pt", "q", "r", "rf", "rt", "sd", "se", "so", "sp",
    "ss", "tq", "tt", "ut", "vd", "vp", "vt", "wf"]

inductive CommandKind where
  | kernel
  | grammarTool
deriving DecidableEq, Repr

def commandKind (word : Text) : Option CommandKind :=
  if word ∈ kernelCommands then some .kernel
  else if word ∈ toolCommands ∨ word ∈ toolAbbreviations then some .grammarTool
  else none

end Highlighter
