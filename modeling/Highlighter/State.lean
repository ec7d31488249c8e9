/-
The state of a document between two tokens, and reading token after token.

A state holds the scanners that are suspended, the mode, and what is remembered of
the last token with a style.  `State.read` reads one token of a text, and
`State.run` reads a line to its end.  A line that is not empty becomes shorter with
every token, so that a run ends, and `run_flatten` says that its tokens, each with
the white space in front of it, make up the line.
-/
import Highlighter.Memory

namespace Highlighter

/-- What has to be known of the text before in order to read on. -/
structure State where
  /-- The scanners that are suspended, the innermost first. -/
  suspended : List Scanner
  mode : Mode
  memory : Option Memory
deriving DecidableEq, Repr

structure Token where
  gap : Text
  text : Text
  style : Option Style
  origin : Origin

namespace Token

/-- Whether a token is white space without a style, which is not reported. -/
def isBlank (t : Token) : Bool := t.style.isNone && t.text.all Unicode.isWhiteSpace

end Token

structure Reading where
  token : Token
  rest : Text
  state : State

namespace State

def start : State := ⟨[], .shell, none⟩

def read (st : State) (s : Text) (lexicon : Lexicon := Lexeme.pattern) : Reading :=
  let c := cut st.mode st.suspended s lexicon
  let style := c.origin.style st.mode st.memory c.text
  ⟨⟨c.gap, c.text, style, c.origin⟩, c.rest,
    ⟨c.suspended, c.mode, Memory.after st.memory style c.text⟩⟩

theorem read_append (st : State) (s : Text) (lexicon : Lexicon := Lexeme.pattern) :
    (st.read s lexicon).token.gap ++ (st.read s lexicon).token.text ++
      (st.read s lexicon).rest = s :=
  Cut.append_eq st.mode st.suspended s lexicon

theorem read_rest_length_lt (st : State) {s : Text} (hs : s ≠ [])
    (lexicon : Lexicon := Lexeme.pattern) : (st.read s lexicon).rest.length < s.length :=
  Cut.rest_length_lt st.mode st.suspended hs lexicon

def run (st : State) (line : Text) (lexicon : Lexicon := Lexeme.pattern) : List Reading :=
  if h : line = [] then []
  else
    have := st.read_rest_length_lt h lexicon
    st.read line lexicon ::
      (st.read line lexicon).state.run (st.read line lexicon).rest lexicon
termination_by line.length

/-- The state after readings, given the state before them. -/
def afterReadings (st : State) (readings : List Reading) : State :=
  readings.getLast?.elim st Reading.state

def afterLine (st : State) (line : Text) (lexicon : Lexicon := Lexeme.pattern) : State :=
  st.afterReadings (st.run line lexicon)

@[simp] theorem run_nil (st : State) (lexicon : Lexicon := Lexeme.pattern) :
    st.run [] lexicon = [] := by
  rw [run, dif_pos rfl]

theorem run_of_ne_nil (st : State) {line : Text} (h : line ≠ [])
    (lexicon : Lexicon := Lexeme.pattern) : st.run line lexicon =
      st.read line lexicon ::
        (st.read line lexicon).state.run (st.read line lexicon).rest lexicon := by
  rw [run, dif_neg h]

/-- The tokens of a line, each with the white space in front of it, make up the line. -/
theorem run_flatten (st : State) (line : Text) :
    (st.run line).flatMap (fun r => r.token.gap ++ r.token.text) = line := by
  fun_induction run st line with
  | case1 st => rfl
  | case2 st line h _ ih =>
    rw [List.flatMap_cons, ih]
    exact st.read_append line

end State
end Highlighter
