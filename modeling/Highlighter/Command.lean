/-
What the commands make of their input.

There are two of them: one lists what is reported of a document, and one shows it as
a page.  Both read the document as bytes, and fail without any output if these are
not the bytes of a text.
-/
import Highlighter.Listing
import Highlighter.Markup.Document
import Highlighter.Text.Utf8

namespace Highlighter
namespace Command

/-- Why a command has failed. -/
inductive Failure where
  | notUtf8
deriving DecidableEq, Repr

def Failure.message : Failure → Text
  | notUtf8 => "the input is not in UTF-8".toList

abbrev Outcome := Except Failure Text

namespace Outcome

def exitCode : Outcome → Nat
  | .ok _ => 0
  | .error _ => 1

def output : Outcome → Text
  | .ok t => t
  | .error _ => []

end Outcome

/-- What becomes of the document that the input holds. -/
def onDocument (f : Text → Text) (input : List UInt8) : Outcome :=
  match Text.decode? input with
  | some s => .ok (f s)
  | none => .error .notUtf8

def listing (input : List UInt8) : Outcome := onDocument Listing.ofDocument input

def defaultTitle : Text := "GF".toList

/-- Shows a document as a page, whose title is the first argument. -/
def page (arguments : List Text) (input : List UInt8) : Outcome :=
  onDocument (fun s => Markup.render (Markup.page (arguments.headD defaultTitle) s)) input

end Command
end Highlighter
