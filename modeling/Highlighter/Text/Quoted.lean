/-
Quoted texts, as they appear in messages.

A quoted text stands between double quotes.  A quote and a backslash inside it
are preceded by a backslash, a line feed, a carriage return, a tab and a null have
short names, and every other character that does not show a form of its own, or
would attach to the one before it, is written as its code point in braces.
-/
import Highlighter.Text.Basic
import Highlighter.Unicode.Printable

namespace Highlighter
namespace Text

def codePointEscape (c : Char) : Text :=
  '\\' :: 'u' :: '{' :: (Nat.toDigits 16 c.toNat ++ ['}'])

/-- The form of one character inside a quoted text. -/
def quotedChar (c : Char) : Text :=
  if c = '"' ∨ c = '\\' then ['\\', c]
  else if c = '\n' then ['\\', 'n']
  else if c = '\r' then ['\\', 'r']
  else if c = '\t' then ['\\', 't']
  else if c = '\x00' then ['\\', '0']
  else if Unicode.isAttachingMark c || !Unicode.isPrintable c then codePointEscape c
  else [c]

def quoted (s : Text) : Text := '"' :: (s.flatMap quotedChar ++ ['"'])

end Text
end Highlighter
