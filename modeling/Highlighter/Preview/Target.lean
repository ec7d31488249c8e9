/-
The path that the target of a request names.

A target is most often a path with a query behind it.  It may also be a whole
address, in which a scheme and an authority stand before the path, and then an
absent path means the root.  An authority or an asterisk alone names no path.
-/
import Highlighter.Text.Basic

namespace Highlighter
namespace Preview
namespace Target

/-- The path at the front of a text: it ends where a query or a fragment begins. -/
def pathOf (s : Text) : Text := s.takeWhile fun c => c ≠ '?' ∧ c ≠ '#'

/-- What follows the authority at the front of a text, which ends before the path,
the query or the fragment. -/
def dropAuthority (s : Text) : Text := s.dropWhile fun c => c ≠ '/' ∧ c ≠ '?' ∧ c ≠ '#'

/-- What follows the scheme of a whole address.  The scheme ends at the first colon,
and two slashes stand behind it. -/
def afterScheme? (s : Text) : Option Text :=
  match s.dropWhile (· ≠ ':') with
  | ':' :: '/' :: '/' :: rest => some rest
  | _ => none

def path? (target : Text) : Option Text :=
  if target.head? = some '/' then some (pathOf target)
  else
    (afterScheme? target).map fun address =>
      match pathOf (dropAuthority address) with
      | [] => ['/']
      | path => path

end Target
end Preview
end Highlighter
