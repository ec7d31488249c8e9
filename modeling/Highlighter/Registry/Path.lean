/-
The extension of a file path.

A path consists of segments between slashes.  Segments that are empty or a single
dot do not count, so that the last segment is the name of the file whatever slashes
and dots follow it.  Two dots are no name.  The extension is what stands behind the
last dot of the name, unless this dot is the first character of the name.

Paths are texts here.  A file system also has paths of bytes that are no text.  They
are left out, and with them the extensions that could not be asked for.
-/
import Highlighter.Text.Basic
import Highlighter.Text.Split

namespace Highlighter
namespace Path

/-- The segments of a path that count. -/
def segments (path : Text) : List Text :=
  (Text.fields '/' path).filter fun s => s ≠ [] ∧ s ≠ ['.']

def fileName? (path : Text) : Option Text :=
  (segments path).getLast?.filter (· ≠ ['.', '.'])

def nameExtension? (name : Text) : Option Text :=
  ((Text.cutLast? '.' name).filter (·.1 ≠ [])).map Prod.snd

def extension? (path : Text) : Option Text := (fileName? path).bind nameExtension?

end Path
end Highlighter
