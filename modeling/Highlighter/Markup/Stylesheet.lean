/-
The stylesheet that comes with the pages.

A rule has a selector and declarations.  The rules for the elements of a page are
laid out with a line for each declaration, and the theme, which gives every style
its colour, has a line for each rule.
-/
import Highlighter.Style

namespace Highlighter

namespace Style

def className (s : Style) : Text := "cm-".toList ++ s.name

def colour : Style → Text
  | keyword => "#708".toList
  | builtin => "#30a".toList
  | definition => "#00f".toList
  | metadata => "#555".toList
  | variable1 => "#000".toList
  | variable2 => "#05a".toList
  | variable3 => "#085".toList
  | atom => "#219".toList
  | tag => "#170".toList
  | comment => "#a50".toList
  | string => "#a11".toList
  | number => "#164".toList
  | operator => "#981".toList

end Style

namespace Stylesheet

structure Rule where
  selector : Text
  declarations : List (Text × Text)

def declaration (d : Text × Text) : Text := d.1 ++ ": ".toList ++ d.2 ++ [';']

/-- A rule over several lines, and an empty line after it. -/
def Rule.block (r : Rule) : Text :=
  r.selector ++ " \x7b\n".toList ++
    r.declarations.flatMap (fun d => "  ".toList ++ declaration d ++ ['\n']) ++ "\x7d\n\n".toList

/-- A rule on a line of its own. -/
def Rule.line (r : Rule) : Text :=
  r.selector ++ " \x7b ".toList ++ r.declarations.flatMap (fun d => declaration d ++ [' ']) ++
    "\x7d\n".toList

def rule (selector : String) (declarations : List (String × String)) : Rule :=
  ⟨selector.toList, declarations.map fun (key, value) => (key.toList, value.toList)⟩

def elements : List Rule :=
  [rule "body" [("font-family", "sans-serif"), ("margin", "2em")],
    rule "pre.cm-s-default" [("font-family", "monospace"), ("background", "#fdfdfd"),
      ("border", "1px solid #ddd"), ("padding", "0.5em")],
    rule "textarea.document" [("width", "100%"), ("height", "20em"),
      ("font-family", "monospace")]]

/-- The rule that gives a style its colour. -/
def theme (s : Style) : Rule := ⟨'.' :: s.className, [("color".toList, s.colour)]⟩

def text : Text := elements.flatMap Rule.block ++ Style.all.flatMap (fun s => (theme s).line)

end Stylesheet
end Highlighter
