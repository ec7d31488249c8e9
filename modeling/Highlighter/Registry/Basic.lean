/-
The registry of modes.

A host registers the modes it knows and asks for the one that fits a document, by
its name, by a MIME type, or by the extension of a file.  MIME types and extensions
are compared without regard to the case of ASCII letters.  No mode is registered
whose name, MIME type or extension already leads to another one, and the refusal
says which of them it was and to whom it belongs.

The dot in front of an extension is dropped from what is asked for.  The extensions
of a mode are taken as they are given, without that dot.
-/
import Highlighter.Registry.Path
import Highlighter.Text.Quoted
import Highlighter.Vocabulary

namespace Highlighter

namespace Text

def sameIgnoringCase (s t : Text) : Bool := s.map Char.toLower == t.map Char.toLower

theorem sameIgnoringCase_iff {s t : Text} :
    sameIgnoringCase s t = true ↔ s.map Char.toLower = t.map Char.toLower :=
  beq_iff_eq

end Text

/-- What a host has to know of a mode. -/
structure Descriptor where
  name : Text
  displayName : Text
  mime : Text
  extensions : List Text
  lineComment : Text
deriving DecidableEq, Repr

namespace Descriptor

def grammar : Descriptor :=
  ⟨"gf".toList, "GF".toList, "text/gf".toList, ["gf".toList], lineCommentMark⟩

def hasExtension (d : Descriptor) (e : Text) : Bool :=
  d.extensions.any fun own => Text.sameIgnoringCase own e

end Descriptor

inductive Conflict where
  | name (taken : Text)
  | mime (taken owner : Text)
  | extension (taken owner : Text)
deriving DecidableEq, Repr

namespace Conflict

def message : Conflict → Text
  | name taken => "mode ".toList ++ Text.quoted taken ++ " is already registered".toList
  | mime taken owner =>
    "MIME type ".toList ++ Text.quoted taken ++ " already belongs to mode ".toList ++
      Text.quoted owner
  | extension taken owner =>
    "extension ".toList ++ Text.quoted taken ++ " already belongs to mode ".toList ++
      Text.quoted owner

end Conflict

/-- The modes that are registered, in the order of their registration. -/
structure Registry where
  modes : List Descriptor

namespace Registry

def empty : Registry := ⟨[]⟩

def byName? (r : Registry) (name : Text) : Option Descriptor :=
  r.modes.find? (·.name == name)

def byMime? (r : Registry) (mime : Text) : Option Descriptor :=
  r.modes.find? fun d => Text.sameIgnoringCase d.mime mime

/-- An extension without the dot in front of it. -/
def bareExtension : Text → Text
  | '.' :: rest => rest
  | e => e

/-- The mode of an extension, which may have a dot in front. -/
def byExtension? (r : Registry) (e : Text) : Option Descriptor :=
  r.modes.find? (·.hasExtension (bareExtension e))

/-- The mode of a file, by the extension of its path.  The path is a text, and so its
extension is one. -/
def forPath? (r : Registry) (path : Text) : Option Descriptor :=
  (Path.extension? path).bind r.byExtension?

/-- What stands against a new mode.  Its name is looked at first, then its MIME type,
and then its extensions one by one. -/
def conflict? (r : Registry) (d : Descriptor) : Option Conflict :=
  ((r.byName? d.name).map fun _ => .name d.name)
    |>.or ((r.byMime? d.mime).map fun owner => .mime d.mime owner.name)
    |>.or (d.extensions.findSome? fun e =>
      (r.byExtension? e).map fun owner => .extension e owner.name)

/-- Registers a mode, unless something stands against it. -/
def register (r : Registry) (d : Descriptor) : Except Conflict Registry :=
  match r.conflict? d with
  | some c => .error c
  | none => .ok ⟨r.modes ++ [d]⟩

theorem register_eq_ok_iff {r r' : Registry} {d : Descriptor} :
    r.register d = .ok r' ↔ r.conflict? d = none ∧ r' = ⟨r.modes ++ [d]⟩ := by
  unfold register
  cases h : r.conflict? d with
  | some c => simp
  | none => simp [eq_comm]

theorem register_eq_error_iff {r : Registry} {d : Descriptor} {c : Conflict} :
    r.register d = .error c ↔ r.conflict? d = some c := by
  unfold register
  cases h : r.conflict? d with
  | some c' => simp
  | none => simp

end Registry
end Highlighter
