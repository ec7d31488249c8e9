/-
The server of the preview, as a function from requests to responses.

A request is answered from the sessions that are kept, and a text that is sent to a
session is kept there.  The front page leads to a session with a name of its own.
Every answer is settled by the path first and by the method after it.  A request that
is refused leaves the sessions as they are.
-/
import Highlighter.Preview.Form
import Highlighter.Preview.Session
import Highlighter.Preview.Target

namespace Highlighter
namespace Preview

def defaultAddress : Text := "0.0.0.0:3000".toList

structure Request where
  method : Text
  /-- The target: a path with a query behind it, or a whole address. -/
  target : Text
  contentType : Option Text
  body : List UInt8

structure Response where
  status : Nat
  contentType : Option Text
  location : Option Text
  body : Text
deriving DecidableEq, Repr

/-- What a method asks for.  A request for the head is answered like one for the
whole, less the body. -/
inductive Method where
  | get
  | head
  | post
  | other
deriving DecidableEq, Repr

def Method.ofName (name : Text) : Method :=
  if name = "GET".toList then get
  else if name = "HEAD".toList then head
  else if name = "POST".toList then post
  else other

inductive Route where
  | front
  | stylesheet
  | session (segment : Text)
deriving DecidableEq, Repr

def Route.ofPath? (path : Text) : Option Route :=
  match Text.fields '/' path with
  | [[], []] => some front
  | [[], segment] => if segment = "style.css".toList then some stylesheet else none
  | [[], kind, segment] =>
    if kind = "sessions".toList ∧ segment ≠ [] then some (session segment) else none
  | _ => none

def Route.ofTarget? (target : Text) : Option Route := (Target.path? target).bind ofPath?

namespace Response

/-- An answer without a body. -/
def bare (status : Nat) : Response := ⟨status, none, none, []⟩

def markup (items : List Markup.Item) : Response :=
  ⟨200, some "text/html; charset=utf-8".toList, none, Markup.render items⟩

def refusal (status : Nat) (reason : Text) : Response :=
  ⟨status, some "text/plain; charset=utf-8".toList, none, reason⟩

def withoutBody (r : Response) : Response := { r with body := [] }

end Response

/-- Why a request for a session is refused. -/
inductive Refusal where
  | nameNotUtf8
  | notForm
  | tooLong
  | noText
deriving DecidableEq, Repr

namespace Refusal

def status : Refusal → Nat
  | nameNotUtf8 => 400
  | notForm => 415
  | tooLong => 413
  | noText => 400

def reason : Refusal → Text
  | nameNotUtf8 => "Invalid URL: Invalid UTF-8 in \x60session\x60".toList
  | notForm =>
    "Form requests must have \x60Content-Type: application/x-www-form-urlencoded\x60".toList
  | tooLong => "Failed to buffer the request body: length limit exceeded".toList
  | noText => "missing form field \"text\"".toList

def response (r : Refusal) : Response := .refusal r.status r.reason

end Refusal

def sessionName (segment : Text) : Except Refusal Text :=
  match Text.decode? (percentDecode (Text.encode segment)) with
  | some name => .ok name
  | none => .error .nameNotUtf8

/-- Whether the value of a header is plain text: the characters of ASCII that show a
form of their own, the space and the tab. -/
def isPlainHeader (value : Text) : Bool := value.all fun c => c = '\t' ∨ (' ' ≤ c ∧ c ≤ '~')

/-- Whether a body is said to be a form.  Parameters of the type may follow, as long
as the whole of it is plain text. -/
def isFormType (contentType : Option Text) : Bool :=
  contentType.any fun value =>
    isPlainHeader value && "application/x-www-form-urlencoded".toList.isPrefixOf value

/-- The greatest length of a form in bytes, two mebibytes. -/
def maxFormLength : Nat := 2 * 1024 * 1024

/-- The text that a request sends to a session.  The type of the body is looked at
before its length, and its length before its fields. -/
def sentText (r : Request) : Except Refusal Text :=
  if !isFormType r.contentType then .error .notForm
  else if maxFormLength < r.body.length then .error .tooLong
  else
    match Form.value? (Form.parse r.body) "text".toList with
    | some text => .ok text
    | none => .error .noText

/-- The segment that names a new session, made from a random number: its eight
hexadecimal digits. -/
def freshSegment (seed : UInt32) : Text := (Nat.toDigits 16 seed.toNat).leftpad 8 '0'

def showSession (store : Store) (segment : Text) : Except Refusal Response :=
  (sessionName segment).map fun name => .markup ((store.get name).page name)

/-- Sends a text to the session that a segment of a path stands for, and shows it. -/
def updateSession (store : Store) (segment : Text) (r : Request) :
    Except Refusal (Response × Store) := do
  let name ← sessionName segment
  let text ← sentText r
  let session := (store.get name).update text
  return (.markup (session.page name), store.put name session)

/-- Answers a request for something that can only be looked at. -/
def readOnly (m : Method) (r : Response) : Response :=
  match m with
  | .get => r
  | .head => r.withoutBody
  | .post | .other => .bare 405

def toNewSession (seed : UInt32) : Response :=
  ⟨307, none, some ("/sessions/".toList ++ freshSegment seed), []⟩

def answerSession (store : Store) (segment : Text) (r : Request) : Response × Store :=
  match Method.ofName r.method with
  | .post =>
    match updateSession store segment r with
    | .ok answered => answered
    | .error e => (e.response, store)
  | m =>
    match showSession store segment with
    | .ok page => (readOnly m page, store)
    | .error e => (readOnly m e.response, store)

/-- Answers a request, given a random number for the name of a new session, and gives
the sessions that are kept afterwards. -/
def answer (seed : UInt32) (store : Store) (r : Request) : Response × Store :=
  let m := Method.ofName r.method
  match Route.ofTarget? r.target with
  | none => (.bare 404, store)
  | some .front => (readOnly m (toNewSession seed), store)
  | some .stylesheet => (readOnly m ⟨200, some "text/css".toList, none, Stylesheet.text⟩, store)
  | some (.session segment) => answerSession store segment r

def serve (store : Store) : List (UInt32 × Request) → List Response
  | [] => []
  | (seed, r) :: rest =>
    let answered := answer seed store r
    answered.1 :: serve answered.2 rest

theorem length_serve (store : Store) (requests : List (UInt32 × Request)) :
    (serve store requests).length = requests.length := by
  induction requests generalizing store with
  | nil => rfl
  | cons entry rest ih => rw [serve, List.length_cons, List.length_cons, ih]

end Preview
end Highlighter
