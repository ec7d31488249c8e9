/-
Sessions that are made when they are first asked for.

A `Store` has a session under every name.  Here nothing is kept to begin with, and a
session comes into being with the first request that needs it, whether this looks at it
or sends it a text, and knows its own name from then on.  The handlers go step by step:
the name and the form are read before a session is looked for, so that a refused request
makes none.  `Sessions.Agrees.run_serve` says that the answers are those of a store.
-/
import Highlighter.Proofs.Preview.Answer

namespace Highlighter
namespace Preview

/-- A session with the name it was made under. -/
structure NamedSession where
  name : Text
  session : Session

namespace NamedSession

def new (name : Text) : NamedSession := ⟨name, .new⟩

def page (s : NamedSession) : List Markup.Item := s.session.page s.name

end NamedSession

/-- The sessions that have been made, by the names they are kept under. -/
def Sessions : Type := Text → Option NamedSession

namespace Sessions

def none : Sessions := fun _ => Option.none

def insert (k : Sessions) (name : Text) (s : NamedSession) : Sessions :=
  fun other => if other = name then some s else k other

/-- Finds the session that is kept under a name, and makes one where there is none. -/
def findOrCreate (name : Text) : StateM Sessions NamedSession := do
  let k ← get
  match k name with
  | some s => return s
  | Option.none =>
    set (k.insert name (.new name))
    return .new name

def showSession (segment : Text) : ExceptT Refusal (StateM Sessions) Response := do
  let name ← ExceptT.mk (pure (sessionName segment))
  let s ← findOrCreate name
  return .markup s.page

def updateSession (segment : Text) (r : Request) : ExceptT Refusal (StateM Sessions) Response := do
  let name ← ExceptT.mk (pure (sessionName segment))
  let text ← ExceptT.mk (pure (sentText r))
  let s ← findOrCreate name
  let s := { s with session := s.session.update text }
  modify fun k => insert k name s
  return .markup s.page

def orRefusal (handler : ExceptT Refusal (StateM Sessions) Response) : StateM Sessions Response :=
  Refusal.settle <$> handler.run

def answerSession (segment : Text) (r : Request) : StateM Sessions Response :=
  match r.asks with
  | .get => orRefusal (showSession segment)
  | .head => Response.withoutBody <$> orRefusal (showSession segment)
  | .post => orRefusal (updateSession segment r)
  | .other => return .bare 405

def answer (seed : UInt32) (r : Request) : StateM Sessions Response :=
  match Route.ofTarget? r.target with
  | Option.none => return .bare 404
  | some .front => return readOnly r.asks (toNewSession seed)
  | some .stylesheet =>
    return readOnly r.asks ⟨200, some "text/css".toList, Option.none, Stylesheet.text⟩
  | some (.session segment) => answerSession segment r

def serve (requests : List (UInt32 × Request)) : StateM Sessions (List Response) :=
  requests.mapM fun q => answer q.1 q.2

/-- Whether a store has the sessions that have been made, and new ones besides. -/
def Agrees (k : Sessions) (store : Store) : Prop :=
  ∀ name, (k name).getD (.new name) = ⟨name, store.get name⟩

theorem none_agrees : none.Agrees .empty := fun _ => rfl

theorem insert_self (k : Sessions) (name : Text) (s : NamedSession) :
    k.insert name s name = some s := if_pos rfl

theorem insert_of_ne (k : Sessions) {name other : Text} (h : other ≠ name) (s : NamedSession) :
    k.insert name s other = k other := if_neg h

theorem run_orRefusal {handler : ExceptT Refusal (StateM Sessions) Response} {k k' : Sessions}
    {result : Except Refusal Response} (h : handler.run.run k = (result, k')) :
    (orRefusal handler).run k = (Refusal.settle result, k') := by
  rw [orRefusal, StateT.run_map, h]
  rfl

section Agrees

variable {k : Sessions} {store : Store} (h : k.Agrees store)
include h

/-- A session that is kept is the one of the store, with its name. -/
theorem Agrees.insert (name : Text) (session : Session) :
    (k.insert name ⟨name, session⟩).Agrees (store.put name session) := by
  intro other
  by_cases hother : other = name
  · rw [hother, insert_self, Store.get_put_self]
    rfl
  · rw [insert_of_ne k hother, Store.get_put_of_ne store hother]
    exact h other

/-- A session that is made is new in the store already. -/
theorem Agrees.run_findOrCreate (name : Text) :
    ∃ k' : Sessions, (findOrCreate name).run k = (⟨name, store.get name⟩, k') ∧
      k'.Agrees store := by
  have hname := h name
  unfold findOrCreate
  cases hk : k name with
  | some s =>
    refine ⟨k, ?_, h⟩
    rw [hk, Option.getD_some] at hname
    rw [← hname]
    show StateT.run (match k name with | some s => _ | Option.none => _) k = _
    rw [hk]
    rfl
  | none =>
    refine ⟨k.insert name (.new name), ?_, fun other => ?_⟩
    · rw [hk, Option.getD_none] at hname
      rw [← hname]
      show StateT.run (match k name with | some s => _ | Option.none => _) k = _
      rw [hk]
      rfl
    · by_cases hother : other = name
      · rw [hother, insert_self, ← hname, hk]
        rfl
      · rw [insert_of_ne k hother]
        exact h other

theorem Agrees.run_showSession (segment : Text) :
    ∃ k' : Sessions, (showSession segment).run.run k =
      (Preview.showSession store segment, k') ∧ k'.Agrees store := by
  unfold showSession Preview.showSession
  cases sessionName segment with
  | error e => exact ⟨k, rfl, h⟩
  | ok name =>
    obtain ⟨k', hrun, hk'⟩ := h.run_findOrCreate name
    refine ⟨k', ?_, hk'⟩
    show (do let s ← findOrCreate name; return Except.ok (Response.markup s.page) :
      StateM Sessions (Except Refusal Response)).run k = _
    rw [StateT.run_bind, hrun]
    rfl

theorem Agrees.run_updateSession (segment : Text) (r : Request) :
    ∃ k' : Sessions, k'.Agrees
        ((Preview.updateSession store segment r).toOption.elim store Prod.snd) ∧
      (updateSession segment r).run.run k =
        ((Preview.updateSession store segment r).map Prod.fst, k') := by
  unfold updateSession Preview.updateSession
  cases sessionName segment with
  | error e => exact ⟨k, h, rfl⟩
  | ok name =>
    cases sentText r with
    | error e => exact ⟨k, h, rfl⟩
    | ok text =>
      obtain ⟨k', hrun, hk'⟩ := h.run_findOrCreate name
      refine ⟨_, hk'.insert name _, ?_⟩
      show (do
        let s ← findOrCreate name
        let s := { s with session := s.session.update text }
        modify fun k => Sessions.insert k name s
        return Except.ok (Response.markup s.page) :
          StateM Sessions (Except Refusal Response)).run k = _
      rw [StateT.run_bind, hrun]
      rfl

theorem Agrees.run_answerSession (segment : Text) (r : Request) :
    ∃ k' : Sessions, (answerSession segment r).run k =
        ((Preview.answerSession store segment r).1, k') ∧
      k'.Agrees (Preview.answerSession store segment r).2 := by
  unfold answerSession
  by_cases hpost : r.asks = .post
  · obtain ⟨k', hk', hrun⟩ := h.run_updateSession segment r
    rw [answerSession_of_post store segment hpost, hpost]
    exact ⟨k', run_orRefusal hrun, hk'⟩
  · obtain ⟨k', hrun, hk'⟩ := h.run_showSession segment
    have hanswer := run_orRefusal hrun
    rw [answerSession_of_ne_post store segment hpost]
    cases hm : r.asks with
    | get => exact ⟨k', hanswer, hk'⟩
    | head =>
      refine ⟨k', ?_, hk'⟩
      show (Response.withoutBody <$> orRefusal (showSession segment)).run k = _
      rw [StateT.run_map, hanswer]
      rfl
    | post => exact absurd hm hpost
    | other => exact ⟨k, rfl, h⟩

theorem Agrees.run_answer (seed : UInt32) (r : Request) :
    ∃ k' : Sessions, (answer seed r).run k = ((Preview.answer seed store r).1, k') ∧
      k'.Agrees (Preview.answer seed store r).2 := by
  unfold answer Preview.answer
  cases Route.ofTarget? r.target with
  | none => exact ⟨k, rfl, h⟩
  | some route =>
    cases route with
    | front => exact ⟨k, rfl, h⟩
    | stylesheet => exact ⟨k, rfl, h⟩
    | session segment => exact h.run_answerSession segment r

end Agrees

/-- Making sessions when they are asked for gives the answers that a store gives. -/
theorem Agrees.run_serve {k : Sessions} {store : Store} (h : k.Agrees store)
    (requests : List (UInt32 × Request)) :
    ((serve requests).run k).1 = Preview.serve store requests := by
  unfold serve
  induction requests generalizing k store with
  | nil => rfl
  | cons q rest ih =>
    obtain ⟨k', hrun, hk'⟩ := h.run_answer q.1 q.2
    rw [List.mapM_cons, StateT.run_bind, hrun]
    exact congrArg (_ :: ·) (ih hk')

end Sessions
end Preview
end Highlighter
