/-
What a request asks of a session, and what is answered.

A request is for the session whose name its path stands for (`Request.sessionName?`).
The answer to it is settled by that session alone (`answer_congr`), and only a text that is
sent to a session changes it, and no other one (`get_answer`).
-/
import Highlighter.Preview.Server

namespace Highlighter
namespace Preview

namespace Refusal

/-- The response to a request for a session, which may have been refused. -/
def settle : Except Refusal Response → Response
  | .ok response => response
  | .error e => e.response

theorem status_ne_ok (e : Refusal) : e.response.status ≠ 200 := by
  cases e <;> decide

end Refusal

namespace Request

/-- The name of the session that a request is for. -/
def sessionName? (r : Request) : Option Text :=
  match Route.ofTarget? r.target with
  | some (.session segment) => (sessionName segment).toOption
  | _ => none

def asks (r : Request) : Method := Method.ofName r.method

/-- The text that a request sends to the session of a name, if it sends one. -/
def sent? (name : Text) (r : Request) : Option Text :=
  if r.sessionName? = some name ∧ r.asks = .post then (sentText r).toOption else none

variable {r : Request} {name text : Text}

theorem sessionName?_eq_some (h : r.sessionName? = some name) :
    ∃ segment, Route.ofTarget? r.target = some (.session segment) ∧
      Preview.sessionName segment = .ok name := by
  unfold sessionName? at h
  split at h
  · case h_1 segment hroute =>
    refine ⟨segment, hroute, ?_⟩
    cases hname : Preview.sessionName segment with
    | ok n =>
      rw [hname] at h
      rw [Option.some.inj h]
    | error e =>
      rw [hname] at h
      cases h
  · cases h

theorem sent?_of_post (h : r.sessionName? = some name) (hpost : r.asks = .post) :
    r.sent? name = (sentText r).toOption := if_pos ⟨h, hpost⟩

theorem sent?_of_not_post (h : r.asks ≠ .post) (name : Text) : r.sent? name = none :=
  if_neg fun hand => h hand.2

theorem sent?_of_ne (h : r.sessionName? ≠ some name) : r.sent? name = none :=
  if_neg fun hand => h hand.1

end Request

theorem answerSession_of_post (store : Store) (segment : Text) {r : Request}
    (h : r.asks = .post) : answerSession store segment r =
      (Refusal.settle ((updateSession store segment r).map Prod.fst),
        (updateSession store segment r).toOption.elim store Prod.snd) := by
  have hm : Method.ofName r.method = .post := h
  rw [answerSession, hm]
  cases updateSession store segment r <;> rfl

theorem answerSession_of_ne_post (store : Store) (segment : Text) {r : Request}
    (h : r.asks ≠ .post) : answerSession store segment r =
      (readOnly r.asks (Refusal.settle (showSession store segment)), store) := by
  rw [answerSession, Request.asks]
  cases hm : Method.ofName r.method with
  | post => exact absurd hm h
  | _ => cases showSession store segment <;> rfl

theorem answer_of_session (seed : UInt32) (store : Store) {r : Request} {segment : Text}
    (h : Route.ofTarget? r.target = some (.session segment)) :
    answer seed store r = answerSession store segment r := by
  rw [answer, h]

/-- Where no session is asked for, the sessions stay as they are. -/
theorem store_answer (seed : UInt32) (store : Store) {r : Request}
    (h : r.sessionName? = none) : (answer seed store r).2 = store := by
  unfold Request.sessionName? at h
  unfold answer
  split at h
  · case h_1 segment hroute =>
    rw [hroute]
    show (answerSession store segment r).2 = store
    cases hname : sessionName segment with
    | ok name =>
      rw [hname] at h
      cases h
    | error e =>
      by_cases hpost : r.asks = .post
      · rw [answerSession_of_post store segment hpost, updateSession, hname]
        rfl
      · rw [answerSession_of_ne_post store segment hpost]
  · case h_2 hroute =>
    cases hr : Route.ofTarget? r.target with
    | none => rfl
    | some route =>
      cases route with
      | session segment => exact absurd hr (hroute segment)
      | _ => rfl

section OfName

variable (seed : UInt32) (store : Store) {r : Request} {name : Text}
  (h : r.sessionName? = some name)
include h

theorem answer_of_ne_post (hm : r.asks ≠ .post) : answer seed store r =
    (readOnly r.asks (.markup ((store.get name).page name)), store) := by
  obtain ⟨segment, hroute, hname⟩ := Request.sessionName?_eq_some h
  rw [answer_of_session seed store hroute, answerSession_of_ne_post store segment hm,
    showSession, hname]
  rfl

theorem answer_of_sent {text : Text} (hm : r.asks = .post) (ht : sentText r = .ok text) :
    answer seed store r = (.markup (((store.get name).update text).page name),
      store.put name ((store.get name).update text)) := by
  obtain ⟨segment, hroute, hname⟩ := Request.sessionName?_eq_some h
  rw [answer_of_session seed store hroute, answerSession_of_post store segment hm,
    updateSession, hname, ht]
  rfl

theorem answer_of_refused {e : Refusal} (hm : r.asks = .post) (he : sentText r = .error e) :
    answer seed store r = (e.response, store) := by
  obtain ⟨segment, hroute, hname⟩ := Request.sessionName?_eq_some h
  rw [answer_of_session seed store hroute, answerSession_of_post store segment hm,
    updateSession, hname, he]
  rfl

/-- An answer depends on the session that is asked for and on no other one. -/
theorem answer_congr (seed' : UInt32) {store' : Store} (hget : store.get name = store'.get name) :
    (answer seed store r).1 = (answer seed' store' r).1 := by
  by_cases hm : r.asks = .post
  · cases ht : sentText r with
    | ok text =>
      rw [answer_of_sent seed store h hm ht, answer_of_sent seed' store' h hm ht, hget]
    | error e =>
      rw [answer_of_refused seed store h hm ht, answer_of_refused seed' store' h hm ht]
  · rw [answer_of_ne_post seed store h hm, answer_of_ne_post seed' store' h hm, hget]

end OfName

/-- A session changes by the texts that are sent to it and by nothing else. -/
theorem get_answer (seed : UInt32) (store : Store) (r : Request) (name : Text) :
    (answer seed store r).2.get name =
      (r.sent? name).elim (store.get name) (store.get name).update := by
  cases hfor : r.sessionName? with
  | none =>
    rw [store_answer seed store hfor, Request.sent?_of_ne (by simp [hfor])]
    rfl
  | some other =>
    by_cases hm : r.asks = .post
    · by_cases hname : other = name
      · subst hname
        rw [Request.sent?_of_post hfor hm]
        cases ht : sentText r with
        | ok text =>
          rw [answer_of_sent seed store hfor hm ht]
          exact store.get_put_self other _
        | error e =>
          rw [answer_of_refused seed store hfor hm ht]
          rfl
      · rw [Request.sent?_of_ne (by simp [hfor, hname])]
        cases ht : sentText r with
        | ok text =>
          rw [answer_of_sent seed store hfor hm ht]
          exact store.get_put_of_ne (fun heq => hname heq.symm) _
        | error e =>
          rw [answer_of_refused seed store hfor hm ht]
          rfl
    · rw [answer_of_ne_post seed store hfor hm, Request.sent?_of_not_post hm]
      rfl

end Preview
end Highlighter
