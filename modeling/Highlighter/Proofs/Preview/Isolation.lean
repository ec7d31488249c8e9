/-
What a session shows is settled by the texts that were sent to it.

`Session.ofTexts` is the session that texts were sent to one after the other: it has the
last of them, and counts those before it that are not empty.  After any requests to a
server that has just begun, the session of a name is the one of the texts that were sent
to that name (`Store.get_after`).  Requests to other sessions, requests that only look at
something and requests that are refused send it none, so that they may be left out of a
sequence or put in without a change to the other answers (`responsesTo_kept`).
-/
import Highlighter.Proofs.Preview.Creation

namespace Highlighter
namespace Preview

namespace Session

/-- The session of texts that were sent one after the other. -/
def ofTexts (texts : List Text) : Session :=
  ⟨texts.getLast?.getD [], texts.dropLast.countP (· ≠ [])⟩

theorem ofTexts_concat (texts : List Text) (text : Text) :
    ofTexts (texts ++ [text]) = (ofTexts texts).update text := by
  have hrevisions : texts.countP (· ≠ []) =
      if (texts.getLast?.getD []).isEmpty then texts.dropLast.countP (· ≠ [])
      else texts.dropLast.countP (· ≠ []) + 1 := by
    rcases List.eq_nil_or_concat texts with rfl | ⟨front, last, rfl⟩
    · rfl
    · rw [List.concat_eq_append, List.getLast?_concat, List.dropLast_concat, List.countP_append]
      cases last with
      | nil => rfl
      | cons c rest => rfl
  rw [ofTexts, List.getLast?_concat, List.dropLast_concat, hrevisions]
  rfl

theorem foldl_update (before texts : List Text) :
    texts.foldl update (ofTexts before) = ofTexts (before ++ texts) := by
  induction texts generalizing before with
  | nil => rw [List.append_nil, List.foldl_nil]
  | cons text rest ih =>
    rw [List.foldl_cons, ← ofTexts_concat, ih, List.append_assoc, List.singleton_append]

end Session

/-- The texts that requests send to the session of a name, in their order. -/
def sentTexts (name : Text) (requests : List (UInt32 × Request)) : List Text :=
  requests.filterMap fun q => q.2.sent? name

/-- The sessions after requests. -/
def Store.after (store : Store) (requests : List (UInt32 × Request)) : Store :=
  requests.foldl (fun store q => (answer q.1 store q.2).2) store

theorem Store.get_after_of_get (store : Store) (name : Text)
    (requests : List (UInt32 × Request)) :
    (store.after requests).get name =
      (sentTexts name requests).foldl Session.update (store.get name) := by
  induction requests generalizing store with
  | nil => rfl
  | cons q rest ih =>
    show ((answer q.1 store q.2).2.after rest).get name =
      ((q :: rest).filterMap fun q => q.2.sent? name).foldl Session.update (store.get name)
    rw [ih, get_answer, List.filterMap_cons]
    cases q.2.sent? name <;> rfl

theorem Store.get_after (name : Text) (requests : List (UInt32 × Request)) :
    (Store.empty.after requests).get name = Session.ofTexts (sentTexts name requests) := by
  rw [Store.get_after_of_get]
  exact Session.foldl_update [] _

theorem serve_append (store : Store) (before later : List (UInt32 × Request)) :
    serve store (before ++ later) = serve store before ++ serve (store.after before) later := by
  induction before generalizing store with
  | nil => rfl
  | cons q rest ih =>
    rw [List.cons_append, serve, serve, ih, List.cons_append]
    rfl

/-- Every request is answered from the sessions that the requests before it have left. -/
theorem getElem?_serve (before later : List (UInt32 × Request)) (seed : UInt32) (r : Request) :
    (serve .empty (before ++ (seed, r) :: later))[before.length]? =
      some (answer seed (Store.empty.after before) r).1 := by
  rw [serve_append, List.getElem?_append_right (Nat.le_of_eq (length_serve _ _)), length_serve,
    Nat.sub_self, serve]
  rfl

/-- Whether a request sends nothing to the session of a name: it is for another session or
for none, it does not send a text, or it is refused. -/
def Request.IsBystander (name : Text) (r : Request) : Prop :=
  r.sessionName? ≠ some name ∨ r.asks ≠ .post ∨ ∃ e, sentText r = .error e

theorem Request.IsBystander.sent? {name : Text} {r : Request} (h : r.IsBystander name) :
    r.sent? name = none := by
  rcases h with hname | hasks | ⟨e, he⟩
  · exact sent?_of_ne hname
  · exact sent?_of_not_post hasks name
  · unfold Request.sent?
    rw [he]
    split <;> rfl

/-- The answers to the requests for the session of a name. -/
def responsesTo (name : Text) (requests : List (UInt32 × Request)) (responses : List Response) :
    List Response :=
  ((requests.zip responses).filter fun p => p.1.2.sessionName? = some name).map Prod.snd

/-- The requests that stay, of requests that stay or not. -/
def kept (edits : List (Bool × UInt32 × Request)) : List (UInt32 × Request) :=
  (edits.filter Prod.fst).map Prod.snd

/-- The answers to the requests for the session of a name, of those that stay. -/
def keptResponsesTo (name : Text) (edits : List (Bool × UInt32 × Request))
    (responses : List Response) : List Response :=
  ((edits.zip responses).filter fun p => p.1.1 ∧ p.1.2.2.sessionName? = some name).map Prod.snd

theorem responsesTo_kept {name : Text} {edits : List (Bool × UInt32 × Request)}
    (h : ∀ e ∈ edits, e.1 = false → e.2.2.IsBystander name) {store store' : Store}
    (hget : store.get name = store'.get name) :
    responsesTo name (kept edits) (serve store' (kept edits)) =
      keptResponsesTo name edits (serve store (edits.map Prod.snd)) := by
  induction edits generalizing store store' with
  | nil => rfl
  | cons e rest ih =>
    obtain ⟨stays, seed, r⟩ := e
    have hrest : ∀ e ∈ rest, e.1 = false → e.2.2.IsBystander name :=
      fun e he => h e (List.mem_cons_of_mem _ he)
    rw [List.map_cons, serve, keptResponsesTo, List.zip_cons_cons]
    cases stays with
    | false =>
      -- What is left out has not changed the session.
      have hsent := (h (false, seed, r) List.mem_cons_self rfl).sent?
      have hafter : (answer seed store r).2.get name = store'.get name := by
        rw [get_answer, hsent]
        exact hget
      rw [List.filter_cons_of_neg (by simp)]
      exact ih hrest hafter
    | true =>
      have hafter : (answer seed store r).2.get name = (answer seed store' r).2.get name := by
        rw [get_answer, get_answer, hget]
      have hkept : kept ((true, seed, r) :: rest) = (seed, r) :: kept rest := rfl
      rw [hkept, serve, responsesTo, List.zip_cons_cons]
      by_cases hname : r.sessionName? = some name
      · rw [List.filter_cons_of_pos (by simpa using hname),
          List.filter_cons_of_pos (by simpa using hname), List.map_cons, List.map_cons,
          answer_congr seed store' hname seed hget.symm]
        exact congrArg (_ :: ·) (ih hrest hafter)
      · rw [List.filter_cons_of_neg (by simpa using hname),
          List.filter_cons_of_neg (by simpa using hname)]
        exact ih hrest hafter

/-- What the requests for a session are answered with, after any requests to a server
that has just begun.  The page that is shown has the last text that was sent to the
session and counts those before it that are not empty; a text that is sent is answered
with the page after it, which is also what is shown next; a text that is refused is not
answered with a page.  Requests that send nothing to the session may be put in or left
out anywhere without a change to the other answers.  All this is so although a session is
made only when it is asked for. -/
theorem sessions_isolated (name : Text) :
    (∀ (before later : List (UInt32 × Request)) (seed : UInt32) (r : Request),
      r.sessionName? = some name →
      let texts := sentTexts name before
      let response := (serve .empty (before ++ (seed, r) :: later))[before.length]?
      (r.asks = .get → response = some (.markup ((Session.ofTexts texts).page name))) ∧
      (∀ text, r.asks = .post → sentText r = .ok text →
        response = some (.markup ((Session.ofTexts (texts ++ [text])).page name)) ∧
        ∀ seed' r', r'.sessionName? = some name → r'.asks = .get →
          (serve .empty (before ++ (seed, r) :: (seed', r') :: later))[before.length + 1]? =
            response) ∧
      (∀ e, r.asks = .post → sentText r = .error e →
        response = some e.response ∧ e.response.status ≠ 200)) ∧
    (∀ edits : List (Bool × UInt32 × Request),
      (∀ e ∈ edits, e.1 = false → e.2.2.IsBystander name) →
      responsesTo name (kept edits) (serve .empty (kept edits)) =
        keptResponsesTo name edits (serve .empty (edits.map Prod.snd))) ∧
    ∀ requests, ((Sessions.serve requests).run .none).1 = serve .empty requests := by
  refine ⟨?_, fun edits h => responsesTo_kept h rfl, Sessions.none_agrees.run_serve⟩
  intro before later seed r hname texts response
  have hsession := Store.get_after name before
  have hresponse : response = some (answer seed (Store.empty.after before) r).1 :=
    getElem?_serve before later seed r
  refine ⟨fun hget => ?_, fun text hpost htext => ?_, fun e hpost he => ⟨?_, e.status_ne_ok⟩⟩
  · rw [hresponse, answer_of_ne_post seed _ hname (by rw [hget]; decide), hget, hsession]
    rfl
  · have hshown : response = some (.markup ((Session.ofTexts (texts ++ [text])).page name)) := by
      rw [hresponse, answer_of_sent seed _ hname hpost htext, hsession, Session.ofTexts_concat]
    refine ⟨hshown, fun seed' r' hname' hget => ?_⟩
    have hnext := getElem?_serve (before ++ [(seed, r)]) later seed' r'
    have hsent : sentTexts name (before ++ [(seed, r)]) = texts ++ [text] := by
      have hr : r.sent? name = some text := by
        rw [Request.sent?_of_post hname hpost, htext]
        rfl
      simp [sentTexts, texts, hr]
    rw [List.append_assoc, List.singleton_append, List.length_append, List.length_singleton,
      answer_of_ne_post seed' _ hname' (by rw [hget]; decide), hget, Store.get_after,
      hsent] at hnext
    rw [hnext, hshown]
    rfl
  · rw [hresponse, answer_of_refused seed _ hname hpost he]

/-- A text that is sent to a session, a second one that is refused since it is no form, and
a look at another session: the page shows the first text and counts no version before it. -/
theorem sessions_isolated_refused :
    let form : Text := "application/x-www-form-urlencoded".toList
    let sends : Request := ⟨"POST".toList, "/sessions/a".toList, some form,
      Text.encode "text=x".toList⟩
    let refused : Request := ⟨"POST".toList, "/sessions/a".toList, none,
      Text.encode "text=y".toList⟩
    let elsewhere : Request := ⟨"GET".toList, "/sessions/b".toList, none, []⟩
    let looks : Request := ⟨"GET".toList, "/sessions/a".toList, none, []⟩
    refused.IsBystander "a".toList ∧ elsewhere.IsBystander "a".toList ∧
      (serve .empty [(0, sends), (0, refused), (0, elsewhere), (0, looks)])[3]? =
        some (.markup (Session.page "a".toList ⟨"x".toList, 0⟩)) := by
  intro form sends refused elsewhere looks
  have hname : looks.sessionName? = some "a".toList := by decide +kernel
  have hsent : sentTexts "a".toList [(0, sends), (0, refused), (0, elsewhere)] =
      ["x".toList] := by decide +kernel
  have hrefused : sentText refused = .error .notForm := by rfl
  obtain ⟨hshown, -, -⟩ := (sessions_isolated "a".toList).1
    [(0, sends), (0, refused), (0, elsewhere)] [] 0 looks hname
  refine ⟨Or.inr (Or.inr ⟨_, hrefused⟩), Or.inl (by decide +kernel), ?_⟩
  rw [hsent] at hshown
  exact hshown rfl

end Preview
end Highlighter
