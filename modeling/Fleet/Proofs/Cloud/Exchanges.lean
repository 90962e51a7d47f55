import Fleet.Proofs.Cloud.Rejection
import Fleet.Proofs.Cloud.Routing
import Fleet.Proofs.Uniformity

/-!
# Requests and what is answered

What comes back with a request is decided by the token that can be had for it and by the answer of
the network.  A request that is sent and the answer to it are an exchange.  An answer of success
leaves the token, so that the next request is sent as well; then the answers to requests to the same
place are those that the network holds ready for it, one after the other.

## Main definitions

- `Answer.content`: what comes back with an answer
- `Exchange`, `World.exchange?`: a request and the answer to it
- `Network.reply`, `World.reply`: what comes back with a request, after a number of requests to the
  same place or now
- `World.Answered`: what requests that were answered with success leave behind

## Main statements

- `Client.execute_exchange`: a request is exchanged and comes back with what its answer says
- `Client.execute_reply`: with a token it comes back with the first reply that is held ready
- `World.Answered.reply_eq`: the replies after answers are those that follow them
-/

namespace Fleet

open World

/-! ## §1 Answers -/

/-- What comes back with an answer to a request. -/
def Answer.content (request : Request) : Answer → Except Failure Json
  | .broken reason => .error (.unanswered request.method request.url reason)
  | .reply r =>
    match r.tooDeep? with
    | some container => .error (.fault (.nestedTooDeep container))
    | none =>
      if Client.isSuccess r.status then Client.content request r
      else .error (Client.refusal r (Json.read? r.body))

/-- Only an answer with a certain status says that nothing was found. -/
theorem Answer.status?_of_isNotFound {a : Answer} {request : Request} {f : Failure}
    (h : a.content request = .error f) (hf : f.isNotFound = true) : a.status? = some 404 := by
  cases a with
  | broken reason =>
    cases h
    cases hf
  | reply r =>
    simp only [content] at h
    split at h
    · cases h
      cases hf
    · split at h
      · -- a readable answer of success is no failure, and an unreadable one is another failure
        unfold Client.content at h
        split at h
        · cases h
        · split at h
          · cases h
          · cases h
            cases hf
      · cases h
        rw [Client.isNotFound_refusal] at hf
        exact congrArg some (eq_of_beq hf)

theorem Client.read_result (delivery : Delivery) (w : World) :
    ((read delivery).outcome w).1 = delivery.response.answer.content delivery.request := by
  rw [read_outcome]
  unfold Answer.content
  cases delivery.response.answer with
  | broken reason => rfl
  | reply r =>
    simp only
    cases r.tooDeep? with
    | some container => rfl
    | none => cases isSuccess r.status <;> rfl

/-! ## §2 Exchanges -/

/-- A request that was sent, and the answer to it. -/
structure Exchange where
  request : Request
  answer : Answer

/-- What comes back with the answer. -/
def Exchange.content (e : Exchange) : Except Failure Json :=
  e.answer.content e.request

/-- The response to a request, which is sent only if a token can be had for it. -/
def World.response? (w : World) (request : Request) : Option Response :=
  w.tokens.getToken.1.toOption.map fun _ => (w.network.respond request.method request.url).1

/-- The exchange of a request, if a token can be had for it. -/
def World.exchange? (w : World) (request : Request) : Option Exchange :=
  (w.response? request).map fun response => ⟨request, response.answer⟩

namespace World

variable {w v : World} {request : Request} {e : Exchange}

theorem request_of_exchange? (h : w.exchange? request = some e) : e.request = request := by
  obtain ⟨response, -, rfl⟩ := Option.map_eq_some_iff.mp h
  rfl

/-- What is exchanged depends on the tokens and the network only. -/
theorem exchange?_congr (htokens : v.tokens = w.tokens) (hnetwork : v.network = w.network)
    (request : Request) : v.exchange? request = w.exchange? request := by
  unfold exchange? response?
  rw [htokens, hnetwork]

/-- A request comes back with what its exchange says, and fails without one. -/
theorem exchange?_of_ok {content : Json}
    (h : (w.tokens.getToken.1.bind fun _ =>
      (w.network.respond request.method request.url).1.answer.content request) = .ok content) :
    ∃ e, w.exchange? request = some e ∧ e.request = request ∧ e.content = .ok content := by
  unfold exchange? response?
  cases htoken : w.tokens.getToken.1 with
  | error f =>
    rw [htoken] at h
    cases h
  | ok token =>
    rw [htoken] at h
    exact ⟨_, rfl, rfl, h⟩

/-- A request without headers of its own is sent exactly if it is exchanged. -/
theorem requestsSince_dispatch (client : Client) (hp : request.headers = .null) (w : World) :
    w.requestsSince ((client.dispatch request).outcome w).2 =
      (w.exchange? request).toList.map (·.request) := by
  unfold exchange? response?
  rcases client.dispatch_cases hp w with ⟨f, htoken, -, hnone⟩ | ⟨token, htoken, -, hone⟩
  · rw [hnone, htoken]
    rfl
  · rw [hone, htoken]
    rfl

end World

/-- A request that is carried out is exchanged, and then it comes back with what its answer says. -/
theorem Client.execute_exchange (client : Client) {request : Request}
    (hp : request.headers = .null) (w : World) :
    w.requestsSince ((client.execute request).outcome w).2 =
        (w.exchange? request).toList.map (·.request) ∧
      ((∃ e, w.exchange? request = some e ∧
          ((client.execute request).outcome w).1 = e.content) ∨
        ∃ f, ((client.execute request).outcome w).1 = .error f ∧ f.isNotFound = false) := by
  unfold World.exchange? World.response?
  cases htoken : w.tokens.getToken.1 with
  | error f =>
    refine ⟨client.requestsSince_execute_of_no_token request htoken, Or.inr ⟨f, ?_, ?_⟩⟩
    · rw [client.execute_of_no_token request htoken]
    · exact TokenStore.not_notFound_of_getToken htoken
  | ok token =>
    obtain ⟨v, -, -, -, -, houtcome⟩ := client.execute_of_token hp htoken
    refine ⟨client.requestsSince_execute_of_token hp htoken, Or.inl ⟨_, rfl, ?_⟩⟩
    rw [houtcome]
    exact read_result _ _

/-! ## §3 Requests to the same place -/

/-- Where a request goes. -/
def Request.place (request : Request) : String × String :=
  (request.method, request.url)

namespace Network

/-- What comes back with a request after so many requests to the same place. -/
def reply (n : Network) (request : Request) (i : Nat) : Except Failure Json :=
  ((n.after (List.replicate i request)).respond request.method request.url).1.answer.content request

variable {request request' : Request}

/-- Of requests that are made nothing but their places matters. -/
theorem after_congr {requests requests' : List Request}
    (h : requests'.map Request.place = requests.map Request.place) (n : Network) :
    n.after requests' = n.after requests := by
  induction requests generalizing n requests' with
  | nil => rw [List.map_eq_nil_iff.mp h]
  | cons request requests ih =>
    obtain ⟨request', requests', rfl, hplace, hplaces⟩ := List.map_eq_cons_iff.mp h
    obtain ⟨hmethod, hurl⟩ := Prod.mk.inj hplace
    calc n.after (request' :: requests')
      _ = (n.respond request'.method request'.url).2.after requests' := rfl
      _ = (n.respond request.method request.url).2.after requests := by
        rw [hmethod, hurl, ih hplaces]

/-- Requests to the same place have the same replies. -/
theorem reply_congr (h : request'.place = request.place) (n : Network) (i : Nat) :
    n.reply request' i = n.reply request i := by
  obtain ⟨hmethod, hurl⟩ := Prod.mk.inj h
  have hplaces : (List.replicate i request').map Request.place =
      (List.replicate i request).map Request.place := by
    rw [List.map_replicate, List.map_replicate, h]
  unfold reply
  rw [after_congr hplaces, hmethod, hurl]
  simp only [Answer.content, Client.content, hmethod, hurl]

/-- After requests to the same place there are the replies that follow theirs. -/
theorem reply_after {requests : List Request}
    (h : ∀ q ∈ requests, q.place = request.place) (n : Network) (i : Nat) :
    (n.after requests).reply request i = n.reply request (i + requests.length) := by
  have hplaces : requests.map Request.place =
      (List.replicate requests.length request).map Request.place := by
    rw [List.map_replicate]
    exact List.map_eq_replicate_iff.mpr h
  unfold reply
  rw [after_congr hplaces, ← after_append, List.replicate_append_replicate, Nat.add_comm i]

end Network

/-- What comes back with a request now. -/
def World.reply (w : World) (request : Request) : Except Failure Json :=
  w.tokens.getToken.1.bind fun _ => w.network.reply request 0

theorem World.reply_of_token {w : World} {token : String} (h : w.tokens.getToken.1 = .ok token)
    (request : Request) : w.reply request = w.network.reply request 0 := by
  rw [reply, h]
  rfl

/-- The requests were sent and answered with success, and nothing else was sent: the token is there
still. -/
structure World.Answered (token : String) (w : World) (requests : List Request) (v : World) :
    Prop where
  grows : w.Extends (fun _ => True) v
  requests_eq : w.requestsSince v = requests
  network_eq : v.network = w.network.after requests
  token_eq : v.tokens.getToken.1 = .ok token

namespace World.Answered

variable {token : String} {requests requests' : List Request} {u v w : World}

theorem refl (h : w.tokens.getToken.1 = .ok token) : w.Answered token [] w :=
  ⟨.refl w, requestsSince_self w, rfl, h⟩

theorem trans (h : w.Answered token requests v) (h' : v.Answered token requests' u) :
    w.Answered token (requests ++ requests') u where
  grows := h.grows.trans h'.grows
  requests_eq := by rw [requestsSince_trans h.grows h'.grows, h.requests_eq, h'.requests_eq]
  network_eq := by rw [h'.network_eq, h.network_eq, Network.after_append]
  token_eq := h'.token_eq

theorem trans_remarks (h : w.Answered token requests v) (h' : v.Remarks u) :
    w.Answered token requests u where
  grows := h.grows.trans (h'.grows.mono fun _ _ => trivial)
  requests_eq := by
    rw [requestsSince_trans h.grows h'.grows, h'.requestsSince_eq_nil, h.requests_eq,
      List.append_nil]
  network_eq := h'.network_eq.trans h.network_eq
  token_eq := by rw [h'.tokens_eq, h.token_eq]

/-- After answers to requests to the same place there are the replies that follow. -/
theorem reply_eq (h : w.Answered token requests v) {request : Request}
    (hplace : ∀ q ∈ requests, q.place = request.place) (i : Nat) :
    v.network.reply request i = w.network.reply request (i + requests.length) := by
  rw [h.network_eq, Network.reply_after hplace]

end World.Answered

/-- A token is not rejected with content. -/
theorem Answer.rejects_of_content {a : Answer} {request : Request} {value : Json}
    (h : a.content request = .ok value) : a.rejects = false := by
  cases a with
  | broken reason => rfl
  | reply r =>
    by_contra hrejected
    have hrejects : (r.status == 401 && r.tooDeep?.isNone) = true := Bool.of_not_eq_false hrejected
    rw [Bool.and_eq_true, beq_iff_eq, Option.isNone_iff_eq_none] at hrejects
    obtain ⟨hstatus, hshallow⟩ := hrejects
    simp only [content, hstatus, hshallow] at h
    cases h

/-- With a token a request comes back with the first reply that is held ready for it. -/
theorem Client.execute_reply (client : Client) {request : Request} {w : World} {token : String}
    (hp : request.headers = .null) (htoken : w.tokens.getToken.1 = .ok token) :
    let outcome := (client.execute request).outcome w
    outcome.1 = w.network.reply request 0 ∧
      w.requestsSince outcome.2 = [request] ∧
      ∀ value, outcome.1 = .ok value → w.Answered token [request] outcome.2 := by
  intro outcome
  obtain ⟨v, htokens, hnetwork, -, -, hread⟩ := client.execute_of_token hp htoken
  have hresult : outcome.1 = w.network.reply request 0 := by
    rw [show outcome = _ from hread, read_result]
    rfl
  have hrequests : w.requestsSince outcome.2 = [request] :=
    client.requestsSince_execute_of_token hp htoken
  refine ⟨hresult, hrequests, fun value hvalue => ⟨?_, hrequests, ?_, ?_⟩⟩
  · exact (client.execute_extends request w).mono fun _ _ => trivial
  · rw [show outcome = _ from hread, read_network, hnetwork]
    rfl
  · -- the response has content, so it has not cost the token
    have hkept : (w.network.respond request.method request.url).1.answer.rejects = false :=
      Answer.rejects_of_content (hresult.symm.trans hvalue)
    rw [show outcome = _ from hread, read_tokens, hkept, htokens]
    exact TokenStore.getToken_getToken htoken

end Fleet
