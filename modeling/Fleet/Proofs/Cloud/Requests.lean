import Fleet.Proofs.Cloud.Bodies
import Fleet.Proofs.Journal
import Fleet.Proofs.Tokens

/-!
# What carrying out a request does

A request without headers of its own is sent with the token that was obtained for it, and what
becomes of it then is decided by the response alone.  Reading the response touches the tokens only
if it rejects the one that the request bore.  Whatever goes wrong has one of the classes by which
failures are told apart, unless the response is nested too deep to be read: that is a fault, and it
comes before anything is made of the status.

## Main definitions

- `Answer.status?`, `Answer.rejects`: the status of an answer, and whether it rejects the token
- `World.sentSince`: the requests between two worlds as they were handed to the network

## Main statements

- `Client.execute_of_token`, `Client.execute_of_no_token`: a request is sent and its response read,
  unless no token can be had for it
- `Client.read_tokens`: only a rejected token is dropped
- `Client.execute_of_tooDeep`: a response that is nested too deep costs a fault and no token
- `Client.execute_failure`: a request fails with no other fault than that of a response nested too
  deep
-/

namespace Fleet

open World

/-! ## §1 Requests as they were sent -/

/-- The status of an answer, if there is one. -/
def Answer.status? : Answer → Option Int
  | .reply r => some r.status
  | .broken _ => none

/-- Whether an answer rejects the token that the request bore. One that cannot be read because it
is nested too deep does not come to that. -/
def Answer.rejects : Answer → Bool
  | .reply r => r.status == 401 && r.tooDeep?.isNone
  | .broken _ => false

/-- Exactly one status rejects the token, if the body does not come before it. -/
theorem Answer.rejects_iff (a : Answer) :
    a.rejects = true ↔ a.status? = some 401 ∧ a.tooDeep? = none := by
  cases a with
  | broken reason => simp [rejects, status?]
  | reply r => simp [rejects, status?, tooDeep?]

/-- The request that an event sends, as it was handed to the network. -/
def Event.sent? : Event → Option SentRequest
  | .requested sent => some sent
  | _ => none

namespace World

variable {P Q : Event → Prop} {u v w : World}

/-- The requests between two worlds as they were handed to the network, the oldest first. -/
def sentSince (w v : World) : List SentRequest :=
  (w.since v).filterMap Event.sent?

/-- The requests are those that were handed to the network. -/
theorem requestsSince_eq_map (w v : World) :
    w.requestsSince v = (w.sentSince v).map (·.request) := by
  rw [requestsSince, sentSince, List.map_filterMap]
  congr 1
  funext e
  cases e <;> rfl

theorem sentSince_trans (h : Extends P u v) (h' : Extends Q v w) :
    u.sentSince w = u.sentSince v ++ v.sentSince w := by
  rw [sentSince, since_trans h h', List.filterMap_append]
  rfl

theorem sentSince_of_serves_none (h : Extends (Event.Serves none) w v) : w.sentSince v = [] := by
  rw [sentSince, List.filterMap_eq_nil_iff]
  intro e he
  have hserves := h.mem_since he
  cases e with
  | requested sent => cases hserves
  | _ => rfl

end World

namespace Client

variable {client : Client} {request : Request} {w v : World} {token : String} {f : Failure}

/-! ## §2 Reading a response -/

theorem rejectToken_outcome (token : Option String) (w : World) :
    (rejectToken token).outcome w =
      (.ok (),
        { (if w.tokens.holds token then w.log .debug "Discarding rejected access token" else w) with
          tokens := w.tokens.invalidate token }) := by
  unfold rejectToken Call.outcome
  rw [run_get_bind]
  split <;> rfl

/-- What a response of success comes back with. -/
def content (request : Request) (r : Reply) : Except Failure Json :=
  if r.body.isEmpty then .ok (.obj [])
  else
    match Json.read? r.body with
    | some value => .ok value
    | none => .error (.malformed (.response request.method request.url))

/-- A success is not the answer that nothing was found. -/
theorem not_notFound_of_isSuccess {status : Int} (h : isSuccess status = true) :
    (status == 404) = false := by
  by_contra hfound
  rw [eq_of_beq (Bool.of_not_eq_false hfound)] at h
  cases h

theorem isNotFound_refusal (r : Reply) (body : Option Json) :
    (refusal r body).isNotFound = (r.status == 404) := by
  unfold refusal refusalOf Failure.isNotFound
  simp only [Failure.class?]
  split
  · rename_i hstatus
    rw [hstatus]
    rfl
  · rename_i hstatus
    rw [Bool.eq_false_iff.mpr hstatus]
    split <;> rfl

theorem read_outcome (delivery : Delivery) (w : World) :
    (read delivery).outcome w =
      let method := delivery.request.method
      let url := delivery.request.url
      match delivery.response.answer with
      | .broken reason => (.error (.unanswered method url reason), w)
      | .reply r =>
        match r.tooDeep? with
        | some container => (.error (.fault (.nestedTooDeep container)), w)
        | none =>
          if isSuccess r.status then (content delivery.request r, w)
          else
            let v :=
              if r.status == 401 then ((rejectToken (some delivery.token)).outcome w).2 else w
            (.error (refusal r (Json.read? r.body)),
              v.log .error s!"{method} {url} failed with status {r.status}") := by
  unfold read
  cases delivery.response.answer with
  | broken reason => rfl
  | reply r =>
    simp only
    cases hdeep : r.tooDeep? with
    | some container =>
      have hvalue : r.value? = .error (.nestedTooDeep container) := by rw [r.value?_eq, hdeep]
      cases hsuccess : isSuccess r.status with
      | true =>
        simp only [Reply.isEmpty_of_tooDeep? hdeep, hvalue]
        rfl
      | false =>
        simp only [hvalue]
        rfl
    | none =>
      have hvalue : r.value? = .ok (Json.read? r.body) := by rw [r.value?_eq, hdeep]
      simp only [hvalue]
      cases isSuccess r.status with
      | true =>
        unfold content
        cases r.body.isEmpty with
        | true => rfl
        | false => cases Json.read? r.body <;> rfl
      | false =>
        cases r.status == 401 with
        | true =>
          have hdropped := rejectToken_outcome (some delivery.token) w
          exact (run_bind_of_ok hdropped).trans (by rw [hdropped]; rfl)
        | false => rfl

/-- A response that is nested too deep to be read is a fault and changes nothing. -/
theorem read_of_tooDeep {delivery : Delivery} {container : Json.Container}
    (h : delivery.response.answer.tooDeep? = some container) (w : World) :
    (read delivery).outcome w = (.error (.fault (.nestedTooDeep container)), w) := by
  rw [read_outcome]
  cases ha : delivery.response.answer with
  | broken reason =>
    rw [ha] at h
    cases h
  | reply r =>
    rw [ha] at h
    have hdeep : r.tooDeep? = some container := h
    simp only [hdeep]

/-- Only a rejected token is dropped. -/
theorem read_tokens (delivery : Delivery) (w : World) :
    ((read delivery).outcome w).2.tokens =
      if delivery.response.answer.rejects then w.tokens.invalidate (some delivery.token)
      else w.tokens := by
  rw [read_outcome]
  cases delivery.response.answer with
  | broken reason => rfl
  | reply r =>
    rw [show (Answer.reply r).rejects = (r.status == 401 && r.tooDeep?.isNone) from rfl]
    dsimp only
    cases r.tooDeep? with
    | some container => simp
    | none =>
      simp only [Option.isNone_none, Bool.and_true]
      cases hsuccess : isSuccess r.status with
      | true =>
        -- a success is no rejection
        have hstatus : (r.status == 401) = false := by
          by_contra hrejected
          rw [eq_of_beq (Bool.of_not_eq_false hrejected)] at hsuccess
          cases hsuccess
        simp only [hstatus]
        rfl
      | false =>
        cases r.status == 401 with
        | true =>
          simp only [rejectToken_outcome]
          rfl
        | false => rfl

/-- Reading a response drops a token at most, and what it does is noted. -/
theorem read_world (delivery : Delivery) (w : World) :
    ∃ tokens journal, ((read delivery).outcome w).2 = { w with tokens, journal } := by
  rw [read_outcome]
  cases delivery.response.answer with
  | broken reason => exact ⟨_, _, rfl⟩
  | reply r =>
    simp only [rejectToken_outcome]
    split
    · exact ⟨_, _, rfl⟩
    · split
      · exact ⟨_, _, rfl⟩
      · split
        · split <;> exact ⟨_, _, rfl⟩
        · exact ⟨_, _, rfl⟩

theorem read_network (delivery : Delivery) (w : World) :
    ((read delivery).outcome w).2.network = w.network := by
  obtain ⟨tokens, journal, hread⟩ := read_world delivery w
  rw [hread]

/-- Whatever a response fails with has a class, unless it is nested too deep to be read. -/
theorem read_failure {delivery : Delivery} (h : (read delivery).outcome w = (.error f, v)) :
    f.isA .general = true ∨
      ∃ container, delivery.response.answer.tooDeep? = some container ∧
        f = .fault (.nestedTooDeep container) := by
  rw [read_outcome] at h
  cases ha : delivery.response.answer with
  | broken reason =>
    rw [ha] at h
    cases h
    exact .inl rfl
  | reply r =>
    rw [ha] at h
    simp only at h
    split at h
    · rename_i container hdeep
      cases h
      exact .inr ⟨container, hdeep, rfl⟩
    · refine .inl ?_
      split at h
      · -- the response is one of success, and only its body can be unreadable
        unfold content at h
        split at h
        · cases h
        · split at h
          · cases h
          · cases h
            rfl
      · cases h
        unfold refusal refusalOf
        simp only
        split
        · rfl
        · split <;> rfl

/-! ## §3 Carrying out a request -/

/-- Without a token nothing is sent, and the failure is that of obtaining the token. -/
theorem execute_of_no_token (client : Client) (request : Request)
    (h : w.tokens.getToken.1 = .error f) :
    (client.execute request).outcome w = (.error f, (accessToken.outcome w).2) := by
  have haccess : accessToken.outcome w = (.error f, (accessToken.outcome w).2) := by
    rw [accessToken_outcome, h]
  have hdispatch : (client.dispatch request).outcome w = (.error f, (accessToken.outcome w).2) := by
    rw [dispatch_outcome, haccess]
  exact run_bind_of_error hdispatch

/-- With a token the request is sent with its headers, and then its response is read. -/
theorem dispatch_of_token (client : Client) {headers : List (String × Json)}
    (hheaders : withHeaders (standardHeaders token) request.headers = .ok headers)
    (h : w.tokens.getToken.1 = .ok token) :
    let respond := w.network.respond request.method request.url
    ∃ v, (client.dispatch request).outcome w =
        (.ok { request, token, response := respond.1 }, v) ∧
      v.tokens = w.tokens.getToken.2 ∧ v.network = respond.2 ∧
      w.sentSince v = [{ request, token, headers, timeout := client.timeout }] := by
  intro respond
  have hok : (accessToken.outcome w).1 = .ok token := by rw [accessToken_outcome, h]
  have htokens : (accessToken.outcome w).2.tokens = w.tokens.getToken.2 := by
    rw [accessToken_outcome]
  have hnetwork : (accessToken.outcome w).2.network = w.network := accessToken_network w
  have hquiet : w.Extends (Event.Serves none) (accessToken.outcome w).2 :=
    accessToken_extends none w
  rcases haccess : accessToken.outcome w with ⟨x, u⟩
  rw [haccess] at hok htokens hnetwork hquiet
  obtain rfl : x = .ok token := hok
  replace hnetwork : u.network = w.network := hnetwork
  let v : World :=
    { ((u.log .debug s!"{request.method} {request.url}").record
        (.requested { request, token, headers, timeout := client.timeout })) with
      network := respond.2 }
  have hdispatch : (client.dispatch request).outcome w =
      (.ok { request, token, response := respond.1 }, v) := by
    rw [dispatch_outcome, haccess]
    simp only [hheaders, hnetwork, respond, v]
  refine ⟨v, hdispatch, htokens, rfl, ?_⟩
  -- between the token and the request there is a log line only
  rw [sentSince_trans hquiet (Q := fun _ => True)
    ⟨[.requested _, .logged _ _], rfl, fun _ _ => trivial⟩, sentSince_of_serves_none hquiet]
  rw [sentSince, since_eq [.requested _, .logged _ _] rfl]
  rfl

/-- With a token the request is sent, and it comes back with what the response says. -/
theorem execute_of_token (client : Client) (hp : request.headers = .null)
    (h : w.tokens.getToken.1 = .ok token) :
    let respond := w.network.respond request.method request.url
    ∃ v, v.tokens = w.tokens.getToken.2 ∧ v.network = respond.2 ∧
      w.Extends (Event.Serves (some request)) v ∧
      w.sentSince v =
        [{ request, token, headers := standardHeaders token, timeout := client.timeout }] ∧
      (client.execute request).outcome w =
        (read { request, token, response := respond.1 }).outcome v := by
  intro respond
  have hheaders : withHeaders (standardHeaders token) request.headers =
      .ok (standardHeaders token) := by
    simp [hp, withHeaders, Json.truthy]
  obtain ⟨v, hdispatch, htokens, hnetwork, hsent⟩ := client.dispatch_of_token hheaders h
  exact ⟨v, htokens, hnetwork, (client.dispatch_extends request).of_run hdispatch, hsent,
    run_bind_of_ok hdispatch⟩

/-- If the response is nested too deep to be read, a request that was sent ends with a fault, and
its token is there still, whatever the status is. -/
theorem execute_of_tooDeep (client : Client) {container : Json.Container}
    (hp : request.headers = .null) (h : w.tokens.getToken.1 = .ok token)
    (hdeep : (w.network.respond request.method request.url).1.answer.tooDeep? = some container) :
    ∃ v, (client.execute request).outcome w = (.error (.fault (.nestedTooDeep container)), v) ∧
      v.tokens = w.tokens.getToken.2 ∧
      v.network = (w.network.respond request.method request.url).2 ∧
      w.sentSince v =
        [{ request, token, headers := standardHeaders token, timeout := client.timeout }] := by
  obtain ⟨v, htokens, hnetwork, -, hsent, hread⟩ := client.execute_of_token hp h
  exact ⟨v, hread.trans (read_of_tooDeep hdeep v), htokens, hnetwork, hsent⟩

theorem requestsSince_execute_of_no_token (client : Client) (request : Request)
    (h : w.tokens.getToken.1 = .error f) :
    w.requestsSince ((client.execute request).outcome w).2 = [] := by
  rw [client.execute_of_no_token request h]
  exact requestsSince_of_serves_none (accessToken_extends none w)

theorem requestsSince_execute_of_token (client : Client) (hp : request.headers = .null)
    (h : w.tokens.getToken.1 = .ok token) :
    w.requestsSince ((client.execute request).outcome w).2 = [request] := by
  obtain ⟨v, -, -, hserves, hsent, houtcome⟩ := client.execute_of_token hp h
  let delivery : Delivery :=
    { request, token, response := (w.network.respond request.method request.url).1 }
  have hread : v.Extends (Event.Serves none) ((read delivery).outcome v).2 :=
    read_extends none delivery v
  rw [houtcome, requestsSince_trans hserves hread, requestsSince_of_serves_none hread,
    requestsSince_eq_map, hsent]
  rfl

/-- A request is sent exactly if there is a token, and otherwise it fails for that. -/
theorem execute_requests (client : Client) (hp : request.headers = .null) (w : World) :
    (∀ token, w.tokens.getToken.1 = .ok token →
      w.requestsSince ((client.execute request).outcome w).2 = [request]) ∧
    ∀ f, w.tokens.getToken.1 = .error f → ((client.execute request).outcome w).1 = .error f ∧
      w.requestsSince ((client.execute request).outcome w).2 = [] := by
  refine ⟨fun token => client.requestsSince_execute_of_token hp, fun f htoken => ⟨?_, ?_⟩⟩
  · rw [client.execute_of_no_token request htoken]
  · exact client.requestsSince_execute_of_no_token request htoken

/-- With a token a request makes the network respond once. -/
theorem network_execute (client : Client) (hp : request.headers = .null)
    (h : w.tokens.getToken.1 = .ok token) :
    ((client.execute request).outcome w).2.network =
      (w.network.respond request.method request.url).2 := by
  obtain ⟨v, -, hnetwork, -, -, hread⟩ := client.execute_of_token hp h
  rw [hread, read_network, hnetwork]

/-- A request without headers of its own fails with no other fault than that of a response that is
nested too deep to be read. -/
theorem execute_failure (hp : request.headers = .null)
    (h : (client.execute request).outcome w = (.error f, v)) :
    f.isA .general = true ∨
      ∃ container,
        (w.network.respond request.method request.url).1.answer.tooDeep? = some container ∧
          f = .fault (.nestedTooDeep container) := by
  cases htoken : w.tokens.getToken.1 with
  | ok token =>
    obtain ⟨u, -, -, -, -, hread⟩ := client.execute_of_token hp htoken
    rw [hread] at h
    exact read_failure h
  | error f' =>
    rw [client.execute_of_no_token request htoken] at h
    cases h
    -- only what the token endpoint refuses is left
    rw [Failure.isA, TokenStore.class?_of_getToken htoken]
    exact .inl rfl

end Client

/-! ## §4 Calls in jobs -/

namespace Job

variable {α : Type} {call : Call α} {a : α} {f : Failure} {w v : World}

theorem run_ofCall_of_ok (h : call.outcome w = (.ok a, v)) :
    (ExceptT.run (ofCall call)).run w = (.ok a, v) := by
  show ofCall call w = _
  rw [ofCall, h]

theorem run_ofCall_of_error (h : call.outcome w = (.error f, v)) :
    (ExceptT.run (ofCall call)).run w = (.error (.failure f), v) := by
  show ofCall call w = _
  rw [ofCall, h]

/-- A call does the same as a job. -/
theorem outcome_ofCall (call : Call α) (w : World) :
    (ofCall call).outcome w = ((call.outcome w).1.mapError .failure, (call.outcome w).2) := by
  rcases hx : call.outcome w with ⟨f | a, v⟩
  · exact run_ofCall_of_error hx
  · exact run_ofCall_of_ok hx

/-- A call comes back with what it comes back with as a job. -/
theorem outcome_of_run_ofCall (h : (ExceptT.run (ofCall call)).run w = (.ok a, v)) :
    call.outcome w = (.ok a, v) := by
  rcases hx : call.outcome w with ⟨f | b, u⟩
  · rw [run_ofCall_of_error hx] at h
    cases h
  · rw [run_ofCall_of_ok hx] at h
    cases h
    rfl

theorem run_ofFault_bind {β : Type} (x : Except Fault α) (f : α → Job β) (w : World) :
    (ExceptT.run (ofFault x >>= f)).run w =
      match x with
      | .ok a => (ExceptT.run (f a)).run w
      | .error fault => (.error (.failure (.fault fault)), w) := by
  cases x <;> rfl

end Job

end Fleet
