import Fleet.Proofs.Cloud.Exchanges
import Fleet.Proofs.Json

/-!
# What becomes of a request

Whatever a request asks and whatever it is answered, it comes to one of a few ends.  An answer of
another status than success is a refusal of this status, whatever its body says, and if it rejects
the token, this is dropped.  One thing comes before that: the body is read first, and one that is
nested too deep is a fault with every status.  Then nothing is said of the status, and a token that
was rejected stays.

## Main definitions

- `Answer.ComesTo`: the end to which an answer brings a request
- `Answer.failureClass`: the class of the failure in it, if it is one and no fault

## Main statements

- `Client.message_of_refusal`: a refusal says nothing only if there is nothing to say
- `Answer.content_comesTo`: every answer brings its request to one of the ends
- `Client.outcome_of_every_request`: what becomes of a request between its token and its end
- `Client.nested_response_ends_with_fault`: a token that was rejected stays after such a body
-/

namespace Fleet

open World

/-! ## §1 Refusals -/

namespace Client

/-- The excerpt is empty only if both the body and the reason are. -/
theorem truthy_excerpt (r : Reply) :
    (excerpt r).truthy = false ↔ r.body = "" ∧ r.reason = "" := by
  have hempty (source : String) :
      (String.ofList (source.toList.take excerptLength)).isEmpty = true ↔ source = "" := by
    rw [String.isEmpty_iff, String.ofList_eq_empty_iff, List.take_eq_nil_iff,
      String.toList_eq_nil_iff]
    simp [excerptLength]
  unfold excerpt
  simp only [Json.truthy, Bool.not_eq_false', hempty]
  by_cases hbody : r.body = ""
  · simp [hbody]
  · simp [hbody]

/-- A body that has nothing in it says nothing. -/
theorem describe_of_empty : describe (Json.read? "") = (.str "", .str "") := by
  have hread : Json.read? "" = none := by rfl
  rw [hread]
  rfl

/-- A refusal has the status of its answer, and it says nothing only if there is nothing to say. -/
theorem message_of_refusal (r : Reply) :
    ∃ message requestId,
      refusal r (Json.read? r.body) =
        .refused (refusalOf r.status) (.int r.status) message requestId ∧
      (message.truthy = false ↔ r.body = "" ∧ r.reason = "") := by
  let said := describe (Json.read? r.body)
  refine ⟨said.1.orElse (excerpt r), said.2, rfl, ?_⟩
  cases hmessage : said.1.truthy with
  | false =>
    rw [Json.orElse_of_not_truthy hmessage]
    exact truthy_excerpt r
  | true =>
    rw [Json.orElse_of_truthy hmessage, hmessage]
    simp only [Bool.true_eq_false, false_iff]
    rintro ⟨hbody, -⟩
    rw [show said = describe (Json.read? "") from hbody ▸ rfl, describe_of_empty] at hmessage
    cases hmessage

end Client

/-! ## §2 Ends of a request -/

/-- The end to which an answer brings a request. -/
inductive Answer.ComesTo (request : Request) : Answer → Except Failure Json → Prop
  | broken (reason : String) :
      ComesTo request (.broken reason)
        (.error (.unanswered request.method request.url reason))
  /-- the body ends the request before anything is made of the status -/
  | tooDeep {r : Reply} {container : Json.Container} (hdeep : r.tooDeep? = some container) :
      ComesTo request (.reply r) (.error (.fault (.nestedTooDeep container)))
  | empty {r : Reply} (hstatus : 200 ≤ r.status ∧ r.status ≤ 299) (hbody : r.body = "") :
      ComesTo request (.reply r) (.ok (.obj []))
  | value {r : Reply} {value : Json} (hstatus : 200 ≤ r.status ∧ r.status ≤ 299)
      (hbody : r.body ≠ "") (hshallow : r.tooDeep? = none)
      (hvalue : Json.read? r.body = some value) :
      ComesTo request (.reply r) (.ok value)
  | unreadable {r : Reply} (hstatus : 200 ≤ r.status ∧ r.status ≤ 299) (hbody : r.body ≠ "")
      (hshallow : r.tooDeep? = none) (hnone : Json.read? r.body = none) :
      ComesTo request (.reply r) (.error (.malformed (.response request.method request.url)))
  /-- every other status is one of refusal -/
  | refused {r : Reply} {refusal : Refusal} {message requestId : Json}
      (hstatus : ¬ (200 ≤ r.status ∧ r.status ≤ 299)) (hshallow : r.tooDeep? = none)
      (hmessage : message.truthy = false ↔ r.body = "" ∧ r.reason = "") :
      ComesTo request (.reply r) (.error (.refused refusal (.int r.status) message requestId))

/-- Every answer brings its request to one of the ends. -/
theorem Answer.content_comesTo (request : Request) (a : Answer) :
    a.ComesTo request (a.content request) := by
  cases a with
  | broken reason => exact .broken reason
  | reply r =>
    have hsuccess : Client.isSuccess r.status = true ↔ 200 ≤ r.status ∧ r.status ≤ 299 := by
      simp [Client.isSuccess]
    unfold content
    simp only
    cases hshallow : r.tooDeep? with
    | some container => exact .tooDeep hshallow
    | none =>
      simp only
      split
      · rename_i hstatus
        rw [hsuccess] at hstatus
        unfold Client.content
        split
        · rename_i hbody
          exact .empty hstatus (String.isEmpty_iff.mp hbody)
        · rename_i hbody
          rw [String.isEmpty_iff] at hbody
          cases hread : Json.read? r.body with
          | some value => exact .value hstatus hbody hshallow hread
          | none => exact .unreadable hstatus hbody hshallow hread
      · rename_i hstatus
        rw [hsuccess] at hstatus
        obtain ⟨message, requestId, hrefusal, hmessage⟩ := Client.message_of_refusal r
        rw [hrefusal]
        exact .refused hstatus hshallow hmessage

/-- The class of the failure to which an answer may bring a request. -/
def Answer.failureClass : Answer → FailureClass
  | .broken _ => .network
  | .reply r =>
    if 200 ≤ r.status ∧ r.status ≤ 299 then .parse
    else if r.status = 404 then .notFound
    else if r.status = 401 ∨ r.status = 403 then .unauthorized
    else .transport

theorem Client.toClass_refusalOf (status : Int) :
    (refusalOf status).toClass =
      if status = 404 then .notFound
      else if status = 401 ∨ status = 403 then .unauthorized
      else .transport := by
  simp only [refusalOf, beq_iff_eq, Bool.or_eq_true]
  split
  · rfl
  · split <;> rfl

/-- A failure has its class, and a fault has none. -/
theorem Answer.class?_of_content {request : Request} {a : Answer} {f : Failure}
    (h : a.content request = .error f) :
    f.class? = if a.tooDeep? = none then some a.failureClass else none := by
  have hcomes := a.content_comesTo request
  rw [h] at hcomes
  cases hcomes with
  | broken reason => rfl
  | @tooDeep r container hdeep =>
    rw [show (Answer.reply r).tooDeep? = some container from hdeep, if_neg (Option.some_ne_none _)]
    rfl
  | @unreadable r hstatus _ hshallow =>
    rw [if_pos (show (Answer.reply r).tooDeep? = none from hshallow), failureClass, if_pos hstatus]
    rfl
  | @refused r _ _ _ hstatus hshallow =>
    rw [if_pos (show (Answer.reply r).tooDeep? = none from hshallow), failureClass, if_neg hstatus,
      ← Client.toClass_refusalOf]
    have hsuccess : Client.isSuccess r.status = false := by
      simpa [Client.isSuccess] using hstatus
    simp only [content, hshallow, hsuccess, Bool.false_eq_true, if_false] at h
    cases h
    rfl

namespace Client

/-- The headers of a request are the standard ones with its own put over them. -/
theorem withHeaders_eq_ok (headers : List (String × Json))
    (extra : Option (List (String × Json))) :
    withHeaders headers ((extra.map Json.obj).getD .null) =
      .ok ((extra.getD []).foldl (fun hs (name, value) => Json.put name value hs) headers) := by
  cases extra with
  | none => rfl
  | some members => cases members <;> rfl

/-- A response is read without anything being sent, and it costs the token that the request bore if
it rejects this token, it is not nested too deep, and the token is still the current one. -/
theorem read_spec (delivery : Delivery) (u : World) :
    let result := (read delivery).outcome u
    u.sentSince result.2 = [] ∧
      result.2.tokens =
        (if delivery.response.answer.status? = some 401 ∧
            delivery.response.answer.tooDeep? = none ∧
            u.tokens.cached = some delivery.token then { u.tokens with cached := none }
          else u.tokens) ∧
      delivery.response.answer.ComesTo delivery.request result.1 ∧
      ∀ f, result.1 = .error f →
        f.class? = if delivery.response.answer.tooDeep? = none then
          some delivery.response.answer.failureClass else none := by
  intro result
  have hresult : result.1 = delivery.response.answer.content delivery.request :=
    read_result delivery u
  refine ⟨sentSince_of_serves_none (read_extends none delivery u), ?_, ?_, fun f hf => ?_⟩
  · rw [show result = (read delivery).outcome u from rfl, read_tokens]
    simp only [Answer.rejects_iff, TokenStore.invalidate, TokenStore.holds, beq_iff_eq, ite_and]
  · rw [hresult]
    exact Answer.content_comesTo _ _
  · exact Answer.class?_of_content (hresult.symm.trans hf)

/-- What becomes of a request, whatever its method, its URL and what it carries. -/
theorem outcome_of_every_request (client : Client) (method url : String)
    (headers : Option (List (String × Json))) (params body : Json) (w : World) :
    let request : Request :=
      { method, url, headers := (headers.map .obj).getD .null, params, body }
    let sent := (client.dispatch request).outcome w
    let outcome := (client.execute request).outcome w
    -- without a token nothing is sent, and the failure is that of obtaining one
    (∀ f, w.tokens.getToken.1 = .error f →
      f.class? = some .unauthorized ∧ outcome.1 = .error f ∧ w.sentSince outcome.2 = []) ∧
    -- with a token the request is sent once, the token is kept, and then the response is read
    (∀ token, w.tokens.getToken.1 = .ok token →
      let delivery : Delivery :=
        { request, token, response := (w.network.respond method url).1 }
      sent.1 = .ok delivery ∧
      w.sentSince sent.2 =
        [{ request, token
           headers := (headers.getD []).foldl (fun hs (name, value) => Json.put name value hs)
             (standardHeaders token)
           timeout := client.timeout }] ∧
      sent.2.tokens.cached = some token ∧
      outcome = (read delivery).outcome sent.2 ∧ w.sentSince outcome.2 = w.sentSince sent.2) ∧
    -- whatever has happened until then, the answer decides to which end the request comes
    ∀ token response u,
      let result := (read { request, token, response }).outcome u
      u.sentSince result.2 = [] ∧
      result.2.tokens =
        (if response.answer.status? = some 401 ∧ response.answer.tooDeep? = none ∧
            u.tokens.cached = some token then { u.tokens with cached := none }
          else u.tokens) ∧
      response.answer.ComesTo request result.1 ∧
      -- a failure has the class that the answer gives it, and only a fault has none
      ∀ f, result.1 = .error f →
        f.class? = if response.answer.tooDeep? = none then some response.answer.failureClass
          else none := by
  intro request sent outcome
  refine ⟨fun f htoken => ?_, fun token htoken => ?_, fun token response u => ?_⟩
  · have houtcome : outcome = _ := client.execute_of_no_token request htoken
    rw [houtcome]
    exact ⟨TokenStore.class?_of_getToken htoken, rfl,
      sentSince_of_serves_none (accessToken_extends none w)⟩
  · intro delivery
    have hheaders : withHeaders (standardHeaders token) request.headers = .ok _ :=
      withHeaders_eq_ok (standardHeaders token) headers
    obtain ⟨v, hdispatch, htokens, -, hsent⟩ := client.dispatch_of_token hheaders htoken
    have hexecute : outcome = (read delivery).outcome v := run_bind_of_ok hdispatch
    have hquiet : v.Extends (Event.Serves none) ((read delivery).outcome v).2 :=
      read_extends none delivery v
    have hgrows : w.Extends (Event.Serves (some request)) v :=
      (client.dispatch_extends request).of_run hdispatch
    rw [show sent = _ from hdispatch, hexecute]
    refine ⟨rfl, hsent, ?_, rfl, ?_⟩
    · rw [htokens]
      exact (TokenStore.kept_of_getToken htoken).1
    · rw [sentSince_trans hgrows hquiet, sentSince_of_serves_none hquiet, List.append_nil]
  · exact read_spec { request, token, response } u

/-- A response of success that is nested too deep is not told to be unreadable, and a refusal that
is nested too deep does not say its status and leaves the token that it rejects. -/
theorem nested_response_ends_with_fault :
    let body := String.ofList (List.replicate 1000 '[')
    let w (status : Int) : World :=
      { network := [{ responses := [{ answer := .reply { status, body } }] }]
        tokens := .make (some "token") none none none }
    let outcome (status : Int) := (({} : Client).execute getUserInfo).outcome (w status)
    (outcome 200).1 = .error (.fault (.nestedTooDeep .array)) ∧
      (outcome 401).1 = .error (.fault (.nestedTooDeep .array)) ∧
      (outcome 401).2.tokens.cached = some "token" := by
  intro body w outcome
  have hends (status : Int) :
      (outcome status).1 = .error (.fault (.nestedTooDeep .array)) ∧
        (outcome status).2.tokens.cached = some "token" := by
    have hdeep : Reply.tooDeep? { status, body } = some .array :=
      Reply.tooDeep?_of_openings 1000 [] (by rw [List.append_nil])
        (show usualDepth < 1000 by decide)
    have hp : getUserInfo.headers = .null := rfl
    have htoken : (w status).tokens.getToken.1 = .ok "token" := rfl
    obtain ⟨v, houtcome, htokens, -, -⟩ := ({} : Client).execute_of_tooDeep hp htoken hdeep
    rw [show outcome status = _ from houtcome, htokens]
    exact ⟨rfl, rfl⟩
  exact ⟨(hends 200).1, (hends 401).1, (hends 401).2⟩

-- an error of no known layout neither hides the status nor saves the token
example :
    let w : World :=
      { network :=
          [{ responses :=
              [{ answer := .reply { status := 401, body := "\x7b\"error\": [0, \x7b\x7d]\x7d" } }] }]
        tokens := .make (some "token") none none none }
    let outcome := (({} : Client).execute getUserInfo).outcome w
    (∃ message requestId,
      outcome.1 = .error (.refused .unauthorized (.int 401) message requestId)) ∧
      outcome.2.tokens.cached = none :=
  ⟨⟨_, _, rfl⟩, rfl⟩

end Client

end Fleet
