import Fleet.Cloud.World
import Fleet.Json.Reader

/-!
# Carrying out requests

A request is sent with the current access token and a JSON content type.  A success gives the
value of its body; every other status is a refusal that says what the body or the reason says;
no answer and an unreadable body are failures of their own.  A token that is rejected is dropped,
so that the next request obtains a new one.

The body comes first, whatever the status is.  One that is nested too deep to be read ends the
request with a fault, before anything is made of the status: then a token that was rejected stays.

Sending and reading are two actions, because something may happen to the sender while a request
is under way.
-/

namespace Fleet

/-- The settings of a client: the root of the compute API, and for how many seconds a request is
waited for. -/
structure Client where
  computeBase : String := "https://compute.googleapis.com/compute/v1"
  timeout : Seconds := .whole 60
deriving Repr, Inhabited

/-- A client for another root of the compute API; slashes at its end do not matter. -/
def Client.ofBase (base : String) : Client :=
  { computeBase := Text.dropTrailingSlashes base }

/-- A request that was sent, and the response that is on its way back. -/
structure Delivery where
  request : Request
  token : String
  response : Response
deriving Inhabited

/-- The value of a body, if it writes one. -/
def Reply.value? (r : Reply) : Except Fault (Option Json) :=
  match Json.read r.depth r.body with
  | .ok value => .ok (some value)
  | .error .malformed => .ok none
  | .error (.tooDeep container) => .error (.nestedTooDeep container)

namespace Client

/-! ## §1 Refusals -/

/-- What a status refuses. -/
def refusalOf (status : Int) : Refusal :=
  if status == 404 then .notFound
  else if status == 401 || status == 403 then .unauthorized
  else .general

/-- Whether a status is a success. -/
def isSuccess (status : Int) : Bool :=
  200 ≤ status && status ≤ 299

/-- What the body of a refusal says: a message, and the request it belongs to. -/
def describe (body : Option Json) : Json × Json :=
  match body with
  | some (.obj members) =>
    let message :=
      match Json.lookup "error" members with
      | some (.obj error) => (Json.lookup "message" error).getD (.str "")
      | some (.str error) => (Json.lookup "error_description" members).getD (.str error)
      | _ => (Json.lookup "message" members).getD (.str "")
    let requestId := ((Json.lookup "id" members).getD (.str "")).orElse (.str "")
    (message, .str requestId.text)
  | _ => (.str "", .str "")

/-- The longest excerpt of a body that stands in for a message. -/
def excerptLength : Nat := 200

/-- The beginning of the body, or of the reason if there is no body. -/
def excerpt (r : Reply) : Json :=
  let source := if r.body.isEmpty then r.reason else r.body
  .str (String.ofList (source.toList.take excerptLength))

/-- The failure that a reply other than a success stands for, with the value of its body. -/
def refusal (r : Reply) (body : Option Json) : Failure :=
  let (message, requestId) := describe body
  .refused (refusalOf r.status) (.int r.status) (message.orElse (excerpt r)) requestId

/-! ## §2 Tokens -/

/-- The current access token, or a new one. -/
def accessToken : Call String := do
  if (← get).tokens.asksEndpoint then
    Call.log .debug "Refreshing access token"
  let w ← get
  let (outcome, tokens) := w.tokens.getToken
  set { w with tokens }
  ofExcept outcome

/-- Drop a token that was rejected. -/
def rejectToken (token : Option String) : Call Unit := do
  if (← get).tokens.holds token then
    Call.log .debug "Discarding rejected access token"
  modify fun w => { w with tokens := w.tokens.invalidate token }

/-! ## §3 Requests -/

/-- The headers of every request. -/
def standardHeaders (token : String) : List (String × Json) :=
  [("Authorization", .str ("Bearer " ++ token)), ("Content-Type", .str "application/json")]

/-- Headers with those that a request adds or replaces. -/
def withHeaders (headers : List (String × Json)) (extra : Json) :
    Except Fault (List (String × Json)) :=
  if extra.truthy then
    match extra with
    | .obj members => .ok (members.foldl (fun hs (name, value) => Json.put name value hs) headers)
    | _ => .error (.notASequence extra.kind)
  else .ok headers

/-- Hand a request to the network. -/
def dispatch (client : Client) (request : Request) : Call Delivery := do
  let token ← accessToken
  let headers ← Call.ofFault (withHeaders (standardHeaders token) request.headers)
  Call.log .debug s!"{request.method} {request.url}"
  modify (·.record (.requested { request, token, headers, timeout := client.timeout }))
  let w ← get
  let (response, network) := w.network.respond request.method request.url
  set { w with network }
  return { request, token, response }

/-- Read the response of a request. -/
def read (delivery : Delivery) : Call Json := do
  let method := delivery.request.method
  let url := delivery.request.url
  match delivery.response.answer with
  | .broken reason => throw (.unanswered method url reason)
  | .reply r =>
    if isSuccess r.status then
      if r.body.isEmpty then return .obj []
      match ← Call.ofFault r.value? with
      | some value => return value
      | none => throw (.malformed (.response method url))
    else
      -- the body is read before the token is dropped, and a fault of it leaves the token there
      let body ← Call.ofFault r.value?
      -- only the token that this request carried is dropped
      if r.status == 401 then rejectToken (some delivery.token)
      Call.log .error s!"{method} {url} failed with status {r.status}"
      throw (refusal r body)

/-- Carry out a request. -/
def execute (client : Client) (request : Request) : Call Json := do
  let delivery ← client.dispatch request
  read delivery

/-- Carry out a request for something that may not exist; null stands for what does not. -/
def executeOrNull (client : Client) (request : Request) : Call Json :=
  tryCatch (client.execute request) fun f =>
    if f.isNotFound then pure .null else throw f

end Client

end Fleet
