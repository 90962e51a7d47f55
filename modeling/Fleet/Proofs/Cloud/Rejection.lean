import Mathlib.Data.List.Forall2
import Fleet.Proofs.Cloud.Pages

/-!
# Rejected tokens

A client drops the token that a response rejects, and it drops no token for any other response.  So
a token that was rejected is sent again only after a refresh has brought it again, and without
credentials for a refresh the first rejection is the end of all requests.  A response with the
status of a rejection that is nested too deep does not count: its token stays, and it is sent again.

## Main definitions

- `Client.after`: the world after some requests, whatever comes of them
- `World.Rejects`: the response to a request rejects the token that the request bears
- `TokenStore.renewal?`: the token that a refresh brings to the next request
- `Client.Use`, `Client.ask`: what somebody may ask of a client, and what the client does then
- `Client.Makes`: the requests that it may make for that

## Main statements

- `Client.tokens_afterRequest`: what a request does to the tokens
- `Client.exists_renewal`: a token that is not there is sent only after a refresh that brings it
- `Client.exists_requests_of_uses`: whatever is asked of a client is a sequence of requests
- `Client.rejected_token_is_not_sent`: the contract of a client about its tokens
- `Client.token_is_sent_after_nested_rejection`: where the contract ends
-/

namespace Fleet

open World

/-! ## §1 Obtaining a token -/

namespace TokenStore

variable {s : TokenStore}

/-- The token that a refresh brings to the next request, if the request needs one. -/
def renewal? (s : TokenStore) : Option String :=
  if s.asksEndpoint then (nextGrant s.grants).1.token? else none

/-- The failure of a store without a token and without credentials. -/
def noCredentials : Failure :=
  failure 401 "No refresh token available to obtain an access token"

theorem getToken_of_no_credentials (h : s.credentials = none) :
    s.getToken = (((usable s.cached).map Except.ok).getD (.error noCredentials), s) := by
  rw [getToken_eq_lockedGet]
  cases htoken : usable s.cached with
  | some token => exact lockedGet_of_usable htoken
  | none =>
    rw [lockedGet_of_unusable htoken]
    simp only [renew, refresh, h]
    rfl

/-- Whoever gets a token gets the one that is kept: the one that was there, or the one that a
refresh has brought. Whoever gets none leaves the kept one as it was. -/
theorem getToken_cases (s : TokenStore) :
    (∃ token, s.getToken.1 = .ok token ∧ s.getToken.2.cached = some token ∧
      (s.cached = some token ∨ s.renewal? = some token)) ∨
    ∃ f, s.getToken.1 = .error f ∧ s.getToken.2.cached = s.cached := by
  cases hcredentials : s.credentials.isSome with
  | false =>
    rw [Option.isSome_eq_false_iff, Option.isNone_iff_eq_none] at hcredentials
    rw [getToken_of_no_credentials hcredentials]
    cases htoken : usable s.cached with
    | some token =>
      obtain ⟨hcached, -⟩ := usable_eq_some htoken
      exact Or.inl ⟨token, rfl, hcached, Or.inl hcached⟩
    | none => exact Or.inr ⟨noCredentials, rfl, rfl⟩
  | true =>
    rw [getToken_eq_lockedGet]
    cases htoken : usable s.cached with
    | some token =>
      rw [lockedGet_of_usable htoken]
      obtain ⟨hcached, -⟩ := usable_eq_some htoken
      exact Or.inl ⟨token, rfl, hcached, Or.inl hcached⟩
    | none =>
      rw [lockedGet_of_unusable htoken]
      cases hgrant : (nextGrant s.grants).1.token? with
      | none =>
        obtain ⟨⟨f, hf, -⟩, hcached, -⟩ := renew_of_no_token hcredentials hgrant
        exact Or.inr ⟨f, hf, hcached⟩
      | some token =>
        obtain ⟨hok, hcached, -⟩ := renew_of_token hcredentials hgrant
        refine Or.inl ⟨token, hok, hcached, Or.inr ?_⟩
        simp [renewal?, asksEndpoint, htoken, hcredentials, hgrant]

theorem kept_of_getToken {token : String} (h : s.getToken.1 = .ok token) :
    s.getToken.2.cached = some token ∧ (s.cached = some token ∨ s.renewal? = some token) := by
  rcases s.getToken_cases with ⟨token', hok, hkept⟩ | ⟨f, hf, -⟩
  · rw [h] at hok
    cases hok
    exact hkept
  · rw [h] at hf
    cases hf

/-- Whoever has got a token gets it again. -/
theorem getToken_getToken {token : String}
    (h : s.getToken.1 = .ok token) : s.getToken.2.getToken.1 = .ok token := by
  -- the token that is kept can be sent, be it an old one or one that a refresh has brought
  have hkept : s.getToken.2.cached = some token := (kept_of_getToken h).1
  have husable : token ≠ "" := by
    rw [getToken_eq_lockedGet] at h
    cases htoken : usable s.cached with
    | some t =>
      rw [lockedGet_of_usable htoken] at h
      cases h
      exact (usable_eq_some htoken).2
    | none =>
      cases hcredentials : s.credentials with
      | none =>
        rw [← getToken_eq_lockedGet, getToken_of_no_credentials hcredentials, htoken] at h
        cases h
      | some credentials =>
        have hsome : s.credentials.isSome = true := by rw [hcredentials]; rfl
        rw [lockedGet_of_unusable htoken] at h
        cases hgrant : (nextGrant s.grants).1.token? with
        | none =>
          obtain ⟨⟨f, hf, -⟩, -⟩ := renew_of_no_token hsome hgrant
          rw [hf] at h
          cases h
        | some t =>
          obtain ⟨hok, -⟩ := renew_of_token hsome hgrant
          rw [hok] at h
          cases h
          exact ne_empty_of_token? hgrant
  rw [getToken_eq_lockedGet, lockedGet_of_usable (by rw [hkept]; exact usable_some husable)]

end TokenStore

/-! ## §2 One request -/

/-- The response to a request rejects the token that the request bears. -/
def World.Rejects (w : World) (request : Request) (token : String) : Prop :=
  w.tokens.getToken.1 = .ok token ∧
    (w.network.respond request.method request.url).1.answer.rejects = true

namespace Client

variable {client : Client} {w : World} {request : Request} {token : String}

/-- The world after a request, whatever comes of it. -/
def afterRequest (client : Client) (w : World) (request : Request) : World :=
  ((client.execute request).outcome w).2

/-- A request changes the tokens by being given one and by having it rejected. -/
theorem tokens_afterRequest (hp : request.headers = .null) :
    (client.afterRequest w request).tokens =
      match w.tokens.getToken with
      | (.ok _, s) =>
        if (w.network.respond request.method request.url).1.answer.rejects then
          { s with cached := none }
        else s
      | (.error _, s) => s := by
  rcases hget : w.tokens.getToken with ⟨f | token, s⟩
  · have hf : w.tokens.getToken.1 = .error f := by rw [hget]
    simp only [afterRequest, client.execute_of_no_token request hf, accessToken_outcome, hget]
  · have htoken : w.tokens.getToken.1 = .ok token := by rw [hget]
    obtain ⟨v, hv, -, -, -, houtcome⟩ := client.execute_of_token hp htoken
    rw [afterRequest, houtcome, read_tokens, hv]
    -- the token that the request bears is the one that is kept
    have hcached := (TokenStore.kept_of_getToken htoken).1
    rw [hget] at hcached
    simp [hget, TokenStore.invalidate, TokenStore.holds, show s.cached = some token from hcached]

/-- A request is sent with the token that was obtained for it, or not at all. -/
theorem sentSince_afterRequest (hp : request.headers = .null) :
    w.sentSince (client.afterRequest w request) =
      w.tokens.getToken.1.toOption.toList.map fun token =>
        { request, token, headers := standardHeaders token, timeout := client.timeout } := by
  cases htoken : w.tokens.getToken.1 with
  | error f =>
    rw [afterRequest, client.execute_of_no_token request htoken]
    exact sentSince_of_serves_none (accessToken_extends none w)
  | ok token =>
    obtain ⟨v, -, -, hserves, hsent, houtcome⟩ := client.execute_of_token hp htoken
    let delivery : Delivery :=
      { request, token, response := (w.network.respond request.method request.url).1 }
    have hread : v.Extends (Event.Serves none) ((read delivery).outcome v).2 :=
      read_extends none delivery v
    rw [afterRequest, houtcome, sentSince_trans hserves hread, sentSince_of_serves_none hread,
      hsent]
    rfl

theorem requestsSince_afterRequest (hp : request.headers = .null) :
    w.requestsSince (client.afterRequest w request) =
      if w.tokens.getToken.1.isOk then [request] else [] := by
  rw [requestsSince_eq_map, sentSince_afterRequest hp]
  cases w.tokens.getToken.1 <;> rfl

/-- A token that is not there does not get there unless a refresh brings it. -/
theorem cached_afterRequest_ne (client : Client) (hp : request.headers = .null)
    (hcached : w.tokens.cached ≠ some token) (hrenewal : w.tokens.renewal? ≠ some token) :
    (client.afterRequest w request).tokens.cached ≠ some token := by
  rw [tokens_afterRequest hp]
  rcases hget : w.tokens.getToken with ⟨x, s⟩
  have hcases := w.tokens.getToken_cases
  rw [hget] at hcases
  rcases hcases with ⟨token', rfl, hs, horigin⟩ | ⟨f, rfl, hs⟩
  · have hother : token' ≠ token := by
      rintro rfl
      exact horigin.elim hcached hrenewal
    simp only
    split
    · exact nofun
    · rw [show s.cached = some token' from hs]
      exact fun h => hother (Option.some.inj h)
  · rw [show s.cached = w.tokens.cached from hs]
    exact hcached

theorem credentials_getToken (s : TokenStore) : s.getToken.2.credentials = s.credentials := by
  rw [TokenStore.getToken_eq_lockedGet]
  unfold TokenStore.lockedGet TokenStore.refresh
  grind

/-- Without a token and without credentials for a refresh nothing happens any more. -/
theorem execute_of_no_credentials (client : Client) (request : Request)
    (hcredentials : w.tokens.credentials = none) (hcached : w.tokens.cached = none) :
    (client.execute request).outcome w = (.error TokenStore.noCredentials, w) := by
  have hget : w.tokens.getToken = (.error TokenStore.noCredentials, w.tokens) := by
    rw [TokenStore.getToken_of_no_credentials hcredentials, hcached]
    rfl
  rw [client.execute_of_no_token request (by rw [hget]), accessToken_outcome, hget]
  simp [TokenStore.asksEndpoint, hcredentials]

/-! ## §3 Sequences of requests -/

/-- The world after some requests, one after the other, whatever comes of them. -/
def after (client : Client) (w : World) (requests : List Request) : World :=
  requests.foldl client.afterRequest w

@[simp] theorem after_nil (client : Client) (w : World) : client.after w [] = w := rfl

@[simp] theorem after_cons (client : Client) (w : World) (request : Request)
    (requests : List Request) :
    client.after w (request :: requests) = client.after (client.afterRequest w request) requests :=
  rfl

theorem after_append (client : Client) (w : World) (requests requests' : List Request) :
    client.after w (requests ++ requests') = client.after (client.after w requests) requests' :=
  List.foldl_append

/-- A token that is not there is sent only after a refresh that brings it. -/
theorem exists_renewal {requests : List Request}
    (hp : ∀ request ∈ requests, request.headers = .null) (hcached : w.tokens.cached ≠ some token)
    (h : (client.after w requests).tokens.getToken.1 = .ok token) :
    ∃ before, before <+: requests ∧ (client.after w before).tokens.renewal? = some token := by
  -- as long as no refresh brings the token it stays away
  induction requests generalizing w with
  | nil =>
    rw [after_nil] at h
    exact ⟨[], List.nil_prefix, (TokenStore.kept_of_getToken h).2.resolve_left hcached⟩
  | cons request requests ih =>
    obtain ⟨hrequest, hrest⟩ := List.forall_mem_cons.mp hp
    by_cases hrenewal : w.tokens.renewal? = some token
    · exact ⟨[], List.nil_prefix, hrenewal⟩
    · have hstill := client.cached_afterRequest_ne hrequest hcached hrenewal
      obtain ⟨before, ⟨rest, rfl⟩, hbrought⟩ := ih hrest hstill h
      exact ⟨request :: before, ⟨rest, rfl⟩, hbrought⟩

theorem after_of_no_credentials (client : Client) (hcredentials : w.tokens.credentials = none)
    (hcached : w.tokens.cached = none) (requests : List Request) : client.after w requests = w := by
  induction requests with
  | nil => rfl
  | cons request requests ih =>
    rw [after_cons, afterRequest, client.execute_of_no_credentials request hcredentials hcached]
    exact ih

theorem credentials_after {requests : List Request}
    (hp : ∀ request ∈ requests, request.headers = .null) :
    (client.after w requests).tokens.credentials = w.tokens.credentials := by
  induction requests generalizing w with
  | nil => rfl
  | cons request requests ih =>
    obtain ⟨hrequest, hrest⟩ := List.forall_mem_cons.mp hp
    rw [after_cons, ih hrest, tokens_afterRequest hrequest, ← credentials_getToken w.tokens]
    rcases w.tokens.getToken with ⟨f | token, s⟩
    · rfl
    · simp only
      split <;> rfl

/-! ## §4 What is asked of a client -/

/-- What somebody may ask of a client. -/
inductive Use where
  /-- carry out a request -/
  | request (request : Request)
  /-- carry out a request for something that may not exist -/
  | lookUp (request : Request)
  /-- list all instances of a project, on one page or as many more -/
  | listing (more : Nat) (project : String) (selection : Option String)

/-- It brings no headers of its own. -/
def Use.IsPlain : Use → Prop
  | .request request | .lookUp request => request.headers = .null
  | .listing .. => True

/-- What a client does when it is asked. -/
def ask (client : Client) : Use → Job Json
  | .request request => client.execute request
  | .lookUp request => client.executeOrNull request
  | .listing more project selection =>
    return .arr (← client.listAllInstances (more + 1) project selection)

/-- The world after something was asked of a client, one after the other, whatever came of it. -/
def afterUses (client : Client) (w : World) (uses : List Use) : World :=
  uses.foldl (fun w use => ((client.ask use).outcome w).2) w

/-- The requests that a client may make for what is asked of it. -/
def Makes (client : Client) : Use → List Request → Prop
  | .request request, requests | .lookUp request, requests => requests = [request]
  | .listing _ project selection, requests =>
    ∃ tokens : List Json, requests = tokens.map (client.listInstances project selection)

theorem Makes.isPlain {use : Use} {requests : List Request} (h : client.Makes use requests)
    (hplain : use.IsPlain) : ∀ request ∈ requests, request.headers = .null := by
  intro request hrequest
  cases use with
  | request | lookUp =>
    rw [show requests = [_] from h, List.mem_singleton] at hrequest
    rw [hrequest]
    exact hplain
  | listing =>
    obtain ⟨tokens, rfl⟩ := h
    obtain ⟨pageToken, -, rfl⟩ := List.mem_map.mp hrequest
    rfl

theorem isPlain_of_makes {uses : List Use} {parts : List (List Request)}
    (h : List.Forall₂ client.Makes uses parts) (hplain : ∀ use ∈ uses, use.IsPlain) :
    ∀ requests ∈ parts, ∀ request ∈ requests, request.headers = .null := by
  induction h with
  | nil => exact nofun
  | cons hmakes _ ih =>
    obtain ⟨hfirst, hlater⟩ := List.forall_mem_cons.mp hplain
    exact List.forall_mem_cons.mpr ⟨hmakes.isPlain hfirst, ih hlater⟩

theorem executeOrNull_world (client : Client) (request : Request) (w : World) :
    ((client.executeOrNull request).outcome w).2 = client.afterRequest w request := by
  unfold afterRequest
  rcases hx : (client.execute request).outcome w with ⟨f | value, v⟩
  · have hcaught : (client.executeOrNull request).outcome w = _ := run_tryCatch_of_error hx
    rw [hcaught]
    cases f.isNotFound <;> rfl
  · have hcaught : (client.executeOrNull request).outcome w = _ := run_tryCatch_of_ok hx
    rw [hcaught]

/-- A listing asks for one page after the other, and at least for one if it may. -/
theorem exists_pages (client : Client) (project : String) (selection : Option String) (pages : Nat)
    (pageToken : Json) (w : World) :
    ∃ tokens : List Json, (pages ≠ 0 → tokens ≠ []) ∧
      ((client.listInstancesFrom project selection pages pageToken).outcome w).2 =
        client.after w (tokens.map (client.listInstances project selection)) := by
  induction pages generalizing pageToken w with
  | zero => exact ⟨[], absurd rfl, rfl⟩
  | succ pages ih =>
    have hone : ((client.execute (client.listInstances project selection pageToken)).outcome w).2 =
        client.after w ([pageToken].map (client.listInstances project selection)) := rfl
    rw [listInstancesFrom_outcome]
    rcases hx : (client.execute (client.listInstances project selection pageToken)).outcome w with
      ⟨f | page, v⟩
    all_goals rw [hx] at hone
    · exact ⟨[pageToken], fun _ => List.cons_ne_nil _ _, hone⟩
    · -- the listing goes on only if the page can be read and names a successor
      simp only
      split
      · exact ⟨[pageToken], fun _ => List.cons_ne_nil _ _, hone⟩
      · exact ⟨[pageToken], fun _ => List.cons_ne_nil _ _, hone⟩
      · rename_i next _ _
        split
        · obtain ⟨tokens, -, htokens⟩ := ih next v
          refine ⟨pageToken :: tokens, fun _ => List.cons_ne_nil _ _, ?_⟩
          rw [htokens, show v = _ from hone]
          rfl
        · exact ⟨[pageToken], fun _ => List.cons_ne_nil _ _, hone⟩

/-- Whatever is asked of a client is a sequence of requests, and at least one. -/
theorem exists_requests (client : Client) (w : World) (use : Use) :
    ∃ requests, requests ≠ [] ∧ client.Makes use requests ∧
      ((client.ask use).outcome w).2 = client.after w requests := by
  cases use with
  | request request =>
    exact ⟨[request], List.cons_ne_nil _ _, rfl,
      congrArg Prod.snd (Job.outcome_ofCall (client.execute request) w)⟩
  | lookUp request =>
    refine ⟨[request], List.cons_ne_nil _ _, rfl, ?_⟩
    exact (congrArg Prod.snd (Job.outcome_ofCall (client.executeOrNull request) w)).trans
      (client.executeOrNull_world request w)
  | listing more project selection =>
    obtain ⟨tokens, hne, htokens⟩ := client.exists_pages project selection (more + 1) .null w
    refine ⟨_, ?_, ⟨tokens, rfl⟩, ?_⟩
    · rw [ne_eq, List.map_eq_nil_iff]
      exact hne more.succ_ne_zero
    · rw [← htokens]
      rcases hx : (client.listInstancesFrom project selection (more + 1) .null).outcome w with
        ⟨halt | instances, v⟩
      · exact congrArg Prod.snd (run_bind_of_error hx)
      · exact congrArg Prod.snd (run_bind_of_ok hx)

/-- Whatever is asked of a client one after the other is a sequence of requests, at every stage of
it. -/
theorem exists_requests_of_uses (client : Client) (w : World) (uses : List Use) :
    ∃ parts, List.Forall₂ client.Makes uses parts ∧
      ∀ n, client.afterUses w (uses.take n) = client.after w (parts.take n).flatten := by
  induction uses generalizing w with
  | nil => exact ⟨[], .nil, fun n => by simp [afterUses]⟩
  | cons use uses ih =>
    obtain ⟨requests, -, hmakes, hfirst⟩ := client.exists_requests w use
    obtain ⟨parts, hall, hlater⟩ := ih ((client.ask use).outcome w).2
    refine ⟨requests :: parts, .cons hmakes hall, fun n => ?_⟩
    cases n with
    | zero => rfl
    | succ n =>
      rw [List.take_succ_cons, List.take_succ_cons, List.flatten_cons, after_append, ← hfirst]
      exact hlater n

/-- Without a token and without credentials for a refresh whatever is asked fails. -/
theorem ask_of_no_credentials (client : Client) (hcredentials : w.tokens.credentials = none)
    (hcached : w.tokens.cached = none) (use : Use) :
    (client.ask use).outcome w = (.error (.failure TokenStore.noCredentials), w) := by
  have hexecute (request : Request) :=
    client.execute_of_no_credentials request hcredentials hcached
  cases use with
  | request request => exact Job.run_ofCall_of_error (hexecute request)
  | lookUp request => exact Job.run_ofCall_of_error (run_tryCatch_of_error (hexecute request))
  | listing more project selection =>
    have hlisting : (client.listInstancesFrom project selection (more + 1) .null).outcome w =
        (.error (.failure TokenStore.noCredentials), w) := by
      rw [listInstancesFrom_outcome, hexecute]
    exact run_bind_of_error hlisting

/-! ## §5 The tokens of a client -/

/-- After a rejection there is no token. -/
theorem cached_of_rejects (client : Client) (hp : request.headers = .null)
    (h : w.Rejects request token) : (client.afterRequest w request).tokens.cached = none := by
  obtain ⟨htoken, hrejects⟩ := h
  rw [tokens_afterRequest hp]
  rcases hget : w.tokens.getToken with ⟨f | token', s⟩
  · rw [hget] at htoken
    cases htoken
  · simp only [hrejects, if_true]

/-- Whatever is asked of a client, as long as nobody brings headers of his own. -/
theorem rejected_token_is_not_sent (client : Client) (w : World) (uses : List Use)
    (h : ∀ use ∈ uses, use.IsPlain) :
    -- a response rejects the token exactly by its status, if it is not nested too deep
    (∀ answer : Answer, answer.rejects = true ↔
      answer.status? = some 401 ∧ answer.tooDeep? = none) ∧
    -- whatever is asked of the client is a sequence of requests, at every stage of it
    ∃ parts, List.Forall₂ client.Makes uses parts ∧
      (∀ n, client.afterUses w (uses.take n) = client.after w (parts.take n).flatten) ∧
      (∀ before request later, parts.flatten = before ++ request :: later →
        let v := client.after w before
        let v' := client.after w (before ++ [request])
        -- each request bears the token that is obtained for it, and without one it is not sent
        (v.sentSince v' = v.tokens.getToken.1.toOption.toList.map fun token =>
          { request, token, headers := standardHeaders token, timeout := client.timeout }) ∧
        -- that token is kept, and it is dropped only if the response rejects it
        ∀ token, v.tokens.getToken.1 = .ok token →
          v.tokens.getToken.2.cached = some token ∧
          v'.tokens =
            if (v.network.respond request.method request.url).1.answer.rejects then
              { v.tokens.getToken.2 with cached := none }
            else v.tokens.getToken.2) ∧
      -- a rejected token is sent again only after a refresh that has brought it again
      (∀ before request between request' later token,
        parts.flatten = before ++ request :: (between ++ request' :: later) →
        (client.after w before).Rejects request token →
        let v := client.after w (before ++ request :: between)
        ∀ sent ∈ v.sentSince (client.afterRequest v request'), sent.token = token →
          ∃ renewed, renewed <+: between ∧
            (client.after w (before ++ request :: renewed)).tokens.renewal? = some token) ∧
      -- without credentials for a refresh everything fails after the first rejection
      (w.tokens.credentials = none → ∀ n before request later token,
        (parts.take n).flatten = before ++ request :: later →
        (client.after w before).Rejects request token → ∀ use,
          (client.ask use).outcome (client.afterUses w (uses.take n)) =
            (.error (.failure TokenStore.noCredentials), client.afterUses w (uses.take n))) := by
  obtain ⟨parts, hparts, hstages⟩ := client.exists_requests_of_uses w uses
  have hparts' := isPlain_of_makes hparts h
  have hplain : ∀ request ∈ parts.flatten, request.headers = .null := by
    intro request hrequest
    obtain ⟨requests, hrequests, hmem⟩ := List.mem_flatten.mp hrequest
    exact hparts' requests hrequests request hmem
  refine ⟨Answer.rejects_iff, parts, hparts, hstages, ?_, ?_, ?_⟩
  · intro before request later hsplit v v'
    have hp : request.headers = .null := hplain request (by simp [hsplit])
    have hv' : v' = client.afterRequest v request := after_append client w before [request]
    refine ⟨hv' ▸ sentSince_afterRequest hp, fun token htoken => ?_⟩
    refine ⟨(TokenStore.kept_of_getToken htoken).1, ?_⟩
    rw [hv', tokens_afterRequest hp]
    rcases hget : v.tokens.getToken with ⟨f | token', s⟩
    · rw [hget] at htoken
      cases htoken
    · rfl
  · intro before request between request' later token hsplit hrejects v sent hsent hbears
    have hp : request.headers = .null := hplain request (by simp [hsplit])
    have hp' : request'.headers = .null := hplain request' (by simp [hsplit])
    have hbetween : ∀ q ∈ between, q.headers = .null :=
      fun q hq => hplain q (by simp [hsplit, hq])
    -- the request bears the token, so it has been obtained
    have htoken : v.tokens.getToken.1 = .ok token := by
      rw [sentSince_afterRequest hp'] at hsent
      obtain ⟨token', htoken', rfl⟩ := List.mem_map.mp hsent
      obtain rfl : token' = token := hbears
      cases hget : v.tokens.getToken.1 with
      | error f =>
        rw [hget] at htoken'
        cases htoken'
      | ok obtained =>
        rw [hget] at htoken'
        rw [List.mem_singleton.mp htoken']
    have hv : v = client.after (client.afterRequest (client.after w before) request) between :=
      after_append client w before (request :: between)
    rw [hv] at htoken
    have hdropped := client.cached_of_rejects hp hrejects
    obtain ⟨renewed, hrenewed, hbrought⟩ :=
      exists_renewal hbetween (by rw [hdropped]; exact nofun) htoken
    refine ⟨renewed, hrenewed, ?_⟩
    rw [after_append]
    exact hbrought
  · intro hcredentials n before request later token hsplit hrejects use
    have hsent : ∀ q ∈ before ++ [request], q.headers = .null := by
      intro q hq
      have hmem : q ∈ (parts.take n).flatten := by
        rw [hsplit, List.append_cons]
        exact List.mem_append_left later hq
      obtain ⟨requests, hrequests, hq⟩ := List.mem_flatten.mp hmem
      exact hparts' requests (List.mem_of_mem_take hrequests) q hq
    -- after the rejection there is neither a token nor a way to a new one
    let v := client.after w (before ++ [request])
    have hv : v = client.afterRequest (client.after w before) request :=
      after_append client w before [request]
    have hdropped : v.tokens.cached = none :=
      hv ▸ client.cached_of_rejects (hsent request (by simp)) hrejects
    have hnone : v.tokens.credentials = none := (credentials_after hsent).trans hcredentials
    have hstays : client.afterUses w (uses.take n) = v := by
      rw [hstages, hsplit, List.append_cons, after_append]
      exact client.after_of_no_credentials hnone hdropped later
    rw [hstays]
    exact client.ask_of_no_credentials hnone hdropped use

theorem nothing_is_sent_after_rejection :
    let client : Client := {}
    let w : World :=
      { network := [{ responses := [{ answer := .reply { status := 401 } }] }]
        tokens := .make (some "old") none none none }
    let uses : List Use := [.lookUp getUserInfo]
    let v := client.afterUses w uses
    (∀ use ∈ uses, use.IsPlain) ∧
      (client.ask (.listing 0 "project" none)).outcome v =
        (.error (.failure TokenStore.noCredentials), v) := by
  intro client w uses v
  have hplain : ∀ use ∈ uses, use.IsPlain := by
    intro use huse
    rw [List.mem_singleton.mp huse]
    rfl
  obtain ⟨-, parts, hparts, -, -, -, hends⟩ := rejected_token_is_not_sent client w uses hplain
  -- the one thing that was asked is the one request
  obtain ⟨requests, _, rfl, hnone, rfl⟩ := List.forall₂_cons_left_iff.mp hparts
  obtain rfl := List.forall₂_nil_left_iff.mp hnone
  exact ⟨hplain, hends rfl 1 [] getUserInfo [] "old" rfl ⟨rfl, rfl⟩ _⟩

/-- A response with the status of a rejection that is nested too deep leaves the token there, and
the next request bears it again, although no refresh can have brought it. -/
theorem token_is_sent_after_nested_rejection :
    let client : Client := {}
    let rejection : Reply := { status := 401, body := String.ofList (List.replicate 1000 '[') }
    let w : World :=
      { network := [{ responses := [{ answer := .reply rejection }] }]
        tokens := .make (some "old") none none none }
    let v := client.after w [getUserInfo]
    w.tokens.credentials = none ∧
      (w.sentSince v).map (·.token) = ["old"] ∧
      (v.sentSince (client.after v [getUserInfo])).map (·.token) = ["old"] := by
  intro client rejection w v
  have hdeep : rejection.tooDeep? = some .array :=
    Reply.tooDeep?_of_openings 1000 [] (by rw [List.append_nil]) (show usualDepth < 1000 by decide)
  have htoken : w.tokens.getToken.1 = .ok "old" := rfl
  have hp : getUserInfo.headers = .null := rfl
  obtain ⟨u, houtcome, htokens, -, -⟩ := client.execute_of_tooDeep hp htoken hdeep
  have hafter (x : World) : client.after x [getUserInfo] = client.afterRequest x getUserInfo := by
    rw [after_cons, after_nil]
  have hv : v = u := by
    rw [show v = _ from hafter w, afterRequest, houtcome]
  refine ⟨rfl, ?_, ?_⟩
  · rw [show v = _ from hafter w, sentSince_afterRequest hp, htoken]
    rfl
  · rw [hafter, sentSince_afterRequest hp, hv, htokens]
    rfl

end Client

end Fleet
