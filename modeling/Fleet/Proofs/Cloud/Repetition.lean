import Fleet.Proofs.Cloud.Requests
import Fleet.Proofs.Cloud.Routing
import Fleet.Proofs.Uniformity
import Fleet.Server.Teardown

/-!
# Requests in another world

What a request comes back with depends on the tokens and on the rule that it takes.  So everything
that is made of requests is uniform over the worlds that have the same tokens, and whose networks
agree on these requests.

On the way from a world to a later one the network responds to the requests and changes by nothing
else, and the current token is kept unless a response rejects it.  This is how a world that several
servers use appears to each of them.

## Main definitions

- `World.Alike asked u v`: the worlds give the same answers to the given requests
- `World.Plays u v`: what becomes of the network and of the tokens on the way from `u` to `v`

## Main statements

- `Client.dispatch_uniform`, `Client.read_uniform`: sending and reading are uniform
- `Client.execute_uniform`, `Server.removeResources_uniform`: carrying out requests is uniform, and
  on the way the network does nothing but respond
-/

namespace Fleet

open World

/-! ## §1 Worlds that are alike -/

/-- The worlds have the same tokens, and their networks agree on the given requests. -/
structure World.Alike (asked : Request → Prop) (u v : World) : Prop where
  tokens_eq : v.tokens = u.tokens
  agree : Network.Agree asked u.network v.network

/-- Worlds compared by what they answer. -/
def Comparison.worlds (asked : Request → Prop) : Comparison World where
  world := id
  asked := asked
  Fits _ := True
  Alike := World.Alike asked
  fits_of_alike _ _ := trivial

/-- The function enters the event in the journal, and changes nothing that an answer depends on. -/
structure World.Notes (f : World → World) (e : Event) : Prop where
  journal_eq : ∀ w, (f w).journal = e :: w.journal
  network_eq : ∀ w, (f w).network = w.network
  tokens_eq : ∀ w, (f w).tokens = w.tokens
  request?_eq : e.request? = none

namespace World.Notes

variable {R : World → World → Prop} {asked : Request → Prop} {f : World → World} {e : Event}

theorem of_record (h : e.request? = none) : Notes (·.record e) e :=
  ⟨fun _ => rfl, fun _ => rfl, fun _ => rfl, h⟩

theorem of_log (level : Level) (message : String) :
    Notes (·.log level message) (.logged level message) :=
  of_record rfl

theorem of_wait (time : Seconds) : Notes (·.wait time) (.waited time) :=
  ⟨fun _ => rfl, fun _ => rfl, fun _ => rfl, rfl⟩

theorem remarks (h : Notes f e) (w : World) : w.Remarks (f w) :=
  ⟨⟨[e], h.journal_eq w, by simpa using h.request?_eq⟩, h.network_eq w, h.tokens_eq w⟩

theorem since_eq (h : Notes f e) (w : World) : w.since (f w) = [e] :=
  World.since_eq [e] (h.journal_eq w)

theorem alike (h : Notes f e) {u v : World} (halike : u.Alike asked v) :
    (f u).Alike asked (f v) where
  tokens_eq := by rw [h.tokens_eq, h.tokens_eq, halike.tokens_eq]
  agree := by
    rw [h.network_eq, h.network_eq]
    exact halike.agree

/-- To note something is uniform. -/
theorem uniform [World.Growth R] (h : Notes f e) :
    Uniform R (.worlds asked) (silent fun w => some (f w)) where
  onward := by
    intro w _ w' _ hw
    cases hw
    exact ⟨trivial, Growth.of_remarks (h.remarks w)⟩
  again := by
    intro u v _ u' _ halike hu _
    cases hu
    exact ⟨f v, rfl, (h.since_eq v).trans (h.since_eq u).symm, h.alike halike⟩

end World.Notes

/-- The world after a request was handed to the network. -/
def World.sending (w : World) (sent : SentRequest) : World :=
  { w.record (.requested sent) with
    network := (w.network.respond sent.request.method sent.request.url).2 }

theorem World.since_sending (w : World) (sent : SentRequest) :
    w.since (w.sending sent) = [.requested sent] :=
  since_eq [.requested sent] rfl

/-! ## §2 Sending and reading -/

namespace Client

variable {asked : Request → Prop}

theorem log_uniform {R : World → World → Prop} [World.Growth R] (level : Level)
    (message : String) : UniformAction R (.worlds asked) (Call.log level message) :=
  ((Notes.of_log level message).uniform.bind fun _ => Uniform.pure (Except.ok ())).of_eq fun _ =>
    rfl

/-- What is done with the tokens alone is uniform, since alike worlds have the same ones. -/
theorem tokens_uniform {β : Type} (f : TokenStore → β × TokenStore) :
    Uniform (Extends fun _ => True) (.worlds asked) fun w =>
      some ((f w.tokens).1, { w with tokens := (f w.tokens).2 }) where
  onward := by
    intro w b w' _ hw
    cases hw
    exact ⟨trivial, .of_journal_eq rfl⟩
  again := by
    intro u v b u' _ halike hu _
    cases hu
    refine ⟨{ v with tokens := (f v.tokens).2 }, by rw [halike.tokens_eq], ?_, ?_⟩
    · exact (since_eq [] rfl).trans (since_eq [] rfl).symm
    · exact ⟨by rw [halike.tokens_eq], halike.agree⟩

/-- A log line is written or not, whatever the tokens say. -/
theorem log_if_uniform {R : World → World → Prop} [World.Growth R] (c : TokenStore → Bool)
    (level : Level) (message : String) :
    Uniform R (.worlds asked) (silent fun w =>
      some (if c w.tokens then w.log level message else w)) := by
  refine Uniform.of_view World.tokens
    (fun tokens => silent fun w => some (if c tokens then w.log level message else w))
    (fun halike => halike.tokens_eq) fun w _ => ?_
  cases c w.tokens with
  | false => exact Uniform.pure ()
  | true => exact (Notes.of_log level message).uniform

/-- Obtaining a token depends on the tokens only. -/
theorem accessToken_uniform :
    UniformAction (Extends fun _ => True) (.worlds asked) accessToken := by
  refine ((log_if_uniform TokenStore.asksEndpoint .debug "Refreshing access token").bind fun _ =>
    tokens_uniform TokenStore.getToken).of_eq fun w => ?_
  show some (accessToken.outcome w) = _
  rw [accessToken_outcome, silent]
  cases w.tokens.asksEndpoint <;> rfl

/-- Dropping a token depends on the tokens only. -/
theorem rejectToken_uniform (token : Option String) :
    UniformAction (Extends fun _ => True) (.worlds asked) (rejectToken token) := by
  refine ((log_if_uniform (·.holds token) .debug "Discarding rejected access token").bind fun _ =>
    tokens_uniform fun tokens => (.ok (), tokens.invalidate token)).of_eq fun w => ?_
  show some ((rejectToken token).outcome w) = _
  rw [rejectToken_outcome, silent]
  cases w.tokens.holds token <;> rfl

/-- What responds to a request depends on the rule that the request takes. -/
theorem respond_uniform (sent : SentRequest) :
    Uniform (Extends fun _ => True) (.worlds asked) fun w =>
      some ((w.network.respond sent.request.method sent.request.url).1, w.sending sent) where
  onward := by
    intro w o w' _ hw
    cases hw
    exact ⟨trivial, [.requested sent], rfl, fun _ _ => trivial⟩
  again := by
    intro u v o u' _ halike hu hasks
    cases hu
    have hasked : asked sent.request := by
      refine hasks sent.request (mem_requestsSince.mpr ⟨sent, ?_, rfl⟩)
      exact (since_sending u sent).symm ▸ List.mem_singleton_self _
    refine ⟨v.sending sent, by rw [halike.agree.respond_eq hasked], ?_, halike.tokens_eq,
      halike.agree.respond sent.request⟩
    exact (since_sending v sent).trans (since_sending u sent).symm

/-- Sending a request depends on the tokens and on the rule that the request takes. -/
theorem dispatch_uniform (client : Client) (request : Request) :
    UniformAction (Extends fun _ => True) (.worlds asked) (client.dispatch request) := by
  refine UniformAction.bind accessToken_uniform fun token => .bind (.ofExcept _) fun headers =>
    .bind (log_uniform _ _) fun _ => ?_
  -- what is left is the request itself and its response
  let sent : SentRequest := { request, token, headers, timeout := client.timeout }
  exact ((respond_uniform sent).bind fun response =>
    Uniform.pure (Except.ok { request, token, response })).of_eq fun _ => rfl

/-- Reading a response depends on the tokens at most. -/
theorem read_uniform (delivery : Delivery) :
    UniformAction (Extends fun _ => True) (.worlds asked) (read delivery) := by
  unfold read
  split
  · exact .throw _
  · split
    · split
      · exact .pure _
      · refine UniformAction.bind (.ofExcept _) fun body => ?_
        split
        · exact .pure _
        · exact .throw _
    · refine UniformAction.bind (.ofExcept _) fun body => ?_
      split
      · exact (rejectToken_uniform _).bind fun _ => (log_uniform _ _).bind fun _ => .throw _
      · exact (log_uniform _ _).bind fun _ => .throw _

end Client

/-- Looking for errors in an operation is uniform. -/
theorem Operation.checked_uniform {R : World → World → Prop} [World.Growth R]
    {asked : Request → Prop} (operation : Json) :
    UniformAction R (.worlds asked) (Operation.checked operation) := by
  refine UniformAction.bind (.ofExcept _) fun errors => ?_
  split
  · refine UniformAction.bind (.ofExcept _) fun first => .bind (.ofExcept _) fun name => ?_
    split
    · exact (Client.log_uniform _ _).bind fun _ => .bind (.ofExcept _) fun f => .throw f
    · exact .bind (.ofExcept _) fun f => .throw f
  · exact .pure _

/-! ## §3 What the network does on the way -/

/-- On the way to a later world the network responds to the requests and does nothing else, and the
current token is kept unless a response rejects it. -/
structure World.Plays (u v : World) : Prop where
  grows : u.Extends (fun _ => True) v
  network_eq : v.network = u.network.after (u.requestsSince v)
  tokens_eq : (TokenStore.usable u.tokens.cached).isSome = true →
    (∀ response ∈ u.network.responses (u.requestsSince v), response.answer.rejects = false) →
    v.tokens = u.tokens

namespace World.Plays

variable {u v w : World}

theorem of_remarks (h : u.Remarks v) : u.Plays v where
  grows := h.grows.mono fun _ _ => trivial
  network_eq := by
    rw [h.requestsSince_eq_nil]
    exact h.network_eq
  tokens_eq _ _ := h.tokens_eq

theorem trans (h : u.Plays v) (h' : v.Plays w) : u.Plays w where
  grows := h.grows.trans h'.grows
  network_eq := by
    rw [requestsSince_trans h.grows h'.grows, Network.after_append, ← h.network_eq]
    exact h'.network_eq
  tokens_eq := by
    intro htoken hresponses
    rw [requestsSince_trans h.grows h'.grows, Network.responses_append, ← h.network_eq]
      at hresponses
    have hkept : v.tokens = u.tokens :=
      h.tokens_eq htoken fun response hr => hresponses response (List.mem_append_left _ hr)
    rw [← hkept] at htoken ⊢
    exact h'.tokens_eq htoken fun response hr => hresponses response (List.mem_append_right _ hr)

instance : World.Growth Plays where
  refl w := .of_remarks (.refl w)
  trans _ _ _ := .trans
  grows_of h := h.grows
  of_remarks := .of_remarks

theorem sending (w : World) (sent : SentRequest) : w.Plays (w.sending sent) where
  grows := ⟨[.requested sent], rfl, fun _ _ => trivial⟩
  network_eq := by
    rw [requestsSince, since_sending]
    rfl
  tokens_eq _ _ := rfl

end World.Plays

namespace Client

variable {client : Client} {request : Request} {delivery : Delivery} {w v m : World}

theorem accessToken_plays : Within Plays accessToken := by
  intro w
  show w.Plays (accessToken.outcome w).2
  have hgrows : w.Extends (Event.Serves none) (accessToken.outcome w).2 :=
    accessToken_extends none w
  refine ⟨hgrows.mono fun _ _ => trivial, ?_, fun htoken _ => ?_⟩
  · rw [requestsSince_of_serves_none hgrows]
    exact accessToken_network w
  · -- a token that can be sent is not exchanged for another one
    obtain ⟨token, htoken⟩ := Option.isSome_iff_exists.mp htoken
    rw [accessToken_outcome]
    simp only [TokenStore.getToken, htoken]

theorem dispatch_plays (client : Client) (request : Request) :
    Within Plays (client.dispatch request) :=
  accessToken_plays.bind fun token => .bind (.ofExcept _) fun headers =>
    .bind (.modify fun w => Growth.of_remarks ((Notes.of_log _ _).remarks w)) fun _ w =>
      Plays.sending w { request, token, headers, timeout := client.timeout }

/-- A request that was sent is the only one, and the response is the one of its rule. -/
theorem dispatch_response (h : (client.dispatch request).outcome w = (.ok delivery, v)) :
    w.requestsSince v = [request] ∧
      delivery.response = (w.network.respond request.method request.url).1 := by
  have hquiet : w.Extends (Event.Serves none) (accessToken.outcome w).2 :=
    accessToken_extends none w
  have hnetwork := accessToken_network w
  rw [dispatch_outcome] at h
  rcases hacc : accessToken.outcome w with ⟨f | token, u⟩
  · rw [hacc] at h
    cases h
  · rw [hacc] at h hquiet hnetwork
    simp only at h hquiet hnetwork
    split at h
    · cases h
    · cases h
      refine ⟨?_, by rw [hnetwork]⟩
      -- after the token there is a log line, and then the request
      rw [requestsSince_trans hquiet (Q := fun _ => True)
        ⟨[.requested _, .logged _ _], rfl, fun _ _ => trivial⟩, requestsSince_of_serves_none hquiet]
      rw [requestsSince, since_eq [.requested _, .logged _ _] rfl]
      rfl

/-- Once its response has been read, a request has made the network respond and may have cost the
token. -/
theorem read_plays (hsent : (client.dispatch request).outcome w = (.ok delivery, v))
    (hm : v.Remarks m) : w.Plays ((read delivery).outcome m).2 := by
  obtain ⟨hrequests, hresponse⟩ := dispatch_response hsent
  have hv : w.Plays v := (client.dispatch_plays request).of_run hsent
  have hwm : w.Plays m := hv.trans (.of_remarks hm)
  have hread : m.Extends (Event.Serves none) ((read delivery).outcome m).2 :=
    read_extends none delivery m
  have hall : w.requestsSince ((read delivery).outcome m).2 = w.requestsSince m := by
    rw [requestsSince_trans hwm.grows hread, requestsSince_of_serves_none hread, List.append_nil]
  refine ⟨hwm.grows.trans (hread.mono fun _ _ => trivial), ?_, fun htoken hresponses => ?_⟩
  · rw [hall, read_network]
    exact hwm.network_eq
  · rw [hall] at hresponses
    have hkept : delivery.response.answer.rejects = false := by
      apply hresponses
      rw [requestsSince_trans hv.grows hm.grows, hrequests, hm.requestsSince_eq_nil, hresponse]
      exact List.mem_cons_self
    rw [read_tokens, hkept]
    exact hwm.tokens_eq htoken hresponses

theorem execute_plays (client : Client) (request : Request) :
    Within Plays (client.execute request) := by
  intro w
  rcases hd : (client.dispatch request).outcome w with ⟨f | delivery, v⟩
  · rw [show (ExceptT.run (client.execute request)).run w = _ from run_bind_of_error hd]
    exact (client.dispatch_plays request).of_run hd
  · rw [show (ExceptT.run (client.execute request)).run w = _ from run_bind_of_ok hd]
    exact read_plays hd (.refl v)

variable {asked : Request → Prop}

theorem execute_uniform (client : Client) (request : Request) :
    UniformAction Plays (.worlds asked) (client.execute request) :=
  Uniform.strengthen
    (UniformAction.bind (client.dispatch_uniform request) fun delivery => read_uniform delivery)
    fun h => (client.execute_plays request).of_run (Option.some.inj h)

end Client

/-! ## §4 Removing resources -/

section Removal

variable {asked : Request → Prop}

theorem removeResource_uniform {request : Call Request}
    (hrequest : UniformAction Plays (.worlds asked) request) (client : Client) (absent : String) :
    UniformAction Plays (.worlds asked) (removeResource client request absent) := by
  refine UniformAction.tryCatch (UniformAction.bind hrequest fun q =>
    (client.execute_uniform q).discard) fun f => ?_
  split
  · exact Client.log_uniform _ _
  · exact .throw f

/-- Removing the resources of a server is uniform. -/
theorem Server.removeResources_uniform (s : Server) :
    UniformAction Plays (.worlds asked) s.removeResources :=
  (removeResource_uniform (UniformAction.bind (.ofExcept _) fun _ => .pure _) s.client _).bind
    fun _ => removeResource_uniform (.pure _) s.client _

end Removal

end Fleet
