import Fleet.Cloud.Operation
import Fleet.Proofs.Effects

/-!
# What calls enter in the journal

The journal only grows, and what a call adds to it says what the call did to the outside.  Carrying
out a request adds that request, if a token could be had for it, and otherwise log lines only.

## Main definitions

- `World.since`: the events between two worlds
- `World.Extends P w v`: the journal of `v` is that of `w` with events of the kind `P` added
- `Event.Serves q`: an event that belongs to carrying out the request `q`

## Main statements

- `Client.dispatch_outcome`: what handing a request to the network comes back with and leaves behind
- `Client.execute_extends`: a request that is carried out adds nothing but itself and log lines
-/

namespace Fleet

/-! ## §1 Views of events -/

/-- The request that an event sends. -/
def Event.request? : Event → Option Request
  | .requested sent => some sent.request
  | _ => none

/-- The state that an event enters. -/
def Event.state? : Event → Option InstallState
  | .entered state => some state
  | _ => none

/-- Events of carrying out the given request, if one is given: log lines and the request. -/
def Event.Serves (q : Option Request) : Event → Prop
  | .logged .. => True
  | .requested sent => q = some sent.request
  | _ => False

theorem Event.Serves.weaken {q : Option Request} {e : Event} (h : e.Serves none) : e.Serves q := by
  cases e with
  | logged level message => trivial
  | requested sent => cases h
  | _ => exact h.elim

theorem Event.Serves.state?_eq {q : Option Request} {e : Event} (h : e.Serves q) :
    e.state? = none := by
  cases e with
  | entered state => exact h.elim
  | _ => rfl

theorem Event.Serves.request?_eq {e : Event} (h : e.Serves none) : e.request? = none := by
  cases e with
  | requested sent => cases h
  | _ => rfl

/-! ## §2 The events between two worlds -/

namespace World

/-- What has happened between two worlds, the oldest event first. -/
def since (w v : World) : List Event :=
  v.historySince w.journal.length

/-- The requests between two worlds, the oldest first. -/
def requestsSince (w v : World) : List Request :=
  (w.since v).filterMap Event.request?

/-- The states that were entered between two worlds, the oldest first. -/
def transitionsSince (w v : World) : List InstallState :=
  (w.since v).filterMap Event.state?

/-- The second journal is the first with events of the given kind added. -/
def Extends (P : Event → Prop) (w v : World) : Prop :=
  ∃ events, v.journal = events ++ w.journal ∧ ∀ e ∈ events, P e

theorem since_eq {w v : World} (events : List Event) (h : v.journal = events ++ w.journal) :
    w.since v = events.reverse := by
  simp [since, historySince, h]

theorem since_self (w : World) : w.since w = [] := by
  simp [since, historySince]

variable {P Q : Event → Prop} {u v w : World}

theorem Extends.mono (h : Extends P w v) (hPQ : ∀ e, P e → Q e) : Extends Q w v := by
  obtain ⟨events, hj, hP⟩ := h
  exact ⟨events, hj, fun e he => hPQ e (hP e he)⟩

theorem Extends.of_journal_eq (h : v.journal = w.journal) : Extends P w v :=
  ⟨[], h, fun _ he => absurd he List.not_mem_nil⟩

theorem Extends.refl (w : World) : Extends P w w :=
  .of_journal_eq rfl

theorem Extends.trans (h : Extends P u v) (h' : Extends P v w) : Extends P u w := by
  obtain ⟨before, hv, hb⟩ := h
  obtain ⟨after, hw, ha⟩ := h'
  -- newer events stand in front of older ones
  refine ⟨after ++ before, by rw [hw, hv, List.append_assoc], ?_⟩
  intro e he
  rcases List.mem_append.mp he with he | he
  · exact ha e he
  · exact hb e he

instance : IsPreorder World (Extends P) where
  refl := .refl
  trans _ _ _ := .trans

theorem Extends.record {e : Event} (h : P e) (w : World) : Extends P w (w.record e) :=
  ⟨[e], rfl, by simpa using h⟩

theorem Extends.mem_since {e : Event} (h : Extends P w v) (he : e ∈ w.since v) : P e := by
  obtain ⟨events, hj, hP⟩ := h
  rw [since_eq events hj, List.mem_reverse] at he
  exact hP e he

theorem since_trans (h : Extends P u v) (h' : Extends Q v w) :
    u.since w = u.since v ++ v.since w := by
  obtain ⟨before, hv, -⟩ := h
  obtain ⟨after, hw, -⟩ := h'
  have huw : w.journal = (after ++ before) ++ u.journal := by
    rw [hw, hv, List.append_assoc]
  rw [since_eq _ huw, since_eq _ hv, since_eq _ hw, List.reverse_append]

theorem requestsSince_trans (h : Extends P u v) (h' : Extends Q v w) :
    u.requestsSince w = u.requestsSince v ++ v.requestsSince w := by
  rw [requestsSince, since_trans h h', List.filterMap_append]
  rfl

theorem transitionsSince_trans (h : Extends P u v) (h' : Extends Q v w) :
    u.transitionsSince w = u.transitionsSince v ++ v.transitionsSince w := by
  rw [transitionsSince, since_trans h h', List.filterMap_append]
  rfl

theorem transitionsSince_self (w : World) : w.transitionsSince w = [] := by
  simp [transitionsSince, since_self]

theorem requestsSince_self (w : World) : w.requestsSince w = [] := by
  simp [requestsSince, since_self]

theorem transitionsSince_eq_nil (h : Extends (fun e => e.state? = none) w v) :
    w.transitionsSince v = [] := by
  rw [transitionsSince, List.filterMap_eq_nil_iff]
  exact fun e he => h.mem_since he

theorem requestsSince_eq_nil (h : Extends (fun e => e.request? = none) w v) :
    w.requestsSince v = [] := by
  rw [requestsSince, List.filterMap_eq_nil_iff]
  exact fun e he => h.mem_since he

theorem requestsSince_of_serves_none (h : Extends (Event.Serves none) w v) :
    w.requestsSince v = [] :=
  requestsSince_eq_nil (h.mono fun _ he => he.request?_eq)

theorem mem_requestsSince {request : Request} :
    request ∈ w.requestsSince v ↔ ∃ sent, .requested sent ∈ w.since v ∧ sent.request = request := by
  constructor
  · intro h
    obtain ⟨e, he, hrequest⟩ := List.mem_filterMap.mp h
    cases e with
    | requested sent => exact ⟨sent, he, Option.some.inj hrequest⟩
    | _ => cases hrequest
  · rintro ⟨sent, hsent, rfl⟩
    exact List.mem_filterMap.mpr ⟨_, hsent, rfl⟩

end World

/-! ## §3 Calls -/

/-- Whoever gets no token is not authorized. -/
theorem TokenStore.class?_of_getToken {s : TokenStore} {f : Failure}
    (h : s.getToken.1 = .error f) : f.class? = some .unauthorized := by
  rw [getToken_eq_lockedGet] at h
  unfold lockedGet refresh at h
  grind [failure, Failure.class?, Refusal.toClass]

/-- That no token can be had is not the answer that something does not exist. -/
theorem TokenStore.not_notFound_of_getToken {s : TokenStore} {f : Failure}
    (h : s.getToken.1 = .error f) : f.isNotFound = false := by
  rw [Failure.isNotFound, class?_of_getToken h]
  rfl

namespace Client

open World

/-- Every log line serves every request. -/
theorem log_extends (q : Option Request) (level : Level) (message : String) :
    Within (Extends (Event.Serves q)) (Call.log level message) :=
  Within.modify fun w => Extends.record trivial w

/-- Obtaining a token depends on the tokens only and leaves at most a log line. -/
theorem accessToken_outcome (w : World) :
    accessToken.outcome w =
      (w.tokens.getToken.1,
        { (if w.tokens.asksEndpoint then w.log .debug "Refreshing access token" else w) with
          tokens := w.tokens.getToken.2 }) := by
  unfold accessToken Call.outcome
  rw [run_get_bind]
  split
  · simp only [Call.log, run_modify_bind, run_get_bind, run_set_bind, run_ofExcept]
    rfl
  · simp only [run_get_bind, run_set_bind, run_ofExcept]

theorem accessToken_network (w : World) : (accessToken.outcome w).2.network = w.network := by
  rw [accessToken_outcome]
  split <;> rfl

theorem accessToken_extends (q : Option Request) :
    Within (Extends (Event.Serves q)) accessToken := by
  intro w
  show Extends _ w (accessToken.outcome w).2
  rw [accessToken_outcome]
  split
  · exact ⟨[.logged .debug "Refreshing access token"], rfl, by simp [Event.Serves]⟩
  · exact .of_journal_eq rfl

theorem dispatch_outcome (client : Client) (request : Request) (w : World) :
    (client.dispatch request).outcome w =
      match accessToken.outcome w with
      | (.error f, v) => (.error f, v)
      | (.ok token, v) =>
        match withHeaders (standardHeaders token) request.headers with
        | .error fault => (.error (.fault fault), v)
        | .ok headers =>
          (.ok { request, token, response := (v.network.respond request.method request.url).1 },
            { ((v.log .debug s!"{request.method} {request.url}").record
                (.requested { request, token, headers, timeout := client.timeout })) with
              network := (v.network.respond request.method request.url).2 }) := by
  unfold dispatch
  rcases h : accessToken.outcome w with ⟨f | token, v⟩
  · exact run_bind_of_error h
  · refine (run_bind_of_ok h).trans ?_
    simp only
    cases hh : withHeaders (standardHeaders token) request.headers with
    | error fault => exact run_bind_of_error rfl
    | ok headers => exact (run_bind_of_ok rfl).trans rfl

/-- Whether a request is sent, and what responds to it, does not depend on the journal. -/
theorem dispatch_congr (client : Client) (request : Request) {w v : World}
    (htokens : v.tokens = w.tokens) (hnetwork : v.network = w.network) :
    ((client.dispatch request).outcome v).1 = ((client.dispatch request).outcome w).1 := by
  have hv := accessToken_network v
  have hw := accessToken_network w
  -- the token depends on the tokens that are there, and the response on the network
  have htoken : (accessToken.outcome v).1 = (accessToken.outcome w).1 := by
    rw [accessToken_outcome, accessToken_outcome, htokens]
  rw [dispatch_outcome, dispatch_outcome]
  rcases hav : accessToken.outcome v with ⟨x, v'⟩
  rcases haw : accessToken.outcome w with ⟨y, w'⟩
  rw [hav] at hv htoken
  rw [haw] at hw htoken
  obtain rfl : x = y := htoken
  cases x with
  | error f => rfl
  | ok token =>
    have hrespond : v'.network = w'.network := by rw [hv, hw, hnetwork]
    simp only [hrespond]
    split <;> rfl

theorem dispatch_extends (client : Client) (request : Request) :
    Within (Extends (Event.Serves (some request))) (client.dispatch request) := by
  intro w
  show Extends _ w ((client.dispatch request).outcome w).2
  rw [dispatch_outcome]
  rcases h : accessToken.outcome w with ⟨f | token, v⟩
  · exact (accessToken_extends (some request)).of_run h
  · have htoken : Extends (Event.Serves (some request)) w v :=
      (accessToken_extends (some request)).of_run h
    simp only
    split
    · -- the headers could not be put together, so nothing was sent
      exact htoken
    · apply htoken.trans
      refine ⟨[.requested _, .logged _ _], rfl, ?_⟩
      simp [Event.Serves]

theorem rejectToken_extends (q : Option Request) (token : Option String) :
    Within (Extends (Event.Serves q)) (rejectToken token) := by
  refine Within.bind .get fun w => ?_
  split
  · exact (log_extends q _ _).bind fun _ => .modify fun w => .of_journal_eq rfl
  · exact .modify fun w => .of_journal_eq rfl

theorem read_extends (q : Option Request) (delivery : Delivery) :
    Within (Extends (Event.Serves q)) (read delivery) := by
  unfold read
  split
  · exact .throw _
  · -- a response of success is only decoded, and one of failure is logged at least
    split
    · split
      · exact .pure _
      · refine Within.bind (.ofExcept _) fun body => ?_
        split
        · exact .pure _
        · exact .throw _
    · refine Within.bind (.ofExcept _) fun body => ?_
      split
      · exact (rejectToken_extends q _).bind fun _ => (log_extends q _ _).bind fun _ => .throw _
      · exact (log_extends q _ _).bind fun _ => .throw _

/-- Carrying out a request adds at most that request and log lines. -/
theorem execute_extends (client : Client) (request : Request) :
    Within (Extends (Event.Serves (some request))) (client.execute request) :=
  (client.dispatch_extends request).bind fun delivery => read_extends _ delivery

/-- A request without headers of its own is sent exactly if a token can be had for it; then the
response is the one that the network holds ready. -/
theorem dispatch_cases (client : Client) {request : Request} (hp : request.headers = .null)
    (w : World) :
    let outcome := (client.dispatch request).outcome w
    (∃ f, w.tokens.getToken.1 = .error f ∧ outcome.1 = .error f ∧
      w.requestsSince outcome.2 = []) ∨
    (∃ token, w.tokens.getToken.1 = .ok token ∧
      outcome.1 =
        .ok { request, token, response := (w.network.respond request.method request.url).1 } ∧
      w.requestsSince outcome.2 = [request]) := by
  have htoken := accessToken_outcome w
  have hext : Extends (Event.Serves none) w (accessToken.outcome w).2 :=
    accessToken_extends none w
  have hnetwork := accessToken_network w
  rcases hacc : accessToken.outcome w with ⟨x, v⟩
  rw [hacc] at htoken hext hnetwork
  obtain rfl : x = w.tokens.getToken.1 := congrArg Prod.fst htoken
  simp only [dispatch_outcome, hacc]
  cases hx : w.tokens.getToken.1 with
  | error f => exact Or.inl ⟨f, rfl, rfl, requestsSince_of_serves_none hext⟩
  | ok token =>
    have hheaders : withHeaders (standardHeaders token) request.headers =
        .ok (standardHeaders token) := by
      simp [hp, withHeaders, Json.truthy]
    simp only [hheaders]
    refine Or.inr ⟨token, rfl, by rw [← hnetwork], ?_⟩
    -- after the token there is a log line, and then the request
    rw [requestsSince_trans hext (Q := fun _ => True)
      ⟨[.requested _, .logged _ _], rfl, fun _ _ => trivial⟩, requestsSince_of_serves_none hext]
    rw [requestsSince, since_eq [.requested _, .logged _ _] rfl]
    rfl

/-- A request without headers of its own that is carried out was sent, unless no token could be
had for it. -/
theorem execute_cases (client : Client) {request : Request} (hp : request.headers = .null)
    (w : World) :
    let outcome := (client.execute request).outcome w
    (∃ f, outcome.1 = .error f ∧ f.isNotFound = false ∧ w.requestsSince outcome.2 = []) ∨
      w.requestsSince outcome.2 = [request] := by
  rcases hd : (client.dispatch request).outcome w with ⟨x, v⟩
  rcases client.dispatch_cases hp w with ⟨f, hf, hx, hnone⟩ | ⟨token, -, hx, hone⟩
  · -- no token could be had
    rw [hd] at hx hnone
    cases hx
    have he : (client.execute request).outcome w = (.error f, v) := run_bind_of_error hd
    rw [he]
    exact Or.inl ⟨f, rfl, TokenStore.not_notFound_of_getToken hf, hnone⟩
  · -- the request was sent, and reading the response sends nothing more
    rw [hd] at hx hone
    cases hx
    have he : (client.execute request).outcome w = (read _).outcome v := run_bind_of_ok hd
    have hsent : Extends (Event.Serves (some request)) w v :=
      (client.dispatch_extends request).of_run hd
    have hread (delivery : Delivery) :
        Extends (Event.Serves none) v ((read delivery).outcome v).2 :=
      read_extends none delivery v
    rw [he]
    right
    rw [requestsSince_trans hsent (hread _), requestsSince_of_serves_none (hread _), hone]
    rfl

end Client

/-- Looking for errors in an operation adds only log lines. -/
theorem Operation.checked_extends (q : Option Request) (operation : Json) :
    Within (World.Extends (Event.Serves q)) (Operation.checked operation) := by
  refine Within.bind (.ofExcept _) fun errors => ?_
  split
  · refine Within.bind (.ofExcept _) fun first => .bind (.ofExcept _) fun name => ?_
    split
    · exact (Client.log_extends q _ _).bind fun _ => .bind (.ofExcept _) fun f => .throw f
    · exact .bind (.ofExcept _) fun f => .throw f
  · exact .pure _

end Fleet
