import Fleet.Instance.Direct
import Fleet.Proofs.Cloud.Requests
import Mathlib.Data.Nat.Find

/-!
# Trying a creation again

The direct API refuses to create an instance while one of the same name is still being removed.  The
creation is tried again then, after a pause, until a try comes back with anything else or the last
try is made.  Only the request is tried again: what is made of its reply is not.

## Main definitions

- `DirectApi.tryAt`: what a try comes back with, if all tries before it are followed by another one
- `DirectApi.SaysFinalizing`: an outcome after which a creation is tried again
- `DirectApi.create`: the creation of an instance with a key that is registered

## Main statements

- `DirectApi.attempt_untilTry`: what follows one try
- `DirectApi.attempt_of_saysFinalizing`: the tries before one are over
- `DirectApi.since_tryAt`: everything that happens until a try is over
- `DirectApi.creation_is_retried`: how often a creation is tried, and what comes of it
-/

namespace Fleet

open World

/-- How long an event slept. -/
def Event.slept? : Event → Option Seconds
  | .slept time => some time
  | _ => none

namespace DirectApi

/-! ## §1 Tries -/

/-- The request of every try. -/
def creation (api : DirectApi) (body : Json) : Request :=
  { method := "POST", url := api.base ++ "/instances", body }

/-- The log line with which a try begins; the first one has the number zero. -/
def announcement (i : Nat) : String :=
  s!"Requesting instance creation {i + 1}/{maxAttempts}"

/-- The log line with which a pause begins. -/
def pauseLine (name : String) : String :=
  s!"Instance name {name} is still finalizing, retrying in 5s"

/-- One try, which is announced with its number. -/
def trial (api : DirectApi) (body : Json) (i : Nat) (w : World) : Except Failure Json × World :=
  (api.client.execute (api.creation body)).outcome (w.log .info (announcement i))

/-- A pause between two tries. -/
def pause (name : String) (w : World) : World :=
  (w.log .warning (pauseLine name)).sleep retryDelay

/-- The world before a try, if all tries before it are followed by another one. -/
def untilTry (api : DirectApi) (name : String) (body : Json) (w : World) : Nat → World
  | 0 => w
  | i + 1 => pause name (api.trial body i (api.untilTry name body w i)).2

/-- What a try comes back with and the world after it, if all tries before it are followed by
another one. -/
def tryAt (api : DirectApi) (name : String) (body : Json) (w : World) (i : Nat) :
    Except Failure Json × World :=
  api.trial body i (api.untilTry name body w i)

/-- The outcome is a failure whose text says that something is being removed. -/
def SaysFinalizing (o : Except Failure Json) : Prop :=
  ∃ f, o = .error f ∧ ∃ before after,
    f.message.toList.map Char.toLower = before ++ "finalizing".toList ++ after

variable {api : DirectApi} {name : String} {body : Json} {w v : World} {i k : Nat}

theorem request_instances (api : DirectApi) (body : Json) :
    api.request "POST" "instances" .null body = api.client.execute (api.creation body) := by
  unfold request creation
  rw [String.append_assoc]
  rfl

/-- A response that is nested too deep says nothing about something being removed. -/
theorem not_saysFinalizing_nestedTooDeep (container : Json.Container) :
    ¬ SaysFinalizing (.error (.fault (.nestedTooDeep container))) := by
  rintro ⟨f, hf, htext⟩
  cases hf
  rw [← Text.occursIn_iff] at htext
  cases container <;> cases htext

/-- Whether a try is followed by another one is told by the text of its failure: the one fault with
which a request can fail has another text. -/
theorem isFinalizing_iff {f : Failure} (h : api.trial body i w = (.error f, v)) :
    isFinalizing f = true ↔ SaysFinalizing (.error f) := by
  rcases Client.execute_failure rfl h with hgeneral | ⟨container, -, rfl⟩
  · have hclass : f.class?.isSome = true := by
      unfold Failure.isA at hgeneral
      split at hgeneral
      · rename_i hclass
        rw [hclass]
        rfl
      · cases hgeneral
    rw [isFinalizing, hclass, Bool.true_and, Text.occursIn_iff]
    constructor
    · intro htext
      exact ⟨f, rfl, htext⟩
    · rintro ⟨f', hf', htext⟩
      cases hf'
      exact htext
  · exact iff_of_false Bool.false_ne_true (not_saysFinalizing_nestedTooDeep container)

/-- What follows one try. -/
theorem attempt_untilTry (api : DirectApi) (name : String) (body : Json) (w : World)
    (hi : i < maxAttempts) :
    (api.attempt name body (maxAttempts - i)).outcome (api.untilTry name body w i) =
      match api.tryAt name body w i with
      | (.ok reply, v) => (.ok reply, v)
      | (.error f, v) =>
        if isFinalizing f && i + 1 < maxAttempts then
          (api.attempt name body (maxAttempts - (i + 1))).outcome (pause name v)
        else (.error f, v) := by
  let left := maxAttempts - (i + 1)
  have hnumber : maxAttempts - left = i + 1 := by omega
  have hmore : (0 < left) = (i + 1 < maxAttempts) := propext (by omega)
  have hbody : (api.attempt name body (left + 1)).outcome (api.untilTry name body w i) =
      (ExceptT.run (tryCatch (api.client.execute (api.creation body)) fun f => do
        if isFinalizing f && 0 < left then
          Call.log .warning (pauseLine name)
          modify (·.sleep retryDelay)
          api.attempt name body left
        else throw f)).run ((api.untilTry name body w i).log .info (announcement i)) := by
    rw [attempt, request_instances, hnumber]
    rfl
  rw [show maxAttempts - i = left + 1 by omega, hbody]
  simp only [hmore]
  rcases htry : api.tryAt name body w i with ⟨f | reply, v⟩
  · refine (run_tryCatch_of_error htry).trans ?_
    simp only
    split <;> rfl
  · exact run_tryCatch_of_ok htry

/-- A try that is refused for something being removed is followed by another one, unless it is the
last. -/
theorem attempt_of_saysFinalizing (hi : i + 1 < maxAttempts)
    (h : SaysFinalizing (api.tryAt name body w i).1) :
    (api.attempt name body (maxAttempts - i)).outcome (api.untilTry name body w i) =
      (api.attempt name body (maxAttempts - (i + 1))).outcome
        (api.untilTry name body w (i + 1)) := by
  have hnext : api.untilTry name body w (i + 1) = pause name (api.tryAt name body w i).2 := rfl
  rw [attempt_untilTry api name body w (Nat.lt_of_succ_lt hi), hnext]
  rcases htry : api.tryAt name body w i with ⟨f | reply, v⟩
  all_goals rw [htry] at h
  · simp only [(isFinalizing_iff htry).mpr h, hi, decide_true, Bool.and_self, if_true]
  · obtain ⟨f, hf, -⟩ := h
    cases hf

/-- After any other try, and after the last one, there is none. -/
theorem attempt_of_last (hi : i < maxAttempts)
    (h : ¬ SaysFinalizing (api.tryAt name body w i).1 ∨ i + 1 = maxAttempts) :
    (api.attempt name body (maxAttempts - i)).outcome (api.untilTry name body w i) =
      api.tryAt name body w i := by
  rw [attempt_untilTry api name body w hi]
  rcases htry : api.tryAt name body w i with ⟨f | reply, v⟩
  · rw [htry] at h
    have hstops : (isFinalizing f && decide (i + 1 < maxAttempts)) = false := by
      rcases h with hother | hlast
      · rw [Bool.eq_false_iff.mpr (mt (isFinalizing_iff htry).mp hother), Bool.false_and]
      · rw [decide_eq_false (by omega), Bool.and_false]
    simp only [hstops]
    rfl
  · rfl

/-- As long as every try is followed by another one, the tries that are left decide. -/
theorem attempt_eq_untilTry (hk : k < maxAttempts)
    (h : ∀ i < k, SaysFinalizing (api.tryAt name body w i).1) :
    (api.attempt name body maxAttempts).outcome w =
      (api.attempt name body (maxAttempts - k)).outcome (api.untilTry name body w k) := by
  induction k with
  | zero => rfl
  | succ k ih =>
    rw [ih (by omega) fun i hi => h i (by omega)]
    exact attempt_of_saysFinalizing hk (h k (by omega))

/-- A creation ends with the first try that is not refused for something being removed, or with the
last one. -/
theorem attempt_outcome_eq_tryAt (hk : k < maxAttempts)
    (hbefore : ∀ i < k, SaysFinalizing (api.tryAt name body w i).1)
    (h : ¬ SaysFinalizing (api.tryAt name body w k).1 ∨ k + 1 = maxAttempts) :
    (api.attempt name body maxAttempts).outcome w = api.tryAt name body w k := by
  rw [attempt_eq_untilTry hk hbefore, attempt_of_last hk h]

/-- Some try is the last. -/
theorem exists_last_try (api : DirectApi) (name : String) (body : Json) (w : World) :
    ∃ k < maxAttempts, (api.attempt name body maxAttempts).outcome w = api.tryAt name body w k := by
  by_cases hall : ∀ i < maxAttempts - 1, SaysFinalizing (api.tryAt name body w i).1
  · exact ⟨maxAttempts - 1, by decide, attempt_outcome_eq_tryAt (by decide) hall (Or.inr rfl)⟩
  · have hother : ∃ i, i < maxAttempts - 1 ∧ ¬ SaysFinalizing (api.tryAt name body w i).1 := by
      simpa using hall
    classical
    obtain ⟨hfound, hstops⟩ := Nat.find_spec hother
    have hlast : Nat.find hother < maxAttempts := by omega
    refine ⟨Nat.find hother, hlast, attempt_outcome_eq_tryAt hlast (fun i hi => ?_) (Or.inl hstops)⟩
    by_contra hi'
    exact Nat.find_min hother hi ⟨by omega, hi'⟩

/-! ## §2 What happens in tries -/

/-- The events of a try after its announcement. -/
def tryEvents (api : DirectApi) (name : String) (body : Json) (w : World) (i : Nat) : List Event :=
  ((api.untilTry name body w i).log .info (announcement i)).since (api.tryAt name body w i).2

/-- The event sends no request but the given one. -/
def SendsOnly (request : Request) (e : Event) : Prop :=
  ∀ sent, e.request? = some sent → sent = request

theorem sendsOnly_of_serves {request : Request} {e : Event} (h : e.Serves (some request)) :
    SendsOnly request e := by
  intro sent hsent
  cases e with
  | requested other =>
    cases h
    exact (Option.some.inj hsent).symm
  | _ => cases hsent

theorem trial_extends (api : DirectApi) (body : Json) (i : Nat) (w : World) :
    (w.log .info (announcement i)).Extends (Event.Serves (some (api.creation body)))
      (api.trial body i w).2 :=
  api.client.execute_extends (api.creation body) _

theorem log_sendsOnly (request : Request) (level : Level) (message : String) (w : World) :
    w.Extends (SendsOnly request) (w.log level message) :=
  .record nofun w

theorem trial_sendsOnly (api : DirectApi) (body : Json) (i : Nat) (w : World) :
    w.Extends (SendsOnly (api.creation body)) (api.trial body i w).2 :=
  (log_sendsOnly _ _ _ w).trans
    ((api.trial_extends body i w).mono fun _ h => sendsOnly_of_serves h)

theorem pause_sendsOnly (request : Request) (name : String) (w : World) :
    w.Extends (SendsOnly request) (pause name w) :=
  (log_sendsOnly request _ _ w).trans (.record nofun _)

theorem untilTry_sendsOnly (api : DirectApi) (name : String) (body : Json) (w : World) (k : Nat) :
    w.Extends (SendsOnly (api.creation body)) (api.untilTry name body w k) := by
  induction k with
  | zero => exact .refl w
  | succ k ih => exact (ih.trans (api.trial_sendsOnly body k _)).trans (pause_sendsOnly _ name _)

theorem since_trial (api : DirectApi) (body : Json) (i : Nat) (w : World) :
    w.since (api.trial body i w).2 = .logged .info (announcement i) ::
      (w.log .info (announcement i)).since (api.trial body i w).2 := by
  rw [since_trans (log_sendsOnly (api.creation body) _ _ w) (api.trial_extends body i w),
    since_eq [.logged .info (announcement i)] rfl]
  rfl

theorem since_pause (name : String) (w : World) :
    w.since (pause name w) = [.logged .warning (pauseLine name), .slept retryDelay] :=
  since_eq [.slept retryDelay, .logged .warning (pauseLine name)] rfl

theorem since_untilTry (api : DirectApi) (name : String) (body : Json) (w : World) (k : Nat) :
    w.since (api.untilTry name body w k) = (List.range k).flatMap fun i =>
      .logged .info (announcement i) :: api.tryEvents name body w i ++
        [.logged .warning (pauseLine name), .slept retryDelay] := by
  induction k with
  | zero => exact since_self w
  | succ k ih =>
    have htry := api.trial_sendsOnly body k (api.untilTry name body w k)
    have hsofar := (api.untilTry_sendsOnly name body w k).trans htry
    rw [untilTry, since_trans hsofar (pause_sendsOnly (api.creation body) name _), since_pause,
      since_trans (api.untilTry_sendsOnly name body w k) htry, since_trial, ih, List.range_succ,
      List.flatMap_append, List.append_assoc]
    simp [tryEvents, tryAt]

/-- Everything that happens until a try is over: one announcement for each try, and one pause
between every two of them. -/
theorem since_tryAt (api : DirectApi) (name : String) (body : Json) (w : World) (k : Nat) :
    w.since (api.tryAt name body w k).2 =
      (List.range k).flatMap (fun i =>
        .logged .info (announcement i) :: api.tryEvents name body w i ++
          [.logged .warning (pauseLine name), .slept retryDelay]) ++
      .logged .info (announcement k) :: api.tryEvents name body w k := by
  rw [tryAt, since_trans (api.untilTry_sendsOnly name body w k) (api.trial_sendsOnly body k _),
    since_untilTry, since_trial]
  rfl

theorem serves_of_mem_tryEvents {e : Event} (h : e ∈ api.tryEvents name body w i) :
    e.Serves (some (api.creation body)) :=
  (api.trial_extends body i (api.untilTry name body w i)).mem_since h

/-- A try sleeps not at all. -/
theorem slept?_tryEvents (api : DirectApi) (name : String) (body : Json) (w : World) (i : Nat) :
    (api.tryEvents name body w i).filterMap Event.slept? = [] := by
  apply List.filterMap_eq_nil_iff.mpr
  intro e he
  have hserves := serves_of_mem_tryEvents he
  cases e with
  | slept => exact hserves.elim
  | _ => rfl

/-- Until a try is over there is one pause for each try before it. -/
theorem slept?_since_tryAt (api : DirectApi) (name : String) (body : Json) (w : World) (k : Nat) :
    (w.since (api.tryAt name body w k).2).filterMap Event.slept? =
      List.replicate k retryDelay := by
  have hpauses : ((List.range k).flatMap fun i =>
      .logged .info (announcement i) :: api.tryEvents name body w i ++
        [.logged .warning (pauseLine name), .slept retryDelay]).filterMap Event.slept? =
      List.replicate k retryDelay := by
    induction k with
    | zero => rfl
    | succ k ih =>
      rw [List.range_succ, List.flatMap_append, List.filterMap_append, ih, List.replicate_succ',
        List.flatMap_singleton, List.filterMap_append, List.filterMap_cons, slept?_tryEvents]
      rfl
  rw [since_tryAt, List.filterMap_append, hpauses, List.filterMap_cons, slept?_tryEvents]
  exact List.append_nil _

/-- A try sends its request exactly if there is a token, and otherwise it fails for that. -/
theorem request?_tryEvents (api : DirectApi) (name : String) (body : Json) (w : World) (i : Nat) :
    let tokens := (api.untilTry name body w i).tokens
    (∀ token, tokens.getToken.1 = .ok token →
      (api.tryEvents name body w i).filterMap Event.request? = [api.creation body]) ∧
    ∀ f, tokens.getToken.1 = .error f → (api.tryAt name body w i).1 = .error f ∧
      (api.tryEvents name body w i).filterMap Event.request? = [] :=
  api.client.execute_requests rfl ((api.untilTry name body w i).log .info (announcement i))

/-! ## §3 Creations -/

/-- The creation of an instance with a key that is registered. -/
def create (api : DirectApi) (name region : String) (key : Json) (spec : InstanceSpecification) :
    Call InstanceInfo := do
  let reply ← api.attempt name (creationBody name region key spec) maxAttempts
  ofExcept (InstanceInfo.ofReply reply)

/-- The request that registers a key. -/
def registration (api : DirectApi) (name publicKey : String) : Request :=
  { method := "POST", url := api.base ++ "/account/keys",
    body := .obj [("name", .str name), ("public_key", .str publicKey)] }

variable {key reply : Json}

/-- What a creation comes back with is made of what the last try comes back with. -/
theorem create_outcome (api : DirectApi) (name region : String) (key : Json)
    (spec : InstanceSpecification) (w : World) :
    (api.create name region key spec).outcome w =
      let tried := (api.attempt name (creationBody name region key spec) maxAttempts).outcome w
      (tried.1.bind InstanceInfo.ofReply, tried.2) := by
  unfold create
  rcases htried : (api.attempt name (creationBody name region key spec) maxAttempts).outcome w with
    ⟨f | reply, v⟩
  · exact run_bind_of_error htried
  · exact (run_bind_of_ok htried).trans (run_ofExcept _ _)

theorem keyId_eq_ok_iff :
    keyId reply = .ok key ↔
      ∃ registered, reply.member? "ssh_key" = some registered ∧
        registered.member? "id" = some key := by
  unfold keyId
  constructor
  · intro h
    obtain ⟨registered, hregistered, hkey⟩ := exists_of_bind_eq_ok h
    exact ⟨registered, Json.part_eq_ok_iff.mp hregistered, Json.part_eq_ok_iff.mp hkey⟩
  · rintro ⟨registered, hregistered, hkey⟩
    rw [Json.part_eq_ok_iff.mpr hregistered]
    exact Json.part_eq_ok_iff.mpr hkey

/-- Registering a key is one request, whose reply names the key. -/
theorem registerKey_outcome (api : DirectApi) (name publicKey : String) (w : World) :
    (api.registerKey name publicKey).outcome w =
      match (api.client.execute (api.registration name publicKey)).outcome
        (w.log .info "Requesting key registration") with
      | (.error f, v) => (.error f, v)
      | (.ok reply, v) =>
        match keyId reply with
        | .ok key => (.ok key, v)
        | .error _ => (.error (.malformed (.keyRegistration reply)), v) := by
  have hrequest : api.request "POST" "account/keys" .null
      (.obj [("name", .str name), ("public_key", .str publicKey)]) =
      api.client.execute (api.registration name publicKey) := by
    unfold request registration
    rw [String.append_assoc]
    rfl
  unfold registerKey
  rw [hrequest]
  refine (run_bind_of_ok (t := w.log .info "Requesting key registration") rfl).trans ?_
  rcases hasked : (api.client.execute (api.registration name publicKey)).outcome
    (w.log .info "Requesting key registration") with ⟨f | reply, v⟩
  · exact run_bind_of_error hasked
  · refine (run_bind_of_ok hasked).trans ?_
    simp only
    cases keyId reply <;> rfl

/-- An instance is created after its key is registered, under the same name. -/
theorem createInstance_outcome (api : DirectApi) (displayName region publicKey : String)
    (spec : InstanceSpecification) (w : World) :
    (api.createInstance displayName region publicKey spec).outcome w =
      match (api.client.execute (api.registration (validInstanceName displayName)
        publicKey)).outcome (w.log .info "Requesting key registration") with
      | (.error f, v) => (.error f, v)
      | (.ok reply, v) =>
        match keyId reply with
        | .ok key => (api.create (validInstanceName displayName) region key spec).outcome v
        | .error _ => (.error (.malformed (.keyRegistration reply)), v) := by
  have hregister := api.registerKey_outcome (validInstanceName displayName) publicKey w
  rcases hasked : (api.client.execute (api.registration (validInstanceName displayName)
    publicKey)).outcome (w.log .info "Requesting key registration") with ⟨f | reply, v⟩
  all_goals
    rw [hasked] at hregister
    simp only at hregister ⊢
  · exact run_bind_of_error hregister
  · cases hkey : keyId reply with
    | error fault =>
      rw [hkey] at hregister
      exact run_bind_of_error hregister
    | ok key =>
      rw [hkey] at hregister
      exact run_bind_of_ok hregister

/-- The registration is requested once, if there is a token. -/
theorem requestsSince_registration (api : DirectApi) (name publicKey : String) (w : World) :
    let registered := (api.client.execute (api.registration name publicKey)).outcome
      (w.log .info "Requesting key registration")
    (∀ token, w.tokens.getToken.1 = .ok token →
      w.requestsSince registered.2 = [api.registration name publicKey]) ∧
    ∀ f, w.tokens.getToken.1 = .error f →
      registered.1 = .error f ∧ w.requestsSince registered.2 = [] := by
  intro registered
  let v := w.log .info "Requesting key registration"
  have hlog : w.requestsSince v = [] :=
    requestsSince_of_serves_none (Client.log_extends none _ _ w)
  have hsent : v.Extends (Event.Serves (some (api.registration name publicKey))) registered.2 :=
    api.client.execute_extends _ v
  rw [requestsSince_trans (log_sendsOnly (api.registration name publicKey) _ _ w) hsent, hlog,
    List.nil_append]
  exact api.client.execute_requests rfl v

/-- A name keeps its letters, digits and dashes. -/
theorem toList_validInstanceName (displayName : String) :
    (validInstanceName displayName).toList =
      displayName.toList.filter fun c => c.isAlphanum || c == '-' := by
  unfold validInstanceName
  rw [String.toList_ofList]
  congr 1
  funext c
  have hlower : c.isLower = ('a' ≤ c && c ≤ 'z') := rfl
  have hupper : c.isUpper = ('A' ≤ c && c ≤ 'Z') := Bool.decide_and _ _
  have hdigit : c.isDigit = ('0' ≤ c && c ≤ '9') := rfl
  have hkept : c.isAlphanum = (c.isUpper || c.isLower || c.isDigit) := rfl
  rw [isNameChar, hkept, hupper, hlower, hdigit]
  grind

/-- A creation requests nothing but what its tries request. -/
theorem create_sendsOnly (api : DirectApi) (name region : String) (key : Json)
    (spec : InstanceSpecification) (w : World) :
    w.Extends (SendsOnly (api.creation (creationBody name region key spec)))
      ((api.create name region key spec).outcome w).2 := by
  obtain ⟨k, -, hlast⟩ := api.exists_last_try name (creationBody name region key spec) w
  rw [create_outcome, hlast]
  exact (api.untilTry_sendsOnly name _ w k).trans (api.trial_sendsOnly _ k _)

/-- Whatever the tries of a creation come back with: they end with the first one that is not refused
for something being removed, if it is among the first ten, and otherwise with the tenth. What that
try comes back with is the result, with its reply read, and neither an unreadable reply nor another
failure leads to another try. All tries carry the same request, which is sent if there is a token.
Each is announced, and between every two of them there is one pause of five seconds; nothing else
happens. To create an instance a key is registered first and once, under the name that is left of
the given one without all but letters, digits and dashes; if that fails, or its reply names no key,
nothing is tried. -/
theorem creation_is_retried (api : DirectApi) :
    (∀ name region key spec w,
      let body := creationBody name region key spec
      let tryAt := api.tryAt name body w
      let events := api.tryEvents name body w
      let call := (api.create name region key spec).outcome w
      (∀ k ≤ 9, (∀ i < k, SaysFinalizing (tryAt i).1) → ¬ SaysFinalizing (tryAt k).1 →
        call = ((tryAt k).1.bind InstanceInfo.ofReply, (tryAt k).2)) ∧
      ((∀ i ≤ 9, SaysFinalizing (tryAt i).1) →
        ∃ f, (tryAt 9).1 = .error f ∧ call = (.error f, (tryAt 9).2)) ∧
      (∀ i, let tokens := (api.untilTry name body w i).tokens
        (∀ e ∈ events i, e.Serves (some (api.creation body))) ∧
        (∀ token, tokens.getToken.1 = .ok token →
          (events i).filterMap Event.request? = [api.creation body]) ∧
        ∀ f, tokens.getToken.1 = .error f →
          (tryAt i).1 = .error f ∧ (events i).filterMap Event.request? = []) ∧
      ∀ k, w.since (tryAt k).2 =
          (List.range k).flatMap (fun i =>
            .logged .info (announcement i) :: events i ++
              [.logged .warning (pauseLine name), .slept (.fractional 5.0)]) ++
          .logged .info (announcement k) :: events k ∧
        (w.since (tryAt k).2).filterMap Event.slept? = List.replicate k (.fractional 5.0)) ∧
    ∀ displayName region publicKey spec w,
      let name := validInstanceName displayName
      let request := api.registration name publicKey
      let registered := (api.client.execute request).outcome
        (w.log .info "Requesting key registration")
      let hasKey (reply key : Json) := ∃ registered, reply.member? "ssh_key" = some registered ∧
        registered.member? "id" = some key
      let call := (api.createInstance displayName region publicKey spec).outcome w
      name.toList = displayName.toList.filter (fun c => c.isAlphanum || c == '-') ∧
      (∀ token, w.tokens.getToken.1 = .ok token → w.requestsSince registered.2 = [request]) ∧
      (∀ f, w.tokens.getToken.1 = .error f →
        registered.1 = .error f ∧ w.requestsSince registered.2 = []) ∧
      (∀ f, registered.1 = .error f → call = (.error f, registered.2)) ∧
      ∀ reply, registered.1 = .ok reply →
        ((∀ key, ¬ hasKey reply key) →
          call = (.error (.malformed (.keyRegistration reply)), registered.2)) ∧
        ∀ key, hasKey reply key →
          call = (api.create name region key spec).outcome registered.2 ∧
          ∀ sent ∈ registered.2.requestsSince call.2,
            sent = api.creation (creationBody name region key spec) := by
  constructor
  · intro name region key spec w body tryAt events call
    refine ⟨?_, ?_, ?_, ?_⟩
    · intro k hk hbefore hstops
      have hlast := attempt_outcome_eq_tryAt (Nat.lt_succ_of_le hk) hbefore (Or.inl hstops)
      simp only [call, create_outcome]
      rw [hlast]
    · intro hall
      have hlast := attempt_outcome_eq_tryAt (Nat.lt_succ_self 9)
        (fun i hi => hall i (Nat.le_of_lt hi)) (Or.inr rfl)
      obtain ⟨f, hf, -⟩ := hall 9 (Nat.le_refl 9)
      refine ⟨f, hf, ?_⟩
      simp only [call, create_outcome]
      rw [hlast]
      simp only [tryAt] at hf
      rw [hf]
      rfl
    · intro i tokens
      exact ⟨fun e he => serves_of_mem_tryEvents he, api.request?_tryEvents name body w i⟩
    · intro k
      exact ⟨api.since_tryAt name body w k, api.slept?_since_tryAt name body w k⟩
  · intro displayName region publicKey spec w name request registered hasKey call
    have hcall : call = match registered with
        | (.error f, v) => (.error f, v)
        | (.ok reply, v) =>
          match keyId reply with
          | .ok key => (api.create name region key spec).outcome v
          | .error _ => (.error (.malformed (.keyRegistration reply)), v) :=
      api.createInstance_outcome displayName region publicKey spec w
    obtain ⟨hsent, hunsent⟩ := api.requestsSince_registration name publicKey w
    refine ⟨toList_validInstanceName displayName, hsent, hunsent, ?_, ?_⟩
    · intro f hf
      rw [show registered = (.error f, registered.2) from Prod.ext hf rfl] at hcall
      exact hcall
    · intro reply hreply
      rw [show registered = (.ok reply, registered.2) from Prod.ext hreply rfl] at hcall
      simp only at hcall
      constructor
      · intro hnone
        cases hkey : keyId reply with
        | ok key => exact absurd (keyId_eq_ok_iff.mp hkey) (hnone key)
        | error fault =>
          rw [hkey] at hcall
          exact hcall
      · intro key hhas
        rw [keyId_eq_ok_iff.mpr hhas] at hcall
        refine ⟨hcall, fun sent hrequest => ?_⟩
        rw [hcall] at hrequest
        obtain ⟨e, he, hsent⟩ := List.mem_filterMap.mp hrequest
        exact (api.create_sendsOnly name region key spec registered.2).mem_since he sent hsent

-- two refusals and then an instance, and refusals without end
example :
    let refused : Response :=
      { answer := .reply { status := 422, body := "\x7b\"message\": \"FINALIZING\"\x7d" } }
    let created : Response :=
      { answer := .reply { body := "\x7b\"instance\": \x7b\"id\": \"1\"\x7d\x7d" } }
    let counts (responses : List Response) :=
      let w : World :=
        { network := [{ responses }], tokens := .make (some "token") none none none }
      let call := (create {} "name" "region" (.str "key") default).outcome w
      (call.1.isOk, (w.requestsSince call.2).length,
        ((w.since call.2).filterMap Event.slept?).length)
    counts [refused, refused, created] = (true, 3, 2) ∧ counts [refused] = (false, 10, 9) := by
  decide +kernel

end DirectApi

end Fleet
