import Fleet.Account.Submission
import Fleet.Proofs.Cloud.Rejection
import Fleet.Proofs.CommandLine.Creation
import Mathlib.Data.List.Nodup

/-!
# Names of created servers

The account names an instance after the moment of its creation, down to the second.  So the names
that it submits are as different as the readings of the clock: whoever creates two servers in one
second submits one name twice, and both servers then have one name for their address.

## Main definitions

- `Request.submission?`: the name of the instance that a request submits
- `Account.Order`, `Account.placeAll`: calls that create servers, one after the other

## Main statements

- `instanceNameAt_inj`: different readings of the clock give different names
- `Account.createServer_submissions`: what the creation of a server submits
- `Account.names_of_orders`: the names that some calls submit, and when they are different
-/

namespace Fleet

open World

/-! ## §1 Readings of the clock -/

/-- The fields behind the year have two digits at most. -/
structure Moment.IsReading (m : Moment) : Prop where
  month_lt : m.month < 100
  day_lt : m.day < 100
  hour_lt : m.hour < 100
  minute_lt : m.minute < 100
  second_lt : m.second < 100

theorem length_twoDigits {n : Nat} (h : n < 100) : (twoDigits n).toList.length = 2 := by
  have hall : ∀ n < 100, (twoDigits n).toList.length = 2 := by decide
  exact hall n h

/-- A number is read back from its digits. -/
theorem ofDigitChars_toString (n : Nat) : Nat.ofDigitChars 10 (toString n).toList 0 = n := by
  rw [Nat.toString_eq_repr, Nat.toList_repr, Nat.ofDigitChars_ten_toDigits]

theorem ofDigitChars_twoDigits (n : Nat) : Nat.ofDigitChars 10 (twoDigits n).toList 0 = n := by
  unfold twoDigits
  split
  · -- the zero in front counts nothing
    rw [String.toList_append, Nat.ofDigitChars_append]
    exact ofDigitChars_toString n
  · exact ofDigitChars_toString n

theorem twoDigits_inj {m n : Nat} (h : twoDigits m = twoDigits n) : m = n := by
  rw [← ofDigitChars_twoDigits m, h, ofDigitChars_twoDigits]

/-- What stands before two digits is found again. -/
theorem append_twoDigits_inj {s t : String} {m n : Nat} (hm : m < 100) (hn : n < 100)
    (h : s ++ twoDigits m = t ++ twoDigits n) : s = t ∧ m = n := by
  have hchars : s.toList ++ (twoDigits m).toList = t.toList ++ (twoDigits n).toList := by
    rw [← String.toList_append, h, String.toList_append]
  have hlength : (twoDigits m).toList.length = (twoDigits n).toList.length := by
    rw [length_twoDigits hm, length_twoDigits hn]
  obtain ⟨hbefore, hdigits⟩ := List.append_inj' hchars hlength
  exact ⟨String.toList_inj.mp hbefore, twoDigits_inj (String.toList_inj.mp hdigits)⟩

/-- Different readings of the clock give different names. -/
theorem instanceNameAt_inj {m n : Moment} (hm : m.IsReading) (hn : n.IsReading)
    (h : instanceNameAt m = instanceNameAt n) : m = n := by
  obtain ⟨year, month, day, hour, minute, second⟩ := m
  obtain ⟨year', month', day', hour', minute', second'⟩ := n
  have hstamp := (String.append_right_inj _).mp h
  -- the fields are read off from behind
  obtain ⟨h, rfl⟩ := append_twoDigits_inj hm.second_lt hn.second_lt hstamp
  obtain ⟨h, rfl⟩ := append_twoDigits_inj hm.minute_lt hn.minute_lt h
  obtain ⟨h, rfl⟩ := append_twoDigits_inj hm.hour_lt hn.hour_lt h
  have h := (String.append_left_inj _).mp h
  obtain ⟨h, rfl⟩ := append_twoDigits_inj hm.day_lt hn.day_lt h
  obtain ⟨h, rfl⟩ := append_twoDigits_inj hm.month_lt hn.month_lt h
  have hyear : year = year' := by
    rw [← ofDigitChars_toString year, h, ofDigitChars_toString]
  rw [hyear]

/-! ## §2 Submissions -/

/-- The name of the instance that a request submits, if it submits one. -/
def Request.submission? (request : Request) : Option String :=
  if request.method = "POST" ∧ "/instances".toList <:+ request.url.toList then
    (request.body.part "name").toOption.map Json.text
  else none

/-- The event submits no instance. -/
def Event.SubmitsNothing (e : Event) : Prop :=
  ∀ request, e.request? = some request → request.submission? = none

theorem Event.Serves.submitsNothing {e : Event} {request : Request} (h : e.Serves (some request))
    (hrequest : request.submission? = none) : e.SubmitsNothing := by
  intro request' he
  cases e with
  | requested sent =>
    obtain rfl : request = sent.request := Option.some.inj h
    obtain rfl := Option.some.inj he
    exact hrequest
  | _ => cases he

/-- A URL that ends in another word is not that of the instances of a zone. -/
theorem Request.submission?_of_ending {request : Request} (before ending : String)
    (hurl : request.url = before ++ ending) (h : ¬ "/instances".toList <:+ ending.toList)
    (h' : ¬ ending.toList <:+ "/instances".toList) : request.submission? = none := by
  unfold submission?
  rw [if_neg]
  rintro ⟨-, hinstances⟩
  have hending : ending.toList <:+ request.url.toList := by
    rw [hurl, String.toList_append]
    exact List.suffix_append _ _
  exact (List.suffix_or_suffix_of_suffix hinstances hending).elim h h'

theorem Request.submission?_of_get {request : Request} (h : request.method = "GET") :
    request.submission? = none := by
  simp [submission?, h]

namespace Client

theorem submission?_createInstance (client : Client) (l : ZoneLocator) {data : Json}
    {name : String} (h : data.part "name" = .ok (.str name)) :
    (client.createInstance l data).submission? = some name := by
  have hurl : "/instances".toList <:+ (client.createInstance l data).url.toList := by
    show _ <:+ (client.computeBase ++ "/" ++ (zonePath l ++ "/instances")).toList
    rw [← String.append_assoc, String.toList_append]
    exact List.suffix_append _ _
  unfold Request.submission?
  rw [if_pos ⟨rfl, hurl⟩]
  show (data.part "name").toOption.map Json.text = some name
  rw [h]
  rfl

theorem submission?_createFirewall (client : Client) (project : String) (data : Json) :
    (client.createFirewall project data).submission? = none := by
  refine Request.submission?_of_ending (client.computeBase ++ "/" ++ ("projects/" ++ project))
    "/global/firewalls" ?_ (by decide) (by decide)
  simp [createFirewall, firewallsUrl, computeUrl, String.append_assoc]

theorem submission?_waitZoneOperation (client : Client) (l : ZoneLocator) (name : String) :
    (client.waitZoneOperation l name).submission? = none := by
  refine Request.submission?_of_ending
    (client.computeBase ++ "/" ++ (zonePath l ++ "/operations/" ++ name)) "/wait" ?_
    (by decide) (by decide)
  simp [waitZoneOperation, computeUrl, String.append_assoc]

end Client

/-! ## §3 One creation -/

/-- The names of the instances that are submitted between two worlds, the first one first. -/
def World.submissionsSince (w v : World) : List String :=
  (w.requestsSince v).filterMap Request.submission?

/-- Nothing is submitted between two worlds, and the clock stands as it did. -/
def World.Passes (w v : World) : Prop :=
  w.Extends Event.SubmitsNothing v ∧ v.today = w.today

instance : IsPreorder World World.Passes where
  refl w := ⟨.refl w, rfl⟩
  trans _ _ _ h h' := ⟨h.1.trans h'.1, h'.2.trans h.2⟩

namespace World

variable {P Q : Event → Prop} {u v w : World}

theorem submissionsSince_trans (h : Extends P u v) (h' : Extends Q v w) :
    u.submissionsSince w = u.submissionsSince v ++ v.submissionsSince w := by
  rw [submissionsSince, requestsSince_trans h h', List.filterMap_append]
  rfl

theorem submissionsSince_of_submitsNothing (h : w.Extends Event.SubmitsNothing v) :
    w.submissionsSince v = [] := by
  rw [submissionsSince, List.filterMap_eq_nil_iff]
  intro request hrequest
  obtain ⟨sent, hsent, rfl⟩ := mem_requestsSince.mp hrequest
  exact h.mem_since hsent sent.request rfl

/-- What follows a call without requests of its own leaves the requests of the call. -/
theorem requestsSince_bind {α β : Type} {x : Call α} {f : α → Call β}
    (hx : Within (Extends P) x) (hf : ∀ a, Within (Extends (Event.Serves none)) (f a))
    (w : World) :
    w.requestsSince ((x >>= f).outcome w).2 = w.requestsSince (x.outcome w).2 := by
  rcases hout : x.outcome w with ⟨e | a, v⟩
  · rw [show (x >>= f).outcome w = (.error e, v) from run_bind_of_error hout]
  · have hrest : v.Extends (Event.Serves none) ((f a).outcome v).2 := hf a v
    rw [show (x >>= f).outcome w = (f a).outcome v from run_bind_of_ok hout,
      requestsSince_trans (hx.of_run hout) hrest, requestsSince_of_serves_none hrest,
      List.append_nil]

theorem passes_log (level : Level) (message : String) (w : World) :
    w.Passes (w.log level message) :=
  ⟨.record nofun w, rfl⟩

end World

namespace Client

theorem accessToken_today (w : World) : (accessToken.outcome w).2.today = w.today := by
  rw [accessToken_outcome]
  split <;> rfl

theorem dispatch_today (client : Client) (request : Request) (w : World) :
    ((client.dispatch request).outcome w).2.today = w.today := by
  have htoken := accessToken_today w
  rw [dispatch_outcome]
  rcases hx : accessToken.outcome w with ⟨f | token, v⟩ <;> rw [hx] at htoken
  · exact htoken
  · simp only
    split <;> exact htoken

theorem read_today (delivery : Delivery) (w : World) :
    ((read delivery).outcome w).2.today = w.today := by
  obtain ⟨tokens, journal, hread⟩ := read_world delivery w
  rw [hread]

/-- Carrying out a request does not touch the clock. -/
theorem execute_today (client : Client) (request : Request) (w : World) :
    ((client.execute request).outcome w).2.today = w.today := by
  have hdispatch := client.dispatch_today request w
  rcases hx : (client.dispatch request).outcome w with ⟨f | delivery, v⟩ <;> rw [hx] at hdispatch
  · have hexecute : (client.execute request).outcome w = (.error f, v) := run_bind_of_error hx
    rw [hexecute]
    exact hdispatch
  · have hexecute : (client.execute request).outcome w = (read delivery).outcome v :=
      run_bind_of_ok hx
    rw [hexecute, read_today]
    exact hdispatch

theorem execute_passes (client : Client) {request : Request}
    (h : request.submission? = none) : Within World.Passes (client.execute request) := by
  intro w
  have hext : w.Extends (Event.Serves (some request)) ((client.execute request).outcome w).2 :=
    client.execute_extends request w
  exact ⟨hext.mono fun e he => he.submitsNothing h, client.execute_today request w⟩

end Client

theorem Call.log_passes (level : Level) (message : String) :
    Within World.Passes (Call.log level message) :=
  Within.modify fun w => w.passes_log level message

theorem Operation.checked_passes (operation : Json) :
    Within World.Passes (Operation.checked operation) := by
  refine Within.bind (.ofExcept _) fun errors => ?_
  split
  · refine Within.bind (.ofExcept _) fun first => .bind (.ofExcept _) fun name => ?_
    split
    · exact (Call.log_passes _ _).bind fun _ => .bind (.ofExcept _) fun f => .throw f
    · exact Within.bind (.ofExcept _) fun f => .throw f
  · exact .pure _

theorem Client.waitZone_passes (client : Client) (l : ZoneLocator) (name : Json) :
    Within World.Passes (client.waitZone l name) :=
  (Call.log_passes _ _).bind fun _ =>
    (client.execute_passes (client.submission?_waitZoneOperation l name.text)).bind
      fun operation => Operation.checked_passes operation

theorem Server.checkAddress_passes (client : Client) (locator : InstanceLocator) (name : Json) :
    Within World.Passes (Server.checkAddress client locator name) := by
  refine Within.tryCatch ?_ fun f => ?_
  · refine Within.bind (.ofExcept _) fun region => ?_
    exact (client.execute_passes (Request.submission?_of_get rfl)).discard.bind fun _ => .pure _
  · split
    · exact .pure _
    · exact .throw _

namespace Account

variable {account : Account} {waits : Nat} {project name zone : String} {metrics : Bool}
  {server : Server} {w v : World}

theorem ensureFirewall_passes (account : Account) (project : String) :
    Within World.Passes (account.ensureFirewall project) := by
  refine (account.client.execute_passes (Request.submission?_of_get rfl)).bind fun reply => ?_
  refine Within.bind (.ofExcept _) fun items => ?_
  split
  · refine (Call.log_passes _ _).bind fun _ => ?_
    refine (account.client.execute_passes
      (account.client.submission?_createFirewall project _)).bind fun operation => ?_
    refine Within.bind (.ofExcept _) fun errors => ?_
    split
    · exact .throw _
    · exact .pure _
  · exact .pure _

/-- The request that submits an instance. -/
def submission (account : Account) (project name zone : String) (metrics : Bool)
    (instanceName : String) : Request :=
  account.client.createInstance ⟨project, zone⟩
    (account.instanceData instanceName name zone metrics)

/-- It submits the given name. -/
theorem submission?_submission (account : Account) (project name zone : String) (metrics : Bool)
    (instanceName : String) :
    (account.submission project name zone metrics instanceName).submission? =
      some instanceName := by
  have hname : (account.instanceData instanceName name zone metrics).part "name" =
      .ok (.str instanceName) := by
    simp [instanceData, Json.part, Json.lookup]
  exact account.client.submission?_createInstance _ hname

/-- After the request of a submission its reply is read, and nothing more is requested. -/
theorem requestsSince_submitInstance (account : Account) (project name zone : String)
    (metrics : Bool) (instanceName : String) (w : World) :
    w.requestsSince
        ((account.submitInstance project name zone metrics instanceName).outcome w).2 =
      if w.tokens.getToken.1.isOk then
        [account.submission project name zone metrics instanceName]
      else [] := by
  refine (requestsSince_bind (account.client.execute_extends _) (fun operation => ?_) w).trans
    (Client.requestsSince_afterRequest rfl)
  refine Within.bind (.ofExcept _) fun errors => ?_
  split
  · exact .throw _
  · exact .bind (.ofExcept _) fun target => (Client.log_extends none _ _).bind fun _ =>
      .bind (.ofExcept _) fun operationName => .pure _

theorem submitInstance_extends (account : Account) (project name zone : String)
    (metrics : Bool) (instanceName : String) :
    Within (Extends (Event.Serves
        (some (account.submission project name zone metrics instanceName))))
      (account.submitInstance project name zone metrics instanceName) := by
  refine (account.client.execute_extends _).bind fun operation => ?_
  refine Within.bind (.ofExcept _) fun errors => ?_
  split
  · exact .throw _
  · exact .bind (.ofExcept _) fun target => (Client.log_extends _ _ _).bind fun _ =>
      .bind (.ofExcept _) fun operationName => .pure _

/-- An instance is not submitted without a token. -/
theorem isOk_getToken_of_submitInstance {instanceName : String}
    {submission : InstanceLocator × Json}
    (h : (account.submitInstance project name zone metrics instanceName).outcome w =
      (.ok submission, v)) : w.tokens.getToken.1.isOk = true := by
  obtain ⟨operation, u, hexecute, -⟩ := exists_of_run_bind_eq_ok h
  cases htoken : w.tokens.getToken.1 with
  | ok token => rfl
  | error f =>
    have hfailed := account.client.execute_of_no_token
      (account.submission project name zone metrics instanceName) htoken
    cases hexecute.symm.trans hfailed

/-- What the creation of a server does once its instance is submitted. -/
def handOut (account : Account) (waits : Nat) (project zone instanceName : String)
    (submitted : InstanceLocator × Json) : Job Server := do
  let creation ← Job.attempt (account.awaitCreation waits ⟨project, zone⟩ submitted.2)
  account.makeServer submitted.1 (.str instanceName) (creation.map fun _ => ())

theorem handOut_passes (account : Account) (waits : Nat) (project zone instanceName : String)
    (submitted : InstanceLocator × Json) :
    Within World.Passes (account.handOut waits project zone instanceName submitted) := by
  refine (Job.within_attempt (Client.awaitZone_within (account.client.waitZone_passes _ _)
    (fun _ => Call.log_passes _ _) waits)).bind fun creation w => ?_
  exact Server.checkAddress_passes account.client submitted.1 _ w

/-- A server bears the name of its instance. -/
theorem name_of_handOut {instanceName : String} {submitted : InstanceLocator × Json}
    (h : (account.handOut waits project zone instanceName submitted).outcome w =
      (.ok server, v)) : server.name = .str instanceName := by
  obtain ⟨creation, u, -, h⟩ := exists_of_run_bind_eq_ok h
  obtain ⟨hserver, -⟩ := Prod.mk.inj h
  rw [← Except.ok.inj hserver]

/-- What the creation of a server does once the firewall is there. -/
def submitAndHandOut (account : Account) (waits : Nat) (project name zone : String)
    (metrics : Bool) (instanceName : String) : Job Server := do
  let submitted ← account.submitInstance project name zone metrics instanceName
  account.handOut waits project zone instanceName submitted

/-- It submits one instance if there is a token for that, and none else. -/
theorem submitAndHandOut_submissions (account : Account) (waits : Nat)
    (project name zone : String) (metrics : Bool) (instanceName : String) {o : Except Halt Server}
    (h : (account.submitAndHandOut waits project name zone metrics instanceName).outcome w =
      (o, v)) :
    w.Extends (fun _ => True) v ∧
      w.submissionsSince v = (if w.tokens.getToken.1.isOk then [instanceName] else []) ∧
      ∀ server, o = .ok server →
        w.tokens.getToken.1.isOk = true ∧ server.name = .str instanceName := by
  rcases hx : (account.submitInstance project name zone metrics instanceName).outcome w with
    ⟨f | submitted, u⟩
  all_goals
    have hext : w.Extends (fun _ => True) u :=
      ((account.submitInstance_extends _ _ _ _ _).of_run hx).mono fun _ _ => trivial
    have hrequests := account.requestsSince_submitInstance project name zone metrics
      instanceName w
    rw [hx] at hrequests
    have hnames : w.submissionsSince u =
        if w.tokens.getToken.1.isOk then [instanceName] else [] := by
      rw [submissionsSince, hrequests]
      cases w.tokens.getToken.1.isOk with
      | true => simp [submission?_submission]
      | false => rfl
  · have hfailed : (account.submitAndHandOut waits project name zone metrics
        instanceName).outcome w = (.error (.failure f), u) :=
      run_bind_of_error (Job.run_ofCall_of_error hx)
    rw [hfailed] at h
    cases h
    refine ⟨hext, hnames, ?_⟩
    intro server hserver
    cases hserver
  · have hgoesOn : (account.submitAndHandOut waits project name zone metrics
        instanceName).outcome w =
          (account.handOut waits project zone instanceName submitted).outcome u :=
      run_bind_of_ok (Job.run_ofCall_of_ok hx)
    rw [hgoesOn] at h
    have hrest : u.Passes v := (account.handOut_passes _ _ _ _ _).of_run h
    refine ⟨hext.trans (hrest.1.mono fun _ _ => trivial), ?_, ?_⟩
    · rw [submissionsSince_trans hext hrest.1, submissionsSince_of_submitsNothing hrest.1, hnames,
        List.append_nil]
    · rintro server rfl
      exact ⟨isOk_getToken_of_submitInstance hx, name_of_handOut h⟩

/-- The creation of a server in its parts. -/
theorem createServer_outcome (account : Account) (waits : Nat) (project name zone : String)
    (metrics : Bool) (w : World) :
    (account.createServer waits project name zone metrics).outcome w =
      match (account.ensureFirewall project).outcome w with
      | (.error f, v) => (.error (.failure f), v)
      | (.ok (), v) =>
        (account.submitAndHandOut waits project name zone metrics
          (instanceNameAt v.today)).outcome v := by
  unfold createServer
  rcases hx : (account.ensureFirewall project).outcome w with ⟨f | ⟨⟩, v⟩
  · exact run_bind_of_error (Job.run_ofCall_of_error hx)
  · have hnow : (ExceptT.run (get : Job World)).run v = (.ok v, v) := rfl
    exact (run_bind_of_ok (Job.run_ofCall_of_ok hx)).trans (run_bind_of_ok hnow)

/-- Whether the creation of a server comes to the submission of its instance: the firewall is there,
and there is a token for the submission. -/
def submits (account : Account) (project : String) (w : World) : Bool :=
  match (account.ensureFirewall project).outcome w with
  | (.ok (), v) => v.tokens.getToken.1.isOk
  | (.error _, _) => false

/-- The creation of a server submits one instance if it comes to that, and none else. The instance
and the server are named after the moment. -/
theorem createServer_submissions {o : Except Halt Server}
    (h : (account.createServer waits project name zone metrics).outcome w = (o, v)) :
    w.Extends (fun _ => True) v ∧
      w.submissionsSince v =
        (if account.submits project w then [instanceNameAt w.today] else []) ∧
      ∀ server, o = .ok server →
        account.submits project w = true ∧ server.name = .str (instanceNameAt w.today) := by
  rw [createServer_outcome] at h
  rw [submits]
  rcases hx : (account.ensureFirewall project).outcome w with ⟨f | ⟨⟩, u⟩
  all_goals
    have hfirewall : w.Passes u := (account.ensureFirewall_passes project).of_run hx
    rw [hx] at h
    simp only at h ⊢
  · cases h
    refine ⟨hfirewall.1.mono fun _ _ => trivial, submissionsSince_of_submitsNothing hfirewall.1, ?_⟩
    intro server hserver
    cases hserver
  · rw [hfirewall.2] at h
    obtain ⟨hext, hnames, hserver⟩ := account.submitAndHandOut_submissions _ _ _ _ _ _ h
    refine ⟨(hfirewall.1.mono fun _ _ => trivial).trans hext, ?_, hserver⟩
    rw [submissionsSince_trans hfirewall.1 hext, submissionsSince_of_submitsNothing hfirewall.1,
      hnames, List.nil_append]

/-! ## §4 Creations one after the other -/

/-- A call that creates a server, and the surroundings in which it is made. -/
structure Order where
  surroundings : World
  waits : Nat
  name : String
  zone : String
  metrics : Bool

/-- The reading of the clock at a call. -/
def Order.today (order : Order) : Moment :=
  order.surroundings.today

/-- The world in which a call is made: only the journal goes on. -/
def Order.within (order : Order) (w : World) : World :=
  { order.surroundings with journal := w.journal }

/-- Create a server. -/
def place (account : Account) (project : String) (w : World) (order : Order) :
    Except Halt Server × World :=
  (account.createServer order.waits project order.name order.zone order.metrics).outcome
    (order.within w)

/-- The world after some calls, one after the other. -/
def placeAll (account : Account) (project : String) (w : World) (orders : List Order) : World :=
  orders.foldl (fun w order => (account.place project w order).2) w

/-- Those of some calls that come to the submission of an instance. -/
def submitting (account : Account) (project : String) : World → List Order → List Order
  | _, [] => []
  | w, order :: orders =>
    let later := submitting account project (account.place project w order).2 orders
    if account.submits project (order.within w) then order :: later else later

theorem place_submissions (account : Account) (project : String) (w : World) (order : Order) :
    let v := (account.place project w order).2
    w.Extends (fun _ => True) v ∧ w.submissionsSince v =
      if account.submits project (order.within w) then [instanceNameAt order.today] else [] := by
  obtain ⟨hext, hnames, -⟩ := createServer_submissions
    (show (account.createServer order.waits project order.name order.zone order.metrics).outcome
      (order.within w) = (_, _) from rfl)
  exact ⟨hext, hnames⟩

/-- The names that some calls submit are those of the moments of the calls that come to it. -/
theorem placeAll_submissions (account : Account) (project : String) (orders : List Order)
    (w : World) :
    w.Extends (fun _ => True) (account.placeAll project w orders) ∧
      w.submissionsSince (account.placeAll project w orders) =
        (account.submitting project w orders).map (instanceNameAt ·.today) := by
  induction orders generalizing w with
  | nil => exact ⟨.refl w, submissionsSince_of_submitsNothing (.refl w)⟩
  | cons order orders ih =>
    obtain ⟨hfirst, hnames⟩ := account.place_submissions project w order
    obtain ⟨hlater, hnames'⟩ := ih (account.place project w order).2
    have hall : account.placeAll project w (order :: orders) =
        account.placeAll project (account.place project w order).2 orders := rfl
    rw [hall]
    refine ⟨hfirst.trans hlater, ?_⟩
    rw [submissionsSince_trans hfirst hlater, hnames, hnames', submitting]
    split <;> rfl

theorem submitting_sublist (account : Account) (project : String) (w : World)
    (orders : List Order) : (account.submitting project w orders).Sublist orders := by
  induction orders generalizing w with
  | nil => exact .slnil
  | cons order orders ih =>
    rw [submitting]
    split
    · exact (ih _).cons_cons order
    · exact (ih _).cons order

theorem mem_submitting (account : Account) (project : String) (w : World) {order : Order}
    (before later : List Order)
    (h : account.submits project (order.within (account.placeAll project w before)) = true) :
    order ∈ account.submitting project w (before ++ order :: later) := by
  induction before generalizing w with
  | nil =>
    rw [List.nil_append, submitting, if_pos (show account.submits project (order.within w) = true
      from h)]
    exact List.mem_cons_self
  | cons first before ih =>
    have hmem := ih (account.place project w first).2 h
    rw [List.cons_append, submitting]
    split
    · exact List.mem_cons_of_mem first hmem
    · exact hmem

/-- The names that some calls submit, whatever the surroundings of each of them are. -/
theorem names_of_orders (account : Account) (project : String) (w : World)
    (orders : List Order) :
    let submitting := account.submitting project w orders
    let names := w.submissionsSince (account.placeAll project w orders)
    -- they are those of the moments of the calls that come to a submission
    submitting.Sublist orders ∧ names = submitting.map (instanceNameAt ·.today) ∧
    -- a server that is handed out bears the name that its call has submitted
    (∀ before order later server, orders = before ++ order :: later →
      (account.place project (account.placeAll project w before) order).1 = .ok server →
      order ∈ submitting ∧ server.name = .str (instanceNameAt order.today)) ∧
    -- they are different exactly if no two of these calls are made within one second
    ((∀ order ∈ orders, order.today.IsReading) →
      (names.Nodup ↔ (submitting.map Order.today).Nodup)) := by
  intro submitting names
  have hsublist : submitting.Sublist orders := account.submitting_sublist project w orders
  have hnames : names = submitting.map (instanceNameAt ·.today) :=
    (account.placeAll_submissions project orders w).2
  refine ⟨hsublist, hnames, ?_, fun hreadings => ?_⟩
  · rintro before order later server rfl hserver
    obtain ⟨-, -, hhanded⟩ := createServer_submissions (Prod.ext hserver rfl)
    obtain ⟨hsubmits, hname⟩ := hhanded server rfl
    exact ⟨account.mem_submitting project w before later hsubmits, hname⟩
  · have hmoments : names = (submitting.map Order.today).map instanceNameAt := by
      rw [hnames, List.map_map]
      rfl
    rw [hmoments]
    refine ⟨List.Nodup.of_map _, List.Nodup.map_on ?_⟩
    intro m hm n hn hequal
    obtain ⟨order, horder, rfl⟩ := List.mem_map.mp hm
    obtain ⟨order', horder', rfl⟩ := List.mem_map.mp hn
    exact instanceNameAt_inj (hreadings order (hsublist.mem horder))
      (hreadings order' (hsublist.mem horder')) hequal

/-- Two servers that are created within one second bear one name, which is submitted twice. -/
theorem one_name_within_one_second :
    let account : Account := { id := "account" }
    let submitted := "\x7b\"targetId\": \"1\", \"name\": \"operation\"\x7d"
    let surroundings : World :=
      { network :=
          [{ responses :=
              [{ answer := .reply { body := "\x7b\"items\": [1]\x7d" } },
                { answer := .reply { body := submitted } }, { answer := .reply {} }] }]
        tokens := .make (some "token") none none none }
    let first : Order := ⟨surroundings, 1, "first", "region-a", true⟩
    let second : Order := { first with name := "second" }
    let v := account.placeAll "project" surroundings [first, second]
    surroundings.submissionsSince v = ["outline-20240307-090501", "outline-20240307-090501"] ∧
      (account.place "project" surroundings first).1.toOption.map (·.name.text) =
        some "outline-20240307-090501" ∧
      (account.place "project" (account.placeAll "project" surroundings [first])
        second).1.toOption.map (·.name.text) = some "outline-20240307-090501" := by
  decide +kernel

end Account

end Fleet
