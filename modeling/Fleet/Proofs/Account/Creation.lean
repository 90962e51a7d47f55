import Fleet.Proofs.Account.Submission
import Fleet.Proofs.Cloud.Repetition
import Fleet.Proofs.Cloud.Waiting
import Fleet.Proofs.Server.Uncreated

/-!
# A server is handed out once its instance is submitted

When an instance has been submitted, the operation that creates it is waited for.  Whatever comes of
the wait, there is a server then, whose address is looked for.  If the wait has failed, the server
knows the failure, and its provisioning does not get beyond the first phase.

## Main definitions

- `Account.HandsOut`: the dealings of handing a server out
- `Account.CreatesServer`: the dealings of creating a server
- `Account.IsHandedOut`: what is known of the server that is handed out

## Main statements

- `Account.createServer_creates`: creating a server does what it is said to do
- `Account.servers_are_submitted`: what is requested in which order, and what comes of it
-/

namespace Fleet

open Run World

/-! ## §1 Handing a server out -/

namespace Launch

/-- The only dealing of a launch is the look for a static address. -/
theorem dealingsSince_start (l : Launch) :
    l.world.dealingsSince l.start.world = l.check?.toList.map .exchanged := by
  rw [start_world, check?]
  cases hregion : l.locator.regionLocator with
  | error f =>
    rw [Server.checkAddress_of_noRegion hregion]
    exact dealingsSince_self _
  | ok region =>
    let request := l.client.getAddress region l.name.text
    have hexecute := dealingsSince_execute l.client (show request.headers = .null from rfl) l.world
    rw [Server.checkAddress_of_region hregion]
    generalize (l.client.execute request).outcome l.world = outcome at *
    obtain ⟨_ | _, v⟩ := outcome <;> exact hexecute

theorem request_of_check? {l : Launch} {e : Exchange} (h : l.check? = some e) :
    ∃ region, l.locator.regionLocator = .ok region ∧
      e.request = l.client.getAddress region l.name.text := by
  obtain ⟨region, hregion, he⟩ := Option.bind_eq_some_iff.mp h
  refine ⟨region, ?_, request_of_exchange? he⟩
  cases hlocator : l.locator.regionLocator with
  | error f =>
    rw [hlocator] at hregion
    cases hregion
  | ok found =>
    rw [hlocator] at hregion
    exact congrArg Except.ok (Option.some.inj hregion)

end Launch

/-- A job has been given up on, or it has ended with a value or a failure. -/
theorem Job.unfinished_or_ended {α : Type} (result : Except Halt α) :
    result = .error .unfinished ∨ ∃ ended : Except Failure α, result = ended.mapError .failure := by
  rcases result with (f | ⟨⟩) | a
  · exact Or.inr ⟨.error f, rfl⟩
  · exact Or.inl rfl
  · exact Or.inr ⟨.ok a, rfl⟩

theorem Client.waitZone_plays (client : Client) (l : ZoneLocator) (name : Json) :
    Within Plays (client.waitZone l name) :=
  (Within.modify fun w => .of_remarks (.record rfl w)).bind fun _ =>
    (client.execute_plays _).bind fun operation w =>
      .of_remarks (Operation.checked_remarks operation w)

namespace Account

variable {account : Account} {waits : Nat} {project name zone instanceName token : String}
  {metrics : Bool} {submitted : InstanceLocator × Json}

/-- What a server of the account is made of. -/
def launch (account : Account) (locator : InstanceLocator) (instanceName : String)
    (creation : Except Failure Unit) (w : World) : Launch where
  client := account.client
  id := account.id ++ ":" ++ locator.instanceId
  locator := locator
  name := .str instanceName
  creation := creation
  pollInterval := account.pollInterval
  installTimeout := account.installTimeout
  world := w

/-- The request that waits for the creation of an instance. -/
def creationWait (account : Account) (project zone : String) (operationName : Json) : Request :=
  account.client.waitZoneOperation ⟨project, zone⟩ operationName.text

theorem does_awaitCreation (account : Account) (waits : Nat) (project zone : String)
    (operationName : Json) :
    (account.awaitCreation waits ⟨project, zone⟩ operationName).Does token
      (Client.Waits (account.creationWait project zone operationName) waits) :=
  Client.does_awaitZone account.client _ _ (fun _ => Job.does_log _ _) waits

theorem awaitCreation_plays (account : Account) (waits : Nat) (zone : ZoneLocator)
    (operationName : Json) : Within Plays (account.awaitCreation waits zone operationName) :=
  Client.awaitZone_within (account.client.waitZone_plays _ _)
    (fun _ => Within.modify fun w => .of_remarks (.record rfl w)) waits

/-- Whatever has come of the wait, a server is made. -/
theorem handOut_outcome {w v : World} {creation : Except Failure Json}
    (h : (account.awaitCreation waits ⟨project, zone⟩ submitted.2).outcome w =
      (creation.mapError .failure, v)) :
    let made := (account.launch submitted.1 instanceName (creation.map fun _ => ()) v).start
    (account.handOut waits project zone instanceName submitted).outcome w =
      (.ok made.server, made.world) := by
  intro made
  have hattempt : (ExceptT.run
      (Job.attempt (account.awaitCreation waits ⟨project, zone⟩ submitted.2))).run w =
        (.ok creation, v) := by
    show Job.attempt (account.awaitCreation waits ⟨project, zone⟩ submitted.2) w = _
    unfold Job.attempt
    rw [h]
    cases creation <;> rfl
  exact run_bind_of_ok hattempt

/-- As long as the wait goes on, there is no server. -/
theorem handOut_of_unfinished {w v : World}
    (h : (account.awaitCreation waits ⟨project, zone⟩ submitted.2).outcome w =
      (.error .unfinished, v)) :
    (account.handOut waits project zone instanceName submitted).outcome w =
      (.error .unfinished, v) := by
  apply run_bind_of_error
  show Job.attempt (account.awaitCreation waits ⟨project, zone⟩ submitted.2) w = _
  unfold Job.attempt
  rw [h]

/-- The dealings of handing a server out once its instance is submitted. -/
inductive HandsOut (account : Account) (waits : Nat) (project zone instanceName : String)
    (submitted : InstanceLocator × Json) : List Dealing → Except Halt Server → Prop
  | unfinished {waiting : List Dealing}
      (h : Client.Waits (account.creationWait project zone submitted.2) waits waiting
        (.error .unfinished)) :
      HandsOut account waits project zone instanceName submitted waiting (.error .unfinished)
  /-- the wait has come to its end, be it with a failure -/
  | made {waiting : List Dealing} {creation : Except Failure Json} {launch : Launch} {w : World}
      (h : Client.Waits (account.creationWait project zone submitted.2) waits waiting
        (creation.mapError .failure))
      (hlaunch : launch =
        account.launch submitted.1 instanceName (creation.map fun _ => ()) w) :
      HandsOut account waits project zone instanceName submitted
        (waiting ++ launch.check?.toList.map .exchanged) (.ok launch.start.server)

theorem handOut_handsOut {w : World} (htoken : w.tokens.getToken.1 = .ok token)
    (account : Account) (waits : Nat) (project zone instanceName : String)
    (submitted : InstanceLocator × Json) :
    let outcome := (account.handOut waits project zone instanceName submitted).outcome w
    w.Extends (fun _ => True) outcome.2 ∧
      HandsOut account waits project zone instanceName submitted (w.dealingsSince outcome.2)
        outcome.1 := by
  intro outcome
  obtain ⟨hgrows, hwaits, -, -⟩ :=
    account.does_awaitCreation waits project zone submitted.2 w htoken
  rcases hx : (account.awaitCreation waits ⟨project, zone⟩ submitted.2).outcome w with ⟨result, v⟩
  rw [hx] at hgrows hwaits
  have hplays : w.Plays v := (account.awaitCreation_plays waits _ _).of_run hx
  rcases Job.unfinished_or_ended result with rfl | ⟨creation, rfl⟩
  · rw [show outcome = _ from handOut_of_unfinished hx]
    exact ⟨hgrows, .unfinished hwaits⟩
  · let launch := account.launch submitted.1 instanceName (creation.map fun _ => ()) v
    have hstart : v.Extends (fun _ => True) launch.start.world :=
      launch.start_extends.mono fun _ _ => trivial
    have hdealings : w.dealingsSince launch.start.world =
        w.dealingsSince v ++ launch.check?.toList.map .exchanged := by
      rw [dealingsSince_append hgrows hplays.network_eq hstart]
      exact congrArg _ launch.dealingsSince_start
    rw [show outcome = _ from handOut_outcome hx]
    refine ⟨hgrows.trans hstart, ?_⟩
    show HandsOut account waits project zone instanceName submitted
      (w.dealingsSince launch.start.world) (.ok launch.start.server)
    rw [hdealings]
    exact .made hwaits rfl

/-! ## §2 Creating a server -/

/-- The dealings of creating a server. -/
inductive CreatesServer (account : Account) (waits : Nat) (project name zone : String)
    (metrics : Bool) (instanceName : String) : List Dealing → Except Halt Server → Prop
  | failed {dealings : List Dealing} {halt : Halt}
      (h : Begins account project name zone metrics instanceName dealings (.error halt)) :
      CreatesServer account waits project name zone metrics instanceName dealings (.error halt)
  | submitted {dealings later : List Dealing} {submitted : InstanceLocator × Json}
      {result : Except Halt Server}
      (h : Begins account project name zone metrics instanceName dealings (.ok submitted))
      (hlater : HandsOut account waits project zone instanceName submitted later result) :
      CreatesServer account waits project name zone metrics instanceName (dealings ++ later) result

/-- The name of the instance is taken from the moment at which the creation begins, since the
firewall does not take any time. -/
theorem createServer_eq_begin (account : Account) (waits : Nat) (project name zone : String)
    (metrics : Bool) (w : World) :
    (account.createServer waits project name zone metrics).outcome w =
      (account.begin project name zone metrics (instanceNameAt w.today) >>=
        account.handOut waits project zone (instanceNameAt w.today)).outcome w := by
  rw [createServer_outcome, begin, bind_assoc]
  rcases hx : (account.ensureFirewall project).outcome w with ⟨f | ⟨⟩, v⟩
  · exact (run_bind_of_error (Job.run_ofCall_of_error hx)).symm
  · have htoday : v.today = w.today := ((account.ensureFirewall_passes project).of_run hx).2
    simp only [htoday]
    exact (run_bind_of_ok (f := fun _ => account.submitAndHandOut waits project name zone metrics
      (instanceNameAt w.today)) (Job.run_ofCall_of_ok hx)).symm

theorem createServer_creates {w : World} (htoken : w.tokens.getToken.1 = .ok token)
    (account : Account) (waits : Nat) (project name zone : String) (metrics : Bool) :
    let outcome := (account.createServer waits project name zone metrics).outcome w
    CreatesServer account waits project name zone metrics (instanceNameAt w.today)
      (w.dealingsSince outcome.2) outcome.1 := by
  rw [createServer_eq_begin]
  let beginning := account.begin project name zone metrics (instanceNameAt w.today)
  let handing := account.handOut waits project zone (instanceNameAt w.today)
  obtain ⟨-, hbegins, -, hanswered⟩ : Job.Doing token w (beginning.outcome w).2
    (beginning.outcome w).1 _ := account.does_begin _ _ _ _ _ w htoken
  rcases hx : beginning.outcome w with ⟨halt | submitted, v⟩
  all_goals rw [hx] at hbegins hanswered
  · rw [show (beginning >>= handing).outcome w = _ from run_bind_of_error hx]
    exact .failed hbegins
  · obtain ⟨requests, hanswered⟩ : ∃ requests, w.Answered token requests v := hanswered _ rfl
    obtain ⟨hgrows, hhands⟩ := handOut_handsOut hanswered.token_eq account waits project zone
      (instanceNameAt w.today) submitted
    rw [show (beginning >>= handing).outcome w = (handing submitted).outcome v from
      run_bind_of_ok hx]
    show CreatesServer account waits project name zone metrics _
      (w.dealingsSince ((handing submitted).outcome v).2) _
    rw [dealingsSince_trans hanswered hgrows]
    exact .submitted hbegins hhands

/-- First the firewall is looked for, then it is created if it is missing, and then the instance is
submitted if all went well.  Only if that hands the instance over, a server is handed out. -/
theorem CreatesServer.exists_parts {dealings : List Dealing} {result : Except Halt Server}
    (h : CreatesServer account waits project name zone metrics instanceName dealings result) :
    let submission := account.submission project name zone metrics instanceName
    ∃ listed between later,
      dealings = .exchanged ⟨account.firewallQuery project, listed⟩ :: (between ++ later) ∧
      (account.MissesFirewall project listed ∧
          (∃ made, between = [.exchanged ⟨account.firewallOrder project, made⟩]) ∨
        ¬ account.MissesFirewall project listed ∧ between = []) ∧
      ((later = [] ∧ ∃ f, result = .error (.failure f)) ∨
        FirewallStands account project listed between ∧
        ∃ answer after, later = .exchanged ⟨submission, answer⟩ :: after ∧
          (after = [] ∧ (∃ f, result = .error (.failure f)) ∧
              (∀ operation target operationName, answer.content submission = .ok operation →
                ¬ HandsOver operation target operationName) ∨
            ∃ operation target operationName, answer.content submission = .ok operation ∧
              HandsOver operation target operationName ∧
              HandsOut account waits project zone instanceName
                (⟨project, zone, target.text⟩, operationName) after result)) := by
  intro submission
  cases h with
  | failed h =>
    obtain ⟨listed, between, later, rfl, hmade, hend⟩ := h.exists_parts
    refine ⟨listed, between, later, rfl, hmade, ?_⟩
    rcases hend with ⟨hnone, f, hf⟩ | ⟨hstands, answer, rfl, hend⟩
    · exact Or.inl ⟨hnone, f, by rw [Except.error.inj hf]⟩
    · refine Or.inr ⟨hstands, answer, [], rfl, Or.inl ?_⟩
      rcases hend with ⟨⟨f, hf⟩, hnothing⟩ | ⟨_, _, _, -, -, hok⟩
      · exact ⟨rfl, ⟨f, by rw [Except.error.inj hf]⟩, hnothing⟩
      · cases hok
  | @submitted _ after submitted _ h hlater =>
    obtain ⟨listed, between, later, rfl, hmade, hend⟩ := h.exists_parts
    refine ⟨listed, between, later ++ after, by simp, hmade, Or.inr ?_⟩
    rcases hend with ⟨-, f, hf⟩ | ⟨hstands, answer, rfl, hend⟩
    · cases hf
    · refine ⟨hstands, answer, after, rfl, Or.inr ?_⟩
      rcases hend with ⟨⟨f, hf⟩, -⟩ | ⟨operation, target, operationName, hcontent, hhands, hok⟩
      · cases hf
      · rw [Except.ok.inj hok] at hlater
        exact ⟨operation, target, operationName, hcontent, hhands, hlater⟩

/-! ## §3 What is handed out -/

/-- The server of an instance.  It knows the failure of its creation, which fails its setup. -/
structure IsHandedOut (account : Account) (instanceName : String) (locator : InstanceLocator)
    (creation : Except Failure Unit) (server : Server) : Prop where
  id_eq : server.id = account.id ++ ":" ++ locator.instanceId
  locator_eq : server.locator = locator
  name_eq : server.name = .str instanceName
  creation_eq : server.creation = creation
  /-- provisioning ends with its first phase, whatever is done to the server before and after -/
  course_of_failure : ∀ f, creation = .error f →
    ∀ (v : World) (before : List (World × Move)) u later, (∀ m ∈ before, m.2.IsUse) →
      let r := Run.amid ⟨server, v⟩ (before ++ (u, .provision) :: later)
      r.server.isFinished = true ∧ r.server.readiness = .failed f ∧
        ((∃ u', (u', .propose .canceled) ∈ before) ∧ r.server.state = .canceled ∨
          (∀ u', (u', .propose .canceled) ∉ before) ∧ r.server.state = .failed)

theorem launch_isHandedOut (account : Account) (instanceName : String) (locator : InstanceLocator)
    (creation : Except Failure Unit) (w : World) :
    account.IsHandedOut instanceName locator creation
      (account.launch locator instanceName creation w).start.server where
  id_eq := rfl
  locator_eq := rfl
  name_eq := rfl
  creation_eq := rfl
  course_of_failure := by
    intro f hcreation v before u later hbefore
    have hsound := (account.launch locator instanceName creation w).start_sound.of_world v
    exact amid_of_uncreated hsound rfl rfl hcreation hbefore u later

/-- The wait goes on, or it has come to its end and there is a server. -/
theorem HandsOut.exists_parts {dealings : List Dealing} {result : Except Halt Server}
    (h : HandsOut account waits project zone instanceName submitted dealings result) :
    let wait := account.creationWait project zone submitted.2
    ∃ waiting checking waited, dealings = waiting ++ checking ∧
      Client.Waits wait waits waiting waited ∧
      (∀ d ∈ waiting, ∃ answer, d = .exchanged ⟨wait, answer⟩) ∧
      (∀ d ∈ checking, ∃ region answer, submitted.1.regionLocator = .ok region ∧
        d = .exchanged ⟨account.client.getAddress region instanceName, answer⟩) ∧
      (waited = .error .unfinished → result = .error .unfinished) ∧
      ∀ creation : Except Failure Json, waited = creation.mapError .failure →
        ∃ server, result = .ok server ∧
          account.IsHandedOut instanceName submitted.1 (creation.map fun _ => ()) server := by
  intro wait
  cases h with
  | unfinished hwaits =>
    refine ⟨dealings, [], _, (List.append_nil _).symm, hwaits, fun d => hwaits.eq_exchanged, nofun,
      fun _ => rfl, fun creation hcreation => ?_⟩
    cases creation <;> cases hcreation
  | @made waiting creation launch u hwaits hlaunch =>
    subst hlaunch
    refine ⟨waiting, _, _, rfl, hwaits, fun d => hwaits.eq_exchanged, fun d hd => ?_, ?_, ?_⟩
    · obtain ⟨⟨request, answer⟩, he, rfl⟩ := List.mem_map.mp hd
      obtain ⟨region, hregion, hrequest⟩ := Launch.request_of_check? (Option.mem_toList.mp he)
      obtain rfl : request = _ := hrequest
      exact ⟨region, answer, hregion, rfl⟩
    · intro hunfinished
      cases creation <;> cases hunfinished
    · intro creation' hcreation
      obtain rfl : creation' = creation := by
        cases creation <;> cases creation' <;> cases hcreation <;> rfl
      exact ⟨_, rfl, account.launch_isHandedOut instanceName submitted.1 _ u⟩

/-! ## §4 Which requests are which -/

/-- What is requested after a submission has neither parameters nor a body. -/
theorem HandsOut.lacks {request : Request} {dealings : List Dealing} {result : Except Halt Server}
    (h : HandsOut account waits project zone instanceName submitted dealings result)
    (hrequest : request.params ≠ .null ∨ request.body ≠ .null) : Lacks request dealings := by
  obtain ⟨waiting, checking, -, rfl, -, hwaiting, hchecking, -⟩ := h.exists_parts
  intro answer hmem
  rcases List.mem_append.mp hmem with hmem | hmem
  · obtain ⟨_, heq⟩ := hwaiting _ hmem
    cases heq
    exact hrequest.elim (· rfl) (· rfl)
  · obtain ⟨_, _, -, heq⟩ := hchecking _ hmem
    cases heq
    exact hrequest.elim (· rfl) (· rfl)

theorem firewallOrder_ne_firewallQuery (account : Account) (project : String) :
    account.firewallOrder project ≠ account.firewallQuery project :=
  mt (congrArg Request.method) (show "POST" ≠ "GET" by decide)

theorem submission_ne_firewallQuery (account : Account) (project name zone : String)
    (metrics : Bool) (instanceName : String) :
    account.submission project name zone metrics instanceName ≠ account.firewallQuery project :=
  mt (congrArg Request.method) (show "POST" ≠ "GET" by decide)

theorem submission_ne_firewallOrder (account : Account) (project name zone : String)
    (metrics : Bool) (instanceName : String) :
    account.submission project name zone metrics instanceName ≠ account.firewallOrder project := by
  intro h
  have hname := account.submission?_submission project name zone metrics instanceName
  rw [h] at hname
  cases hname.symm.trans (account.client.submission?_createFirewall project _)

/-- The firewall is looked for once, and it is created once if it is missing and never otherwise. -/
theorem CreatesServer.firewall {dealings : List Dealing} {result : Except Halt Server}
    (h : CreatesServer account waits project name zone metrics instanceName dealings result) :
    let query := account.firewallQuery project
    let order := account.firewallOrder project
    ∃ listed rest, dealings = .exchanged ⟨query, listed⟩ :: rest ∧ Lacks query rest ∧
      (account.MissesFirewall project listed →
        ∃ made later, rest = .exchanged ⟨order, made⟩ :: later ∧ Lacks order later) ∧
      (¬ account.MissesFirewall project listed → Lacks order rest) := by
  intro query order
  let submission := account.submission project name zone metrics instanceName
  obtain ⟨listed, between, later, rfl, hmade, hend⟩ := h.exists_parts
  have hlater {request : Request} (hne : submission ≠ request)
      (hrequest : request.params ≠ .null ∨ request.body ≠ .null) : Lacks request later := by
    rcases hend with ⟨rfl, -⟩ | ⟨-, answer, after, rfl, ⟨rfl, -⟩ | ⟨_, _, _, -, -, hhands⟩⟩
    · exact .nil
    · exact .cons hne .nil
    · exact .cons hne (hhands.lacks hrequest)
  have hquery : Lacks query later :=
    hlater (account.submission_ne_firewallQuery project name zone metrics instanceName)
      (Or.inl nofun)
  have horder : Lacks order later :=
    hlater (account.submission_ne_firewallOrder project name zone metrics instanceName)
      (Or.inr nofun)
  refine ⟨listed, _, rfl, ?_⟩
  rcases hmade with ⟨hmisses, made, rfl⟩ | ⟨hnone, rfl⟩
  · exact ⟨.cons (account.firewallOrder_ne_firewallQuery project) hquery,
      fun _ => ⟨made, later, rfl, horder⟩, fun hnone => absurd hmisses hnone⟩
  · exact ⟨hquery, fun hmisses => absurd hmisses hnone, fun _ => horder⟩

/-- An instance is submitted once and behind its firewall, and if it is handed over, so is its
server. -/
theorem CreatesServer.submission {dealings before after : List Dealing}
    {result : Except Halt Server} {answer : Answer}
    (h : CreatesServer account waits project name zone metrics instanceName dealings result)
    (heq : dealings = before ++ .exchanged
      ⟨account.submission project name zone metrics instanceName, answer⟩ :: after) :
    (∃ listed between, before = .exchanged ⟨account.firewallQuery project, listed⟩ :: between ∧
      FirewallStands account project listed between) ∧
    Lacks (account.submission project name zone metrics instanceName) after ∧
    ∀ operation target operationName,
      answer.content (account.submission project name zone metrics instanceName) = .ok operation →
      HandsOver operation target operationName →
      HandsOut account waits project zone instanceName
        (⟨project, zone, target.text⟩, operationName) after result := by
  obtain ⟨listed, between, later, rfl, hmade, hend⟩ := h.exists_parts
  have hbefore : Lacks (account.submission project name zone metrics instanceName)
      (.exchanged ⟨account.firewallQuery project, listed⟩ :: between) := by
    apply Lacks.cons (account.submission_ne_firewallQuery _ _ _ _ _).symm
    rcases hmade with ⟨-, made, rfl⟩ | ⟨-, rfl⟩
    · exact .cons (account.submission_ne_firewallOrder _ _ _ _ _).symm .nil
    · exact .nil
  rcases hend with ⟨rfl, -⟩ | ⟨hstands, answer', after', rfl, hend⟩
  · -- without a submission there is nothing to show
    rw [List.append_nil] at heq
    exact absurd (heq ▸ List.mem_append_right before List.mem_cons_self) (hbefore answer)
  · have hafter : Lacks (account.submission project name zone metrics instanceName) after' := by
      rcases hend with ⟨rfl, -⟩ | ⟨_, _, _, -, -, hhands⟩
      · exact .nil
      · exact hhands.lacks (Or.inr nofun)
    obtain ⟨rfl, hsame, rfl⟩ :=
      (List.append_cons_inj_of_notMem (hbefore answer) (hafter answer)).mp heq
    cases hsame
    refine ⟨⟨listed, between, rfl, hstands⟩, hafter, ?_⟩
    intro operation target operationName hcontent hhands
    rcases hend with ⟨-, -, hnothing⟩ | ⟨operation', target', name', hcontent', hhands', hout⟩
    · exact absurd hhands (hnothing _ _ _ hcontent)
    · cases hcontent.symm.trans hcontent'
      cases hhands.target_eq.symm.trans hhands'.target_eq
      cases hhands.name_eq.symm.trans hhands'.name_eq
      exact hout

/-- There is no server without an instance that was handed over. -/
theorem CreatesServer.exists_handsOver {dealings : List Dealing} {server : Server}
    (h : CreatesServer account waits project name zone metrics instanceName dealings (.ok server)) :
    let submission := account.submission project name zone metrics instanceName
    ∃ answer operation target operationName, .exchanged ⟨submission, answer⟩ ∈ dealings ∧
      answer.content submission = .ok operation ∧ HandsOver operation target operationName := by
  intro submission
  obtain ⟨listed, between, later, rfl, -, hend⟩ := h.exists_parts
  rcases hend with ⟨-, f, hf⟩ | ⟨-, answer, after, rfl, hend⟩
  · cases hf
  · rcases hend with ⟨-, ⟨f, hf⟩, -⟩ | ⟨operation, target, operationName, hcontent, hhands, -⟩
    · cases hf
    · refine ⟨answer, operation, target, operationName, ?_, hcontent, hhands⟩
      exact List.mem_cons_of_mem _ (List.mem_append_right between List.mem_cons_self)

/-- Without a token nothing is requested. -/
theorem createServer_of_no_token (account : Account) (waits : Nat) (project name zone : String)
    (metrics : Bool) {w : World} {f : Failure} (h : w.tokens.getToken.1 = .error f) :
    let outcome := (account.createServer waits project name zone metrics).outcome w
    outcome.1 = .error (.failure f) ∧ w.dealingsSince outcome.2 = [] := by
  have hbegin : account.begin project name zone metrics (instanceNameAt w.today) =
      Job.ofCall (account.ensureFirewall project) >>= fun _ =>
        Job.ofCall (account.submitInstance project name zone metrics (instanceNameAt w.today)) :=
    rfl
  rw [createServer_eq_begin, hbegin, ofCall_ensureFirewall, bind_assoc, bind_assoc]
  exact Job.execute_bind_of_no_token h account.client (account.firewallQuery project) _

/-- What creating a server does, whatever the network answers. -/
theorem servers_are_submitted (account : Account) (waits : Nat) (project name zone : String)
    (metrics : Bool) (w : World) :
    let outcome := (account.createServer waits project name zone metrics).outcome w
    let dealings := w.dealingsSince outcome.2
    let instanceName := instanceNameAt w.today
    let query := account.firewallQuery project
    let order := account.firewallOrder project
    let submission := account.submission project name zone metrics instanceName
    (∀ f, w.tokens.getToken.1 = .error f → outcome.1 = .error (.failure f) ∧ dealings = []) ∧
    ∀ token, w.tokens.getToken.1 = .ok token →
      CreatesServer account waits project name zone metrics instanceName dealings outcome.1 ∧
      -- the firewall is looked for first
      (∃ listed rest, dealings = .exchanged ⟨query, listed⟩ :: rest ∧ Lacks query rest ∧
        -- it is created once if there is none, and never otherwise
        (account.MissesFirewall project listed →
          ∃ made later, rest = .exchanged ⟨order, made⟩ :: later ∧ Lacks order later) ∧
        (¬ account.MissesFirewall project listed → Lacks order rest) ∧
        -- the instance is submitted at most once, and only behind its firewall
        ∀ before answer after, rest = before ++ .exchanged ⟨submission, answer⟩ :: after →
          FirewallStands account project listed before ∧ Lacks submission after) ∧
      -- unless the wait goes on, there is a server exactly if the instance was handed over
      (outcome.1 ≠ .error .unfinished →
        ((∃ server, outcome.1 = .ok server) ↔ ∃ answer operation target operationName,
          .exchanged ⟨submission, answer⟩ ∈ dealings ∧ answer.content submission = .ok operation ∧
            HandsOver operation target operationName)) ∧
      -- then its operation is waited for, and whatever comes of that, there is its server
      ∀ before answer after operation target operationName,
        dealings = before ++ .exchanged ⟨submission, answer⟩ :: after →
        answer.content submission = .ok operation → HandsOver operation target operationName →
        let locator : InstanceLocator := ⟨project, zone, target.text⟩
        let wait := account.client.waitZoneOperation ⟨project, zone⟩ operationName.text
        ∃ waiting checking waited, after = waiting ++ checking ∧
          Client.Waits wait waits waiting waited ∧
          (∀ d ∈ waiting, ∃ answer, d = .exchanged ⟨wait, answer⟩) ∧
          (∀ d ∈ checking, ∃ region answer, locator.regionLocator = .ok region ∧
            d = .exchanged ⟨account.client.getAddress region instanceName, answer⟩) ∧
          (waited = .error .unfinished → outcome.1 = .error .unfinished) ∧
          ∀ creation : Except Failure Json, waited = creation.mapError .failure →
            ∃ server, outcome.1 = .ok server ∧
              account.IsHandedOut instanceName locator (creation.map fun _ => ()) server := by
  intro outcome dealings instanceName query order submission
  refine ⟨fun f => account.createServer_of_no_token waits project name zone metrics, ?_⟩
  intro token htoken
  have hcreates : CreatesServer account waits project name zone metrics instanceName dealings
      outcome.1 := createServer_creates htoken account waits project name zone metrics
  obtain ⟨listed, rest, hdealings, hquery, hmissing, hfound⟩ := hcreates.firewall
  have hhanded {before after : List Dealing} {answer : Answer}
      {operation target operationName : Json}
      (heq : dealings = before ++ .exchanged ⟨submission, answer⟩ :: after)
      (hcontent : answer.content submission = .ok operation)
      (hhands : HandsOver operation target operationName) :
      HandsOut account waits project zone instanceName
        (⟨project, zone, target.text⟩, operationName) after outcome.1 :=
    (hcreates.submission heq).2.2 operation target operationName hcontent hhands
  refine ⟨hcreates, ⟨listed, rest, hdealings, hquery, hmissing, hfound, ?_⟩, ?_,
    fun _ _ _ _ _ _ heq hcontent hhands => (hhanded heq hcontent hhands).exists_parts⟩
  · intro before answer after hrest
    have heq : dealings =
        (.exchanged ⟨query, listed⟩ :: before) ++ .exchanged ⟨submission, answer⟩ :: after := by
      rw [hdealings, hrest]
      rfl
    obtain ⟨⟨listed', between, hbefore, hstands⟩, hafter, -⟩ := hcreates.submission heq
    cases hbefore
    exact ⟨hstands, hafter⟩
  · intro hends
    constructor
    · rintro ⟨server, hserver⟩
      rw [hserver] at hcreates
      exact hcreates.exists_handsOver
    · rintro ⟨answer, operation, target, operationName, hmem, hcontent, hhands⟩
      obtain ⟨before, after, heq⟩ := List.append_of_mem hmem
      obtain ⟨-, -, waited, -, -, -, -, hunfinished, hserver⟩ :=
        (hhanded heq hcontent hhands).exists_parts
      rcases Job.unfinished_or_ended waited with rfl | ⟨creation, rfl⟩
      · exact absurd (hunfinished rfl) hends
      · obtain ⟨server, hserver, -⟩ := hserver creation rfl
        exact ⟨server, hserver⟩

-- a wait that fails is no obstacle to the server, but to its installation
example :
    let rule (urlPart : String) (reply : Reply) : Rule :=
      { urlPart, responses := [{ answer := .reply reply }] }
    let w : World :=
      { network :=
          [rule "operations" { status := 500 },
            rule "firewalls" { body := "\x7b\"items\": [\x7b\x7d]\x7d" },
            rule "instances" { body := "\x7b\"name\": \"op\", \"targetId\": 7\x7d" }]
        tokens := .make (some "token") none none none }
    let account : Account := { id := "account" }
    let outcome := (account.createServer 10 "project" "name" "region-a" true).outcome w
    let methods := (w.requestsSince outcome.2).map Request.method
    let made : Option (String × InstallState) :=
      match outcome.1 with
      | .ok server => some (server.id, (Run.step ⟨server, outcome.2⟩).server.state)
      | .error _ => none
    methods = ["GET", "POST", "POST", "GET"] ∧ made = some ("account:7", .failed) := by
  decide +kernel

end Account

end Fleet
