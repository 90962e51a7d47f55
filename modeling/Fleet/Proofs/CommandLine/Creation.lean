import Fleet.Proofs.CommandLine.Teardown

/-!
# The exit code of creating a server

The command that creates a server follows the installation to its end and says by its exit code how
it ended.  If the user interrupts it on the way, it deletes the server instead.  A response to a
deletion that is nested too deep to be read leaves the command without an exit code.

## Main definitions

- `CommandLine.CreationEnds`: how the command ends once it has followed the server

## Main statements

- `Run.follow_finish`: an interrupt takes effect exactly after as many states as were asked for
- `Account.createServer_spares`: creating a server deletes nothing
- `CommandLine.perform_create_ends`: there is no other end of the command
- `CommandLine.deletions_of_interrupt`: what is deleted after an interrupt
- `CommandLine.create_exit_code`: the contract of the exit code
-/

namespace Fleet

open Run World

/-! ## §1 Where following ends -/

namespace Run

variable {tell : InstallState → World → World} {r : Run} {followed : Followed}

/-- A follower that has ended was told of fewer states than it wanted. -/
theorem endFollowing_finish {steps : Nat} {wanted : Option Nat} {states : List InstallState}
    (hmore : wanted ≠ some 0) (h : r.endFollowing steps states = some followed) :
    states.length ≤ followed.states.length ∧
      (followed.finish = .dropped ↔
        wanted.map (states.length + ·) = some followed.states.length) := by
  obtain ⟨r', -, rfl⟩ := Option.map_eq_some_iff.mp h
  rw [List.length_reverse]
  refine ⟨Nat.le_refl _, nofun, fun hwanted => ?_⟩
  obtain ⟨n, rfl, hn⟩ := Option.map_eq_some_iff.mp hwanted
  exact absurd (congrArg some (by omega)) hmore

/-- A follower is dropped exactly if it was told of as many states as it wanted. -/
theorem followFrom_finish {steps rounds : Nat} {wanted : Option Nat} {watcher : Watcher}
    {states : List InstallState}
    (h : r.followFrom tell steps rounds wanted watcher states = some followed) :
    states.length ≤ followed.states.length ∧
      (followed.finish = .dropped ↔
        wanted.map (states.length + ·) = some followed.states.length) := by
  induction rounds generalizing wanted watcher states r with
  | zero => cases h
  | succ rounds ih =>
    rw [followFrom] at h
    split at h
    · rename_i hzero
      cases h
      simp [hzero]
    · rename_i hmore
      split at h
      · -- there is a new state, of which the follower is told unless it is a silent one
        split at h
        · exact endFollowing_finish hmore h
        · obtain ⟨hlength, hfinish⟩ := ih h
          rw [List.length_cons] at hlength hfinish
          refine ⟨by omega, hfinish.trans ?_⟩
          cases wanted with
          | none => simp
          | some n =>
            have hn : n ≠ 0 := fun hn => hmore (congrArg some hn)
            simp only [Option.map_some, Option.some.injEq]
            omega
      · exact endFollowing_finish hmore h
      · obtain ⟨r₁, -, h⟩ := Option.bind_eq_some_iff.mp h
        exact ih h

theorem follow_finish {bound : Nat} {wanted : Option Nat}
    (h : r.follow tell bound wanted = some followed) :
    followed.finish = .dropped ↔ wanted = some followed.states.length := by
  obtain ⟨-, hfinish⟩ := followFrom_finish h
  simpa using hfinish

theorem follow_of_zero (tell : InstallState → World → World) (bound : Nat) (r : Run) :
    r.follow tell bound (some 0) = some { states := [], finish := .dropped, run := r } := by
  rw [follow, followFrom, if_pos rfl]
  rfl

/-- A follower that ends with a failure has not seen the installation completed. -/
theorem not_completed_of_follow (follower : Follower) {bound : Nat} {wanted : Option Nat}
    {f : Failure} (hr : r.Sound) (h : r.follow follower.tell bound wanted = some followed)
    (hfinish : followed.finish = .ended (.error f)) :
    followed.run.server.state ≠ .completed := by
  have hwanted : wanted ≠ some 0 := by
    rintro rfl
    rw [follow_of_zero] at h
    cases h
    cases hfinish
  obtain ⟨-, hends⟩ := (follow_told hr hwanted h).2 _ hfinish
  cases hends with
  | failed hstate | canceled hstate =>
    rw [show followed.run.server.state = _ from hstate]
    exact nofun

/-- Following deletes nothing. -/
theorem follow_spares (follower : Follower) {bound : Nat} {wanted : Option Nat}
    (h : r.follow follower.tell bound wanted = some followed) :
    r.world.Extends Event.Spares followed.run.world := by
  obtain ⟨moves, hrun, hprogress⟩ := followFrom_after h
  rw [hrun]
  refine extends_spares (after_onward r moves).journal (deletionsSince_eq_nil_iff.mpr ?_)
  intro request hrequest
  refine not_deletes_of_sparing (fun m hm => ?_) hrequest
  rintro rfl
  exact hprogress _ hm

end Run

/-! ## §2 Creating a server -/

/-- What a call does is what it does as a job. -/
theorem Job.within_ofCall {R : World → World → Prop} {α : Type} {call : Call α}
    (h : Within R call) : Within R (Job.ofCall call) := by
  intro w
  have hw : R w (call.outcome w).2 := h w
  rcases hx : call.outcome w with ⟨f | a, v⟩ <;> rw [hx] at hw
  · rw [Job.run_ofCall_of_error hx]
    exact hw
  · rw [Job.run_ofCall_of_ok hx]
    exact hw

theorem Job.within_attempt {R : World → World → Prop} {α : Type} {job : Job α}
    (h : Within R job) : Within R (Job.attempt job) := by
  intro w
  have hw : R w (job.outcome w).2 := h w
  show R w (Job.attempt job w).2
  unfold Job.attempt
  rcases hx : job.outcome w with ⟨(f | ⟨⟩) | a, v⟩ <;> rw [hx] at hw <;> exact hw

theorem Client.execute_spares (client : Client) {request : Request}
    (h : request.method = "GET" ∨ request.method = "POST") :
    Within (Extends Event.Spares) (client.execute request) := by
  have hmethod : request.method ≠ "DELETE" := by
    rcases h with h | h <;> rw [h] <;> decide
  exact (client.execute_extends request).mono fun _ _ hext =>
    hext.mono fun _ he => he.spares_of_method hmethod

theorem Call.log_spares (level : Level) (message : String) :
    Within (Extends Event.Spares) (Call.log level message) :=
  Within.modify fun w => .record nofun w

theorem Operation.checked_spares (operation : Json) :
    Within (Extends Event.Spares) (Operation.checked operation) :=
  (Operation.checked_extends none operation).mono fun _ _ hext => hext.mono fun _ he => he.spares

theorem Client.waitZone_spares (client : Client) (l : ZoneLocator) (name : Json) :
    Within (Extends Event.Spares) (client.waitZone l name) :=
  (Call.log_spares _ _).bind fun _ =>
    (client.execute_spares (.inr rfl)).bind fun operation => Operation.checked_spares operation

/-- What one wait and every note keep, waiting again and again keeps as well. -/
theorem Client.awaitZone_within {R : World → World → Prop} [IsPreorder World R] {client : Client}
    {l : ZoneLocator} {name : Json} {note : Json → Call Unit}
    (hwait : Within R (client.waitZone l name)) (hnote : ∀ operation, Within R (note operation))
    (rounds : Nat) : Within R (client.awaitZone l name note rounds) := by
  induction rounds with
  | zero => exact .throw _
  | succ rounds ih =>
    unfold awaitZone
    refine (Job.within_ofCall hwait).bind fun operation => ?_
    refine (Job.within_ofCall (.ofExcept _)).bind fun done => ?_
    split
    · exact .pure _
    · exact (Job.within_ofCall (hnote operation)).bind fun _ => ih

theorem Server.checkAddress_spares (client : Client) (locator : InstanceLocator) (name : Json) :
    Within (Extends Event.Spares) (Server.checkAddress client locator name) := by
  refine Within.tryCatch ?_ fun f => ?_
  · refine Within.bind (.ofExcept _) fun region => ?_
    exact (client.execute_spares (.inl rfl)).discard.bind fun _ => .pure _
  · split
    · exact .pure _
    · exact .throw _

namespace Account

theorem ensureFirewall_spares (account : Account) (project : String) :
    Within (Extends Event.Spares) (account.ensureFirewall project) := by
  refine (account.client.execute_spares (.inl rfl)).bind fun reply => ?_
  refine Within.bind (.ofExcept _) fun items => ?_
  split
  · refine (Call.log_spares _ _).bind fun _ => ?_
    refine (account.client.execute_spares (.inr rfl)).bind fun operation => ?_
    refine Within.bind (.ofExcept _) fun errors => ?_
    split
    · exact .throw _
    · exact .pure _
  · exact .pure _

theorem submitInstance_spares (account : Account) (project name zone : String) (metrics : Bool)
    (instanceName : String) :
    Within (Extends Event.Spares)
      (account.submitInstance project name zone metrics instanceName) := by
  refine (account.client.execute_spares (.inr rfl)).bind fun operation => ?_
  refine Within.bind (.ofExcept _) fun errors => ?_
  split
  · exact .throw _
  · refine Within.bind (.ofExcept _) fun target => (Call.log_spares _ _).bind fun _ => ?_
    exact Within.bind (.ofExcept _) fun operationName => .pure _

/-- Creating a server deletes nothing. -/
theorem createServer_spares (account : Account) (waits : Nat) (project name zone : String)
    (metrics : Bool) :
    Within (Extends Event.Spares) (account.createServer waits project name zone metrics) := by
  refine (Job.within_ofCall (account.ensureFirewall_spares project)).bind fun _ => ?_
  refine Within.bind .get fun today => ?_
  refine (Job.within_ofCall (account.submitInstance_spares project name zone metrics _)).bind
    fun submission => ?_
  refine (Job.within_attempt (Client.awaitZone_within (account.client.waitZone_spares _ _)
    (fun _ => Call.log_spares _ _) waits)).bind fun creation => ?_
  intro w
  exact Server.checkAddress_spares account.client submission.1 _ w

end Account

/-! ## §3 The ends of the command -/

namespace CommandLine

variable {bound : Nat} {account : Account} {settings : Settings} {name zone : String}
  {interrupt : Option Nat} {w v : World} {server : Server} {followed : Followed}

/-- The run of a server that was just created. -/
def created (server : Server) (v : World) : Run :=
  ⟨server, v.log .info s!"Created server {server.id}, waiting for install..."⟩

/-- The run of a server that is deleted because of an interrupt. -/
def interrupted (r : Run) : Run :=
  r.log .warning s!"Interrupted, deleting server {r.server.id}"

/-- After the server is created the command follows it, and goes on as that ends. -/
theorem create_run (hserver : (account.createServer bound settings.project name zone
      settings.metrics).outcome w = (.ok server, v)) :
    (create bound account settings name zone interrupt).outcome w =
      match (created server v).follow logProgress bound interrupt with
      | none => (.error .unfinished, (created server v).world)
      | some followed =>
        match followed.finish with
        | .dropped =>
          let r := interrupted followed.run
          match (deleteServer bound r.server).outcome r.world with
          | (.ok (), u) => (.ok 130, u)
          | (.error halt, u) => (.error halt, u)
        | .ended (.ok ()) => (reportEndpoint followed.run.server).outcome followed.run.world
        | .ended (.error f) =>
          (.ok 1, followed.run.world.log
            (if f.isA .installCanceled then .warning else .error) f.message) := by
  unfold create
  refine (run_bind_of_ok hserver).trans ?_
  rw [run_log_bind]
  let act (r : Run) : Option (FollowEnd × Run) :=
    (r.follow logProgress bound interrupt).map fun followed => (followed.finish, followed.run)
  cases hfollow : (created server v).follow logProgress bound interrupt with
  | none =>
    have hact : act (created server v) = none := by
      simp only [act, hfollow, Option.map_none]
    exact run_bind_of_error (Server.run_onRun_of_none hact)
  | some followed =>
    have hact : act (created server v) = some (followed.finish, followed.run) := by
      simp only [act, hfollow, Option.map_some]
    refine (run_bind_of_ok (Server.run_onRun hact)).trans ?_
    cases hfinish : followed.finish with
    | dropped =>
      simp only [hfinish, run_log_bind]
      rcases hd : (deleteServer bound (interrupted followed.run).server).outcome
        (interrupted followed.run).world with ⟨halt | ⟨⟩, u⟩
      · exact run_bind_of_error hd
      · exact run_bind_of_ok hd
    | ended o =>
      simp only [hfinish]
      cases o <;> rfl

/-- How the command ends once it has followed the server it has created. -/
inductive CreationEnds (bound : Nat) (followed : Followed) : Except Halt Nat → World → Prop
  | completed {endpoint : ManagementEndpoint} (hfinish : followed.finish = .ended (.ok ()))
      (hstate : followed.run.server.state = .completed)
      (hendpoint : followed.run.server.endpoint = some endpoint) :
      CreationEnds bound followed (.ok 0)
        (((followed.run.world.log .info s!"Server {followed.run.server.id} is ready").log .info
          s!"Management API: {endpoint.apiUrl.text}").log .info
          s!"Certificate SHA-256: {endpoint.fingerprint}")
  /-- the installation has ended otherwise -/
  | stopped {f : Failure} {level : Level} (hfinish : followed.finish = .ended (.error f))
      (hstate : followed.run.server.state ≠ .completed) :
      CreationEnds bound followed (.ok 1) (followed.run.world.log level f.message)
  | deleted {r : Run} (hfinish : followed.finish = .dropped)
      (hdelete : (interrupted followed.run).delete bound = some (.ok (), r)) :
      CreationEnds bound followed (.ok 130) r.world
  /-- the deletion after an interrupt fails, and the command reports it -/
  | refused {f : Failure} {r : Run} {u : World} (hfinish : followed.finish = .dropped)
      (hdelete : (interrupted followed.run).delete bound = some (.error f, r))
      (hgeneral : f.isA .general = true) : CreationEnds bound followed (.ok 1) u
  /-- the deletion after an interrupt fails, and the command passes it on -/
  | unhandled {f : Failure} {r : Run} (hfinish : followed.finish = .dropped)
      (hdelete : (interrupted followed.run).delete bound = some (.error f, r))
      (hfault : f.isA .general = false) : CreationEnds bound followed (.error (.failure f)) r.world

/-- A server that was created has a run that is sound, and it has an endpoint once its installation
is completed. -/
theorem created_sound_endowed (hserver : (account.createServer bound settings.project name zone
      settings.metrics).outcome w = (.ok server, v)) :
    (created server v).Sound ∧ (created server v).Endowed := by
  obtain ⟨launch, hlaunch⟩ := Account.exists_launch_of_createServer hserver
  have hstart := launch.start_sound
  have hendowed := launch.start_endowed
  rw [hlaunch] at hstart hendowed
  exact ⟨hstart.of_world _, hendowed⟩

/-- A command that creates a server and comes to its end does so in one of these ways. -/
theorem perform_create_ends
    (hserver : (settings.account.createServer bound settings.project name zone
      settings.metrics).outcome w = (.ok server, v))
    (hends : ((perform bound (.create name zone) settings interrupt).outcome w).1 ≠
      .error .unfinished) :
    ∃ followed e u, (created server v).follow logProgress bound interrupt = some followed ∧
      (perform bound (.create name zone) settings interrupt).outcome w = (e, u) ∧
      CreationEnds bound followed e u := by
  obtain ⟨hsound, hendowed⟩ := created_sound_endowed hserver
  have hrun : (run bound (.create name zone) settings interrupt).outcome w = _ :=
    create_run hserver
  cases hfollow : (created server v).follow logProgress bound interrupt with
  | none =>
    rw [hfollow] at hrun
    exact absurd (congrArg Prod.fst (perform_of_unfinished hrun)) hends
  | some followed =>
    rw [hfollow] at hrun
    simp only at hrun
    cases hfinish : followed.finish with
    | dropped =>
      simp only [hfinish] at hrun
      cases hdelete : (interrupted followed.run).delete bound with
      | none =>
        rw [deleteServer_of_none hdelete] at hrun
        exact absurd (congrArg Prod.fst (perform_of_unfinished hrun)) hends
      | some result =>
        obtain ⟨f | ⟨⟩, r⟩ := result
        all_goals rw [deleteServer_outcome hdelete] at hrun
        · cases hf : f.isA .general with
          | true =>
            exact ⟨followed, _, _, rfl, perform_of_failure hf hrun, .refused hfinish hdelete hf⟩
          | false =>
            exact ⟨followed, _, _, rfl, perform_of_unhandled hf hrun,
              .unhandled hfinish hdelete hf⟩
        · exact ⟨followed, _, _, rfl, perform_of_ok hrun, .deleted hfinish hdelete⟩
    | ended o =>
      cases o with
      | ok =>
        have hcompleted := follow_completed progressLogger hsound hfollow hfinish
        have hready := hendowed.follow progressLogger hfollow hcompleted
        obtain ⟨endpoint, hendpoint⟩ := Option.isSome_iff_exists.mp hready
        simp only [hfinish, reportEndpoint, hendpoint] at hrun
        exact ⟨followed, _, _, rfl, perform_of_ok hrun, .completed hfinish hcompleted hendpoint⟩
      | error f =>
        simp only [hfinish] at hrun
        exact ⟨followed, _, _, rfl, perform_of_ok hrun,
          .stopped hfinish (not_completed_of_follow progressLogger hsound hfollow hfinish)⟩

/-- Creating a server and following it deletes nothing. -/
theorem spares_of_created (hserver : (account.createServer bound settings.project name zone
      settings.metrics).outcome w = (.ok server, v))
    (hfollow : (created server v).follow logProgress bound interrupt = some followed) :
    w.Extends Event.Spares followed.run.world :=
  (((account.createServer_spares _ _ _ _ _).of_run hserver).trans (v.log_spares _ _)).trans
    (follow_spares progressLogger hfollow)

/-- The run of a server that is deleted because of an interrupt is sound, and what the server is
made of has not changed while it was followed. -/
theorem interrupted_sound (hserver : (account.createServer bound settings.project name zone
      settings.metrics).outcome w = (.ok server, v))
    (hfollow : (created server v).follow logProgress bound interrupt = some followed) :
    (interrupted followed.run).Sound ∧
      Onward (fun _ => True) (created server v) (interrupted followed.run) := by
  have htold : (created server v).follow progressLogger.tell bound interrupt = some followed :=
    hfollow
  obtain ⟨moves, hmoves, -⟩ := followFrom_after htold
  have hsound : followed.run.Sound := by
    rw [hmoves]
    exact after_sound (created_sound_endowed hserver).1 moves
  have honward : Onward (fun _ => True) (created server v) followed.run := by
    rw [hmoves]
    exact after_onward _ moves
  exact ⟨hsound.of_world _, honward.trans (onward_world (.record ⟨trivial, rfl⟩ _))⟩

/-- If the deletion after an interrupt succeeds, the address and the instance of the server were
deleted, and nothing else was before. -/
theorem deletions_of_interrupt {r : Run}
    (hserver : (account.createServer bound settings.project name zone
      settings.metrics).outcome w = (.ok server, v))
    (hfollow : (created server v).follow logProgress bound interrupt = some followed)
    (hdelete : (interrupted followed.run).delete bound = some (.ok (), r)) :
    ∃ region phases, server.locator.regionLocator = .ok region ∧
      let p := (interrupted followed.run).cancel.provisioned phases
      p.server.state.isFinal = true ∧ w.deletionsSince p.world = [] ∧
      p.world.deletionsSince r.world =
        [server.client.deleteAddress region server.name.text,
          server.client.deleteInstance server.locator] := by
  obtain ⟨hsound, honward⟩ := interrupted_sound hserver hfollow
  obtain ⟨hclient, hlocator, hname⟩ := honward.resources_eq
  obtain ⟨region, phases, hregion, hfinal, hbefore, hboth⟩ := deletions_of_deleted hsound hdelete
  rw [hclient, hlocator, hname] at hboth
  refine ⟨region, phases, hlocator ▸ hregion, hfinal, ?_, hboth⟩
  have hquiet := spares_of_created hserver hfollow
  exact deletionsSince_of_spares ((hquiet.trans (log_spares _ _ _)).trans hbefore)

/-- What a command does not handle in the deletion after an interrupt is the fault of a response
that is nested too deep. -/
theorem fault_of_interrupt {r : Run} {f : Failure}
    (hserver : (account.createServer bound settings.project name zone
      settings.metrics).outcome w = (.ok server, v))
    (hfollow : (created server v).follow logProgress bound interrupt = some followed)
    (hdelete : (interrupted followed.run).delete bound = some (.error f, r))
    (hfault : f.isA .general = false) :
    ∃ container phases, f = .fault (.nestedTooDeep container) ∧
      let p := (interrupted followed.run).cancel.provisioned phases
      ∃ response ∈ p.world.network.responses server.removals,
        response.answer.tooDeep? = some container := by
  obtain ⟨hsound, honward⟩ := interrupted_sound hserver hfollow
  obtain ⟨phases, -, -, -, -, -, hfailure, -⟩ := delete_deletions hsound hdelete
  rcases hfailure f rfl with hgeneral | ⟨container, hf, hresponse⟩
  · rw [hfault] at hgeneral
    cases hgeneral
  · rw [honward.removals_eq] at hresponse
    exact ⟨container, phases, hf, hresponse⟩

/-! ## §4 The exit code -/

/-- Whatever the platform answers and wherever the user interrupts, as long as a server is created
and the command comes to an end. -/
theorem create_exit_code
    (hserver : (settings.account.createServer bound settings.project name zone
      settings.metrics).outcome w = (.ok server, v))
    (hends : ((perform bound (.create name zone) settings interrupt).outcome w).1 ≠
      .error .unfinished) :
    -- the server is followed, and the command ends
    ∃ followed e u, (created server v).follow logProgress bound interrupt = some followed ∧
      (perform bound (.create name zone) settings interrupt).outcome w = (e, u) ∧
      let final := followed.run.server
      let deleted := interrupted followed.run
      -- an interrupt takes effect exactly after so many reported states
      (followed.finish = .dropped ↔ interrupt = some followed.states.length) ∧
      -- zero is a completed installation, whose endpoint is logged
      (e = .ok 0 ↔ followed.finish ≠ .dropped ∧ final.state = .completed) ∧
      (e = .ok 0 → ∃ endpoint, final.endpoint = some endpoint ∧
        u = ((followed.run.world.log .info s!"Server {final.id} is ready").log .info
          s!"Management API: {endpoint.apiUrl.text}").log .info
          s!"Certificate SHA-256: {endpoint.fingerprint}") ∧
      -- 130 is an interrupt after which the server was deleted: when its state was final, its
      -- address and its instance were requested to be deleted, and nothing else ever was
      (e = .ok 130 ↔ followed.finish = .dropped ∧ ∃ r, deleted.delete bound = some (.ok (), r)) ∧
      (e = .ok 130 → ∃ region phases, server.locator.regionLocator = .ok region ∧
        let p := deleted.cancel.provisioned phases
        p.server.state.isFinal = true ∧ w.deletionsSince p.world = [] ∧
        p.world.deletionsSince u =
          [server.client.deleteAddress region server.name.text,
            server.client.deleteInstance server.locator]) ∧
      -- without any code it ends exactly if deleting the server fails with a fault, which takes a
      -- response to one of the two deletions that is nested too deep
      (∀ f, e = .error (.failure f) ↔ followed.finish = .dropped ∧
        (∃ fault, f = .fault fault) ∧ ∃ r, deleted.delete bound = some (.error f, r)) ∧
      (∀ f, e = .error (.failure f) → ∃ container phases, f = .fault (.nestedTooDeep container) ∧
        let p := deleted.cancel.provisioned phases
        ∃ response ∈ p.world.network.responses server.removals,
          response.answer.tooDeep? = some container) ∧
      -- one is everything else
      (e = .ok 0 ∨ e = .ok 130 ∨ e = .ok 1 ∨ ∃ f, e = .error (.failure f)) ∧
      -- without an effective interrupt nothing is deleted
      (followed.finish ≠ .dropped → w.deletionsSince u = []) := by
  obtain ⟨followed, e, u, hfollow, hperform, h⟩ := perform_create_ends hserver hends
  have hquiet := spares_of_created hserver hfollow
  refine ⟨followed, e, u, hfollow, hperform, follow_finish hfollow, ?_, ?_, ?_, ?_, ?_, ?_, ?_, ?_⟩
  · cases h <;> simp_all
  · rintro rfl
    cases h with
    | completed _ _ hendpoint => exact ⟨_, hendpoint, rfl⟩
  · cases h <;> simp_all
  · rintro rfl
    cases h with
    | deleted _ hdelete => exact deletions_of_interrupt hserver hfollow hdelete
  · intro f
    constructor
    · rintro rfl
      cases h with
      | unhandled hfinish hdelete hfault =>
        obtain ⟨container, -, rfl, -⟩ := fault_of_interrupt hserver hfollow hdelete hfault
        exact ⟨hfinish, ⟨_, rfl⟩, _, hdelete⟩
    · rintro ⟨hfinish, ⟨fault, rfl⟩, r, hdelete⟩
      cases h with
      | completed hended | stopped hended =>
        rw [hfinish] at hended
        cases hended
      | deleted _ hdelete' =>
        rw [hdelete] at hdelete'
        cases hdelete'
      | refused _ hdelete' hgeneral =>
        rw [hdelete] at hdelete'
        cases hdelete'
        cases hgeneral
      | unhandled _ hdelete' =>
        rw [hdelete] at hdelete'
        cases hdelete'
        rfl
  · rintro f rfl
    cases h with
    | unhandled _ hdelete hfault => exact fault_of_interrupt hserver hfollow hdelete hfault
  · cases h <;> simp
  · intro hfinish
    cases h with
    | completed => exact deletionsSince_of_spares (((hquiet.trans (log_spares _ _ _)).trans
        (log_spares _ _ _)).trans (log_spares _ _ _))
    | stopped => exact deletionsSince_of_spares (hquiet.trans (log_spares _ _ _))
    | deleted hdropped | refused hdropped | unhandled hdropped => exact absurd hdropped hfinish

theorem create_exit_code_of_interrupt :
    let settings : Settings := { project := "project" }
    let submitted := "\x7b\"targetId\": \"1\", \"name\": \"operation\"\x7d"
    let w : World :=
      { network :=
          [{ responses :=
              [{ answer := .reply { body := "\x7b\"items\": [1]\x7d" } },
                { answer := .reply { body := submitted } }, { answer := .broken "" },
                { answer := .reply {} }] }]
        tokens := .make (some "token") none none none }
    ∃ server v, (settings.account.createServer 2 settings.project "name" "region-a"
        settings.metrics).outcome w = (.ok server, v) ∧
      ∃ u region p, (perform 2 (.create "name" "region-a") settings (some 0)).outcome w =
          (.ok 130, u) ∧
        w.deletionsSince p = [] ∧ p.deletionsSince u =
          [server.client.deleteAddress region server.name.text,
            server.client.deleteInstance server.locator] := by
  intro settings submitted w
  have hcreated : ((settings.account.createServer 2 settings.project "name" "region-a"
      settings.metrics).outcome w).1.isOk = true := by
    decide +kernel
  have hcode : ((perform 2 (.create "name" "region-a") settings (some 0)).outcome w).1.toOption =
      some 130 := by
    decide +kernel
  rcases hserver : (settings.account.createServer 2 settings.project "name" "region-a"
      settings.metrics).outcome w with ⟨halt | server, v⟩
  · rw [hserver] at hcreated
    cases hcreated
  · have hends : ((perform 2 (.create "name" "region-a") settings (some 0)).outcome w).1 ≠
        .error .unfinished := by
      intro hunfinished
      rw [hunfinished] at hcode
      cases hcode
    obtain ⟨followed, e, u, -, hperform, -, -, -, -, hdeleted, -⟩ :=
      create_exit_code hserver hends
    rw [hperform] at hcode
    cases e with
    | error halt => cases hcode
    | ok code =>
    obtain rfl : code = 130 := Option.some.inj hcode
    obtain ⟨region, phases, -, -, hnone, hboth⟩ := hdeleted rfl
    exact ⟨server, v, rfl, u, region, _, hperform, hnone, hboth⟩

/-- A server is created, the user interrupts, and the response to the deletion of its address is
nested too deep: then the command ends without a code. -/
theorem create_without_code_after_interrupt :
    let settings : Settings := { project := "project" }
    let submitted := "\x7b\"targetId\": \"1\", \"name\": \"operation\"\x7d"
    let deletion : Reply := { body := String.ofList (List.replicate 1000 '[') }
    let w : World :=
      { network :=
          [{ method := some "DELETE", responses := [{ answer := .reply deletion }] },
            { responses :=
              [{ answer := .reply { body := "\x7b\"items\": [1]\x7d" } },
                { answer := .reply { body := submitted } }, { answer := .broken "" },
                { answer := .reply {} }] }]
        tokens := .make (some "token") none none none }
    ((settings.account.createServer 2 settings.project "name" "region-a"
        settings.metrics).outcome w).1.isOk = true ∧
      ((perform 2 (.create "name" "region-a") settings (some 0)).outcome w).1 =
        .error (.failure (.fault (.nestedTooDeep .array))) := by
  intro settings submitted deletion w
  -- what there is when the deletion begins, its response unread
  have hsettled :
      let created' := (settings.account.createServer 2 settings.project "name" "region-a"
        settings.metrics).outcome w
      let settled := created'.1.toOption.bind fun server =>
        (interrupted (created server created'.2)).cancel.awaitSettled 2
      settled.map (fun r => r.server.locator.regionLocator.toOption.map fun region =>
        let address := r.server.client.deleteAddress region r.server.name.text
        (r.world.tokens.getToken.1.toOption,
          (r.world.network.respond address.method address.url).1.answer)) =
        some (some (some "token", .reply deletion)) := by
    decide +kernel
  rcases hserver : (settings.account.createServer 2 settings.project "name" "region-a"
      settings.metrics).outcome w with ⟨halt | server, v⟩
  all_goals rw [hserver] at hsettled
  · cases hsettled
  · refine ⟨rfl, ?_⟩
    obtain ⟨r, hr, hready⟩ := Option.map_eq_some_iff.mp hsettled
    obtain ⟨region, hregion, hready⟩ := Option.map_eq_some_iff.mp hready
    obtain ⟨htoken, hanswer⟩ := Prod.mk.inj hready
    have hdeep : deletion.tooDeep? = some .array :=
      Reply.tooDeep?_of_openings 1000 [] (by rw [List.append_nil])
        (show usualDepth < 1000 by decide)
    have hteardown : r.tearDown.1 = .error (.fault (.nestedTooDeep .array)) := by
      refine tearDown_of_tooDeep (eq_ok_of_toOption hregion) (eq_ok_of_toOption htoken) ?_
      intro address
      rw [show (r.world.network.respond address.method address.url).1.answer = _ from hanswer]
      exact hdeep
    have hdelete : (interrupted (created server v)).delete 2 =
        some (.error (.fault (.nestedTooDeep .array)), r.tearDown.2) := by
      rw [Run.delete, show Run.awaitSettled _ 2 = some r from hr, ← hteardown]
      rfl
    have hrun : (run 2 (.create "name" "region-a") settings (some 0)).outcome w = _ :=
      create_run hserver
    rw [follow_of_zero] at hrun
    simp only at hrun
    rw [deleteServer_outcome hdelete] at hrun
    exact congrArg Prod.fst (perform_of_unhandled rfl hrun)

end CommandLine

end Fleet
