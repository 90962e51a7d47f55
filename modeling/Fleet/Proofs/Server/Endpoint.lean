import Fleet.CommandLine.Commands
import Fleet.Proofs.Server.Following

/-!
# The endpoint of an installation

The endpoint is made from a complete snapshot before it is known whether the completed state will be
accepted, and it is kept only if it is.  A fingerprint may turn out to be malformed, and the
installation may have failed or been called off by then; no endpoint is kept in these cases.  Since
nothing else leads to the completed state, whoever has listened to the end without a failure finds
an endpoint.

## Main definitions

- `Run.Endowed`: a completed installation has an endpoint
- `Run.Completes`: a move completes the installation, with the endpoint of the snapshot it enters

## Main statements

- `Run.Endowed.move`: every move keeps that a completed installation has an endpoint
- `Run.move_endpoint`: only a completing move brings an endpoint
- `CommandLine.create_outcome`: a server that is followed to the end is reported with its endpoint
- `Launch.endpoint_comes_with_completion`: the endpoint and the completed state go together
-/

namespace Fleet

open Run World

namespace Run

variable {P : Event → Prop} {r r' n : Run} {m : Move} {snapshot : Json}
  {endpoint : ManagementEndpoint}

/-! ## §1 Completed installations -/

/-- A completed installation has an endpoint. -/
def Endowed (r : Run) : Prop :=
  r.server.state = .completed → r.server.endpoint.isSome = true

theorem Endowed.idle (hr : r.Endowed) (h : Idle r r') : r'.Endowed := by
  intro hstate
  rw [h.2]
  apply hr
  rwa [Server.state, ← h.1]

theorem Endowed.proceed (hr : r.Endowed) {next : InstallState} (hnext : next ≠ .completed) :
    (r.proceed next).Endowed := by
  intro hstate
  rw [endpoint_proceed]
  apply hr
  unfold Run.proceed at hstate
  rcases r.enter_cases next none with ⟨hserver, -⟩ | ⟨-, hserver, -⟩ <;>
    rw [Server.state, hserver] at hstate
  · exact hstate
  · exact absurd hstate hnext

theorem Endowed.enter (hr : r.Endowed) (endpoint : ManagementEndpoint) :
    (r.enter .completed (some endpoint)).2.Endowed := by
  intro hstate
  rcases r.enter_cases .completed (some endpoint) with ⟨hserver, -⟩ | ⟨-, hserver, -⟩ <;>
    rw [hserver]
  · apply hr
    rwa [Server.state, ← hserver]
  · rfl

theorem Endowed.meanwhile (hr : r.Endowed) (h : Meanwhile r r') : r'.Endowed := by
  cases h with
  | idle h => exact hr.idle h
  | @canceled a _ ha h =>
    have hcanceled : a.cancel.Endowed := (hr.idle ha).proceed (fun heq => nomatch heq)
    exact hcanceled.idle h

/-- Every move keeps this, unless somebody proposes the completed state by name. -/
theorem Endowed.move (hr : r.Endowed) (hm : m ≠ .propose .completed) : (r.move m).Endowed := by
  cases r.move_enters hm with
  | nothing h => exact hr.meanwhile h
  | state next hnext hm h => exact ((hr.meanwhile hm).proceed hnext).idle h
  | endpoint hn _ _ h => exact ((hr.meanwhile hn.meanwhile).enter _).idle h

theorem Endowed.after (hr : r.Endowed) {moves : List Move} (h : .propose .completed ∉ moves) :
    (r.after moves).Endowed := by
  induction moves generalizing r with
  | nil => exact hr
  | cons m moves ih =>
    obtain ⟨hm, hmoves⟩ := not_or.mp (mt List.mem_cons.mpr h)
    exact ih (hr.move (Ne.symm hm)) hmoves

/-! ## §2 Completing moves -/

/-- The move enters a complete snapshot and the completed state is accepted; the endpoint is the one
that the snapshot has. -/
structure Completes (r : Run) (m : Move) (snapshot : Json) (endpoint : ManagementEndpoint) :
    Prop where
  signals : signalledState snapshot = .ok (some .completed)
  made : ∃ apiUrl certificate, snapshot.part apiUrlAttribute = .ok apiUrl ∧
    snapshot.part fingerprintAttribute = .ok certificate ∧
    ManagementEndpoint.make apiUrl certificate = .ok endpoint
  accepted : ∃ n, r.Applies m snapshot n ∧ n.server.verdict .completed = .accepted
  /-- it is the only state that the move enters -/
  entered : r.world.transitionsSince (r.move m).world = [.completed]

theorem ofSnapshot_eq_ok : ManagementEndpoint.ofSnapshot snapshot = .ok endpoint ↔
    ∃ apiUrl certificate, snapshot.part apiUrlAttribute = .ok apiUrl ∧
      snapshot.part fingerprintAttribute = .ok certificate ∧
      ManagementEndpoint.make apiUrl certificate = .ok endpoint := by
  unfold ManagementEndpoint.ofSnapshot
  cases snapshot.part apiUrlAttribute with
  | error f => exact ⟨nofun, fun ⟨_, _, h, _⟩ => nomatch h⟩
  | ok apiUrl =>
    cases snapshot.part fingerprintAttribute with
    | error f => exact ⟨nofun, fun ⟨_, _, _, h, _⟩ => nomatch h⟩
    | ok certificate =>
      constructor
      · intro h
        exact ⟨apiUrl, certificate, rfl, rfl, h⟩
      · rintro ⟨_, _, hurl, hcertificate, h⟩
        cases hurl
        cases hcertificate
        exact h

/-- The phase in which a poll has fetched a snapshot and enters it. -/
theorem move_of_polled {q : Run} {deadline : Option Float}
    (hphase : r.server.phase = .polling deadline) (hopen : r.server.install.closed = false)
    (hfetch : fetchSnapshot.outcome r = (.ok snapshot, n)) {o : Except Failure Bool}
    (h : (applySnapshot snapshot).outcome n = (o, q)) :
    r.move .provision =
      match o with
      | .ok true => q.goTo .finished
      | .ok false => q.goTo (.pausing deadline)
      | .error f =>
        ((q.log .error
          s!"Polling install state of server {q.server.id} failed: {f.message}").proceed
            .failed).goTo .finished := by
  have hpoll : poll.outcome r = (o, q) := by
    rw [poll_outcome, hfetch]
    exact h
  simp only [Run.move, step, hphase, pollOnce, hopen, hpoll]
  rcases o with f | ended | ended <;> rfl

/-- A move that enters a snapshot with success does nothing else to the installation. -/
theorem Applies.idle_of_ok {q : Run} {ended : Bool} (h : Applies r m snapshot n)
    (hout : (applySnapshot snapshot).outcome n = (.ok ended, q)) : Idle q (r.move m) := by
  cases h with
  | directly =>
    simp only [Run.move, hout]
    exact .refl q
  | polled hphase hopen hfetch =>
    rw [move_of_polled hphase hopen hfetch hout]
    cases ended <;> exact idle_goTo q _

/-- A move that enters a snapshot brings no endpoint but that of the snapshot. -/
theorem Applies.endpoint_eq (h : Applies r m snapshot n) :
    (r.move m).server.endpoint = ((applySnapshot snapshot).outcome n).2.server.endpoint := by
  rcases hout : (applySnapshot snapshot).outcome n with ⟨f | ended, q⟩
  · -- a poll that fails proposes the failed state, which brings none
    cases h with
    | directly => simp only [Run.move, hout]
    | polled hphase hopen hfetch =>
      rw [move_of_polled hphase hopen hfetch hout]
      exact endpoint_proceed _ .failed
  · exact (h.idle_of_ok hout).2

/-- A snapshot without an endpoint brings none. -/
theorem Applies.endpoint_of_malformed (h : Applies r m snapshot n) {f : Failure}
    (hf : ManagementEndpoint.ofSnapshot snapshot = .error f) :
    (r.move m).server.endpoint = r.server.endpoint := by
  rw [h.endpoint_eq, ← h.meanwhile.endpoint_eq]
  rcases applySnapshot_cases snapshot n with ⟨o, ho⟩ | ⟨next, -, ho⟩ | ⟨e, -, he, -⟩
  · rw [ho]
  · rw [ho]
    exact endpoint_proceed n next
  · rw [hf] at he
    cases he

/-- Neither does one that is entered after the installation has ended. -/
theorem Applies.endpoint_of_isFinal (h : Applies r m snapshot n) (hr : r.Coherent)
    (hn : n.server.state.isFinal = true) : (r.move m).server.endpoint = r.server.endpoint := by
  have hclosed : n.server.install.closed = true := by
    rcases h.meanwhile.install_cases with hsame | hcanceled
    · rw [Server.state, hsame] at hn
      rw [hsame, hr.closed_eq]
      exact hn
    · rw [hcanceled]
  rw [h.endpoint_eq, ← h.meanwhile.endpoint_eq]
  rcases applySnapshot_cases snapshot n with ⟨o, ho⟩ | ⟨next, -, ho⟩ | ⟨e, -, -, ho⟩ <;> rw [ho]
  · exact endpoint_proceed n next
  · rw [enter_of_closed hclosed]

/-- Until a snapshot is entered an installation may be called off, but not be completed. -/
theorem Applies.state_ne_completed (h : Applies r m snapshot n) (hr : r.Coherent)
    (hn : n.server.state ≠ .completed) : r.server.state ≠ .completed := by
  cases h with
  | directly => exact hn
  | polled _ hopen =>
    intro hstate
    have hclosed := hr.closed_eq
    rw [hopen, hstate] at hclosed
    cases hclosed

/-- One more version is one more state. -/
theorem Onward.transitionsSince_eq_singleton (h : Onward P r r') (hr : r.Coherent)
    (hversion : r'.server.install.version = r.server.install.version + 1) :
    r.world.transitionsSince r'.world = [r'.server.state] := by
  have hlength := h.version_eq
  obtain ⟨next, hnext⟩ : ∃ next, r.world.transitionsSince r'.world = [next] := by
    apply List.length_eq_one_iff.mp
    omega
  have hlast := (h.ascent hr).getLast_eq
  simp only [hnext, List.getLast_cons_cons, List.getLast_singleton] at hlast
  rw [hnext, hlast]

/-- An accepted snapshot completes the installation with its endpoint. -/
theorem Applies.completes (h : Applies r m snapshot n) (hr : r.Coherent)
    (hsignal : signalledState snapshot = .ok (some .completed))
    (hendpoint : ManagementEndpoint.ofSnapshot snapshot = .ok endpoint)
    (haccepted : n.server.verdict .completed = .accepted) :
    r.Completes m snapshot endpoint ∧ (r.move m).server.endpoint = some endpoint := by
  have hout : (applySnapshot snapshot).outcome n =
      (.ok true, (n.enter .completed (some endpoint)).2) := by
    rw [applySnapshot_outcome, hsignal]
    simp only [hendpoint]
  have henter := enter_of_accepted haccepted (some endpoint)
  have hidle := h.idle_of_ok hout
  -- the completed state is accepted, so the installation was not called off meanwhile
  have hinstall : n.server.install = r.server.install := by
    rcases h.meanwhile.install_cases with hsame | hcanceled
    · exact hsame
    · have hopen := Server.open_of_accepted haccepted
      rw [hcanceled] at hopen
      cases hopen
  have hstate : (r.move m).server.state = .completed := by
    rw [Server.state, hidle.1, henter]
  refine ⟨⟨hsignal, ofSnapshot_eq_ok.mp hendpoint, ⟨n, h, haccepted⟩, ?_⟩, ?_⟩
  · rw [(r.move_onward m).transitionsSince_eq_singleton hr, hstate]
    rw [hidle.1, henter, ← hinstall]
  · rw [hidle.2, henter]
    rfl

/-- Only a completing move brings an endpoint, unless somebody proposes the completed state by
name. -/
theorem move_endpoint (hr : r.Coherent) (hm : m ≠ .propose .completed) :
    (r.move m).server.endpoint = r.server.endpoint ∨ ∃ snapshot endpoint,
      r.Completes m snapshot endpoint ∧ (r.move m).server.endpoint = some endpoint := by
  cases r.move_enters hm with
  | nothing h => exact Or.inl h.endpoint_eq
  | state next hnext hm h =>
    left
    rw [h.2, endpoint_proceed, hm.endpoint_eq]
  | @endpoint n snapshot endpoint hn hsignal hendpoint h =>
    rcases n.enter_cases .completed (some endpoint) with ⟨hserver, -⟩ | ⟨haccepted, -, -⟩
    · left
      rw [h.2, hserver, hn.meanwhile.endpoint_eq]
    · right
      exact ⟨snapshot, endpoint, hn.completes hr hsignal hendpoint haccepted⟩

/-- An endpoint that is there stays: its installation has ended. -/
theorem Sound.endpoint_after (hr : r.Sound) (h : r.server.endpoint = some endpoint)
    (moves : List Move) : (r.after moves).server.endpoint = some endpoint := by
  have hclosed : r.server.install.closed = true := by
    rw [hr.closed_eq, hr.completed_of_endpoint (by rw [h]; rfl)]
    rfl
  obtain ⟨-, hkept⟩ := (after_onward r moves).closed hclosed
  rw [hkept, h]

theorem Completes.endpoint_eq (h : r.Completes m snapshot endpoint) (hr : r.Coherent) :
    (r.move m).server.endpoint = some endpoint := by
  obtain ⟨n, hn, haccepted⟩ := h.accepted
  exact (hn.completes hr h.signals (ofSnapshot_eq_ok.mpr h.made) haccepted).2

/-- The endpoint after a course without one before was brought by a completing move of it. -/
theorem exists_completes_of_endpoint (hr : r.Sound) {moves : List Move}
    (h : .propose .completed ∉ moves) (hnone : r.server.endpoint = none)
    (he : (r.after moves).server.endpoint = some endpoint) :
    ∃ before m rest snapshot, moves = before ++ m :: rest ∧
      (r.after before).Completes m snapshot endpoint := by
  -- along the moves: the first one either brings the endpoint, which then stays, or none
  induction moves generalizing r with
  | nil =>
    rw [after_nil, hnone] at he
    cases he
  | cons m moves ih =>
    obtain ⟨hm, hmoves⟩ := not_or.mp (mt List.mem_cons.mpr h)
    have hsound := move_sound hr m
    rcases r.move_endpoint hr.toCoherent (Ne.symm hm) with hsame | ⟨snapshot, e, hcompletes, hsome⟩
    · obtain ⟨before, m', rest, snapshot, rfl, hlater⟩ := ih hsound hmoves (hsame.trans hnone) he
      exact ⟨m :: before, m', rest, snapshot, rfl, hlater⟩
    · rw [after_cons, hsound.endpoint_after hsome] at he
      cases he
      exact ⟨[], m, moves, snapshot, rfl, hcompletes⟩

/-! ## §3 Whoever has listened to the end -/

/-- A listener that ends without a failure has seen the completed state, also if it has looked
before the stream was closed. -/
theorem Onward.completed_of_session (h : Onward P r r') (hr : r.Sound) {beats : List Beat}
    (hbeats : beats.filter Beat.isWrite <+:
      (r.world.transitionsSince r'.world).flatMap InstallState.beats)
    (hended : ((Session.opened r.server).after beats).listener = .ended (.ok ())) :
    r'.server.state = .completed := by
  obtain ⟨-, hsession⟩ := h.session hr hbeats
  obtain ⟨hfinal, hends⟩ := hsession.endsWith hended
  rw [h.state_of_session hr hbeats hfinal]
  cases hends with
  | completed hstate => exact hstate

theorem follow_completed (follower : Follower) {bound : Nat} {wanted : Option Nat}
    {followed : Followed} (hr : r.Sound)
    (h : r.follow follower.tell bound wanted = some followed)
    (hfinish : followed.finish = .ended (.ok ())) : followed.run.server.state = .completed := by
  -- a follower that wants nothing leaves at once, and so it does not end with the installation
  have hwanted : wanted ≠ some 0 := by
    rintro rfl
    rw [Run.follow, followFrom, if_pos rfl] at h
    cases h
    cases hfinish
  obtain ⟨-, hends⟩ := (follow_told hr hwanted h).2 _ hfinish
  cases hends with
  | completed hstate => exact hstate

/-- Following proposes no state. -/
theorem Endowed.follow (hr : r.Endowed) (follower : Follower) {bound : Nat} {wanted : Option Nat}
    {followed : Followed}
    (h : r.follow follower.tell bound wanted = some followed) : followed.run.Endowed := by
  obtain ⟨moves, hrun, hprogress⟩ := followFrom_after h
  rw [hrun]
  exact hr.after fun hmem => hprogress _ hmem

end Run

/-! ## §4 The command that creates a server -/

namespace Launch

theorem start_endowed (l : Launch) : l.start.Endowed :=
  fun hstate => nomatch hstate

end Launch

/-- A server is handed out as it was launched. -/
theorem Account.exists_launch_of_createServer {account : Account} {waits : Nat}
    {project name zone : String} {metrics : Bool} {server : Server} {w v : World}
    (h : (account.createServer waits project name zone metrics).outcome w = (.ok server, v)) :
    ∃ l : Launch, l.start = { server, world := v } := by
  unfold createServer Job.outcome at h
  -- the firewall, the date, the submission and the wait come before the launch
  obtain ⟨_, _, -, h⟩ := exists_of_run_bind_eq_ok h
  obtain ⟨_, _, -, h⟩ := exists_of_run_bind_eq_ok h
  obtain ⟨⟨locator, operation⟩, _, -, h⟩ := exists_of_run_bind_eq_ok h
  obtain ⟨creation, u, -, h⟩ := exists_of_run_bind_eq_ok h
  obtain ⟨hserver, rfl⟩ := Prod.mk.inj h
  obtain rfl := Except.ok.inj hserver
  exact ⟨⟨account.client, account.id ++ ":" ++ locator.instanceId, locator, _, _,
    account.pollInterval, account.installTimeout, u⟩, rfl⟩

/-- What is done to a server comes back if it does. -/
theorem Server.run_onRun {α : Type} {s : Server} {act : Run → Option (α × Run)} {w : World} {a : α}
    {r : Run} (h : act { server := s, world := w } = some (a, r)) :
    (ExceptT.run (s.onRun act)).run w = (.ok (a, r.server), r.world) := by
  simp only [Server.onRun, ExceptT.run, StateT.run, h]

namespace CommandLine

/-- Telling the log of a state is a log line. -/
def progressLogger : Follower where
  tell := logProgress
  extends_tell _ w := .record trivial w

theorem run_log_bind {β : Type} (level : Level) (message : String) (f : Unit → Job β) (w : World) :
    (ExceptT.run (Job.log level message >>= f)).run w =
      (ExceptT.run (f ())).run (w.log level message) := rfl

/-- A server that was followed to the end is reported with its endpoint. -/
theorem create_outcome {bound : Nat} {account : Account} {settings : Settings}
    {name zone : String} {interrupt : Option Nat} {w v : World} {server : Server}
    {followed : Followed} {endpoint : ManagementEndpoint}
    (hserver : (account.createServer bound settings.project name zone settings.metrics).outcome w =
      (.ok server, v))
    (hfollow : Run.follow
      ⟨server, v.log .info s!"Created server {server.id}, waiting for install..."⟩ logProgress bound
        interrupt = some followed)
    (hfinish : followed.finish = .ended (.ok ()))
    (hendpoint : followed.run.server.endpoint = some endpoint) :
    (create bound account settings name zone interrupt).outcome w =
      (.ok 0, ((followed.run.world.log .info s!"Server {followed.run.server.id} is ready").log .info
        s!"Management API: {endpoint.apiUrl.text}").log .info
        s!"Certificate SHA-256: {endpoint.fingerprint}") := by
  unfold create Job.outcome
  rw [run_bind_of_ok hserver, run_log_bind]
  have hact : ((Run.follow
      ⟨server, v.log .info s!"Created server {server.id}, waiting for install..."⟩ logProgress bound
        interrupt).map fun followed => (followed.finish, followed.run)) =
      some (followed.finish, followed.run) := by
    rw [hfollow]
    rfl
  rw [run_bind_of_ok (Server.run_onRun hact), hfinish]
  simp only [reportEndpoint, hendpoint]
  rfl

end CommandLine

/-! ## §5 Endpoints and completed installations -/

namespace Launch

/-- After every course of a server in which nobody proposes the completed state by name. -/
theorem endpoint_comes_with_completion (l : Launch) (moves : List Move)
    (h : .propose .completed ∉ moves) :
    let r := l.start.after moves
    -- there is an endpoint exactly if the installation is completed, and it is the one of the
    -- snapshot with which it was completed
    (r.server.endpoint.isSome = true ↔ r.server.state = .completed) ∧
    (∀ endpoint, r.server.endpoint = some endpoint ↔
      ∃ before m rest snapshot, moves = before ++ m :: rest ∧
        (l.start.after before).Completes m snapshot endpoint) ∧
    -- a snapshot without an endpoint brings none, nor does any after a failure or a cancellation
    (∀ m snapshot n, r.Applies m snapshot n →
      (∀ f, ManagementEndpoint.ofSnapshot snapshot = .error f →
        (r.move m).server.endpoint = r.server.endpoint) ∧
      (n.server.state = .failed ∨ n.server.state = .canceled →
        (r.move m).server.endpoint = none)) ∧
    -- whoever has listened or followed to the end without a failure finds an endpoint
    (∀ moves' beats, .propose .completed ∉ moves' →
      beats.filter Beat.isWrite <+:
        (r.world.transitionsSince (r.after moves').world).flatMap InstallState.beats →
      ((Session.opened r.server).after beats).listener = .ended (.ok ()) →
      (r.after moves').server.endpoint.isSome = true) ∧
    (∀ (follower : Follower) bound wanted followed,
      r.follow follower.tell bound wanted = some followed → followed.finish = .ended (.ok ()) →
      followed.run.server.endpoint.isSome = true) ∧
    -- the operations of a server are such courses
    (∀ acts r', r.perform acts = some r' → .propose .completed ∉ acts →
      ∃ moves', .propose .completed ∉ moves' ∧ r' = r.after moves') ∧
    -- and the command that creates a server reports the endpoint after such an end
    ∀ (account : Account) (settings : CommandLine.Settings) bound name zone interrupt w server v
      followed,
      (account.createServer bound settings.project name zone settings.metrics).outcome w =
        (.ok server, v) →
      Run.follow ⟨server, v.log .info s!"Created server {server.id}, waiting for install..."⟩
        CommandLine.logProgress bound interrupt = some followed →
      followed.finish = .ended (.ok ()) →
      ∃ endpoint, followed.run.server.endpoint = some endpoint ∧
        (CommandLine.create bound account settings name zone interrupt).outcome w =
          (.ok 0, ((followed.run.world.log .info
            s!"Server {followed.run.server.id} is ready").log .info
            s!"Management API: {endpoint.apiUrl.text}").log .info
            s!"Certificate SHA-256: {endpoint.fingerprint}") := by
  intro r
  have hsound : r.Sound := after_sound l.start_sound moves
  have hendowed : r.Endowed := l.start_endowed.after h
  refine ⟨⟨hsound.completed_of_endpoint, hendowed⟩, fun endpoint => ⟨fun he => ?_, ?_⟩, ?_, ?_, ?_,
    ?_, ?_⟩
  · exact exists_completes_of_endpoint l.start_sound h rfl he
  · -- what the completing move has brought stays
    rintro ⟨before, m, rest, snapshot, hmoves, hcompletes⟩
    have hbefore : (l.start.after before).Sound := after_sound l.start_sound before
    have hbrought := hcompletes.endpoint_eq hbefore.toCoherent
    show (l.start.after moves).server.endpoint = some endpoint
    rw [hmoves, after_append, after_cons]
    exact (move_sound hbefore m).endpoint_after hbrought rest
  · intro m snapshot n happlies
    refine ⟨fun f hf => happlies.endpoint_of_malformed hf, fun hn => ?_⟩
    have hended : n.server.state.isFinal = true ∧ n.server.state ≠ .completed := by
      rcases hn with hn | hn <;> rw [hn] <;> exact ⟨rfl, nofun⟩
    rw [happlies.endpoint_of_isFinal hsound.toCoherent hended.1]
    have hstate := happlies.state_ne_completed hsound.toCoherent hended.2
    exact Option.not_isSome_iff_eq_none.mp (mt hsound.completed_of_endpoint hstate)
  · intro moves' beats hmoves' hbeats hended
    have honward := after_onward r moves'
    exact hendowed.after hmoves' (honward.completed_of_session hsound hbeats hended)
  · intro follower bound wanted followed hfollow hfinish
    exact hendowed.follow follower hfollow (follow_completed follower hsound hfollow hfinish)
  · intro acts r' hperform hacts
    obtain ⟨moves', hr', hmakes⟩ := perform_makes hsound hperform
    refine ⟨moves', fun hmem => ?_, hr'⟩
    obtain ⟨a, ha, hmade⟩ := hmakes _ hmem
    rw [hmade.eq_propose nofun] at ha
    exact hacts ha
  · intro account settings bound name zone interrupt w server v followed hserver hfollow hfinish
    obtain ⟨launch, hlaunch⟩ := Account.exists_launch_of_createServer hserver
    have hstart := launch.start_sound
    have hnew := launch.start_endowed
    rw [hlaunch] at hstart hnew
    -- a log line later the server is followed
    let created : Run :=
      ⟨server, v.log .info s!"Created server {server.id}, waiting for install..."⟩
    have hsound' : created.Sound := hstart.of_world _
    have hendowed' : created.Endowed := hnew
    have hcompleted := follow_completed CommandLine.progressLogger hsound' hfollow hfinish
    have hready := hendowed'.follow CommandLine.progressLogger hfollow hcompleted
    obtain ⟨endpoint, hendpoint⟩ := Option.isSome_iff_exists.mp hready
    exact ⟨endpoint, hendpoint, CommandLine.create_outcome hserver hfollow hfinish hendpoint⟩

/-- A snapshot that is entered after the start of an installation completes it. -/
theorem endpoint_comes_with_snapshot :
    let snapshot : Json :=
      .obj [("certSha256", .str "QUI="), ("apiUrl", .str "https://host/prefix")]
    let moves : List Move := [.propose .instanceCreated, .apply snapshot, .propose .canceled]
    .propose .completed ∉ moves ∧
      ((against []).start.after moves).server.endpoint =
        some ⟨.str "https://host/prefix", "AB"⟩ := by
  intro snapshot moves
  have hmoves : .propose .completed ∉ moves := by simp [moves]
  obtain ⟨-, hendpoint, -⟩ := endpoint_comes_with_completion (against []) moves hmoves
  refine ⟨hmoves, (hendpoint _).mpr ⟨[.propose .instanceCreated], _, _, snapshot, rfl, ?_⟩⟩
  have hsignal : signalledState snapshot = .ok (some .completed) := by rfl
  have hmade : ManagementEndpoint.ofSnapshot snapshot =
      .ok ⟨.str "https://host/prefix", "AB"⟩ := by
    rfl
  let before := (against []).start.after [.propose .instanceCreated]
  have haccepted : before.server.verdict .completed = .accepted := by decide +kernel
  have hsound : before.Sound := after_sound (against []).start_sound [.propose .instanceCreated]
  exact ((Applies.directly snapshot).completes hsound.toCoherent hsignal hmade haccepted).1

end Launch

end Fleet
