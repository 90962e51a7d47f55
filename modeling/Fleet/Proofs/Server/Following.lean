import Fleet.Proofs.Server.Acts
import Fleet.Proofs.Server.Entries
import Fleet.Proofs.Server.Listening

/-!
# Following an installation

The states that a course of moves enters are written to the stream one after the other, and whoever
listens meanwhile hears what such a session lets it hear.  Following an installation is a session as
well: provisioning goes on only when the follower has seen everything, and a phase enters one state
at most, so no state is missed.

## Main statements

- `Run.Onward.writes`: the stream of a later run is made by the writes of the states entered
- `Run.followFrom_session`: following is an attentive session
- `Launch.progress_is_told`: what listeners and followers are told, and how they end
-/

namespace Fleet

open Run World

/-- A watcher that has to wait stays where it is. -/
theorem Watcher.eq_of_blocked {α : Type} {w w' : Watcher} {s : ValueStream α}
    (h : w.next s = (.blocked, w')) : w' = w := by
  obtain ⟨hopen, rfl⟩ := next_blocked_iff.mp (congrArg Prod.fst h)
  simpa [Watcher.next, hopen, eq_comm] using h

namespace Run

variable {P Q : Event → Prop} {r r' : Run}

/-! ## §1 Courses as beats -/

/-- The states that are entered on the way to a later run are written lawfully, and their writes
make its stream. -/
theorem Onward.writes (h : Onward P r r') (hr : r.Coherent) :
    let writes := (r.world.transitionsSince r'.world).flatMap InstallState.beats
    Beat.Lawful r.server.install writes ∧
      writes.foldl Beat.write r.server.install = r'.server.install := by
  obtain ⟨hlawful, hfold⟩ := (h.ascent hr).beats rfl hr.closed_eq
  refine ⟨hlawful, hfold.trans ?_⟩
  rw [← h.version_eq, ← (h.coherent hr).closed_eq]
  rfl

/-- Provisioning to the next accepted state enters one state at most. -/
theorem toTransition_length {steps : Nat} (h : r.toTransition steps = some r') :
    (r.world.transitionsSince r'.world).length ≤ 1 := by
  induction steps generalizing r with
  | zero =>
    simp only [toTransition, Option.ite_none_right_eq_some, Option.some.injEq] at h
    rw [← h.2, transitionsSince_self]
    exact Nat.zero_le 1
  | succ steps ih =>
    rw [toTransition] at h
    split at h
    · cases h
      rw [transitionsSince_self]
      exact Nat.zero_le 1
    · dsimp only at h
      split at h
      · -- a phase without a new version has entered nothing
        rename_i hversion
        obtain ⟨phases, hr'⟩ := toTransition_eq_some h
        have hstep := step_onward r
        have hrest : Onward (fun _ => True) r.step r' := hr' ▸ after_onward r.step _
        have hnone : r.world.transitionsSince r.step.world = [] := by
          apply List.eq_nil_of_length_eq_zero
          have hcount := hstep.version_eq
          omega
        rw [transitionsSince_trans hstep.journal hrest.journal, hnone]
        exact ih h
      · cases h
        exact length_transitionsSince_step_le r

/-! ## §2 Following as a session -/

/-- Whoever begins to listen to a sound run. -/
theorem Sound.opened (hr : r.Sound) : (Session.opened r.server).Sound := by
  apply Session.sound_opened
  rw [hr.closed_eq]
  exact id

/-- Whoever listens while a run goes on, and looks at any moments. -/
theorem Onward.session (h : Onward P r r') (hr : r.Sound) {beats : List Beat}
    (hbeats : beats.filter Beat.isWrite <+:
      (r.world.transitionsSince r'.world).flatMap InstallState.beats) :
    Beat.Lawful r.server.install beats ∧ ((Session.opened r.server).after beats).Sound := by
  obtain ⟨unwritten, hall⟩ := hbeats
  have hlawful : Beat.Lawful r.server.install beats := by
    apply Beat.Lawful.of_writes
    apply Beat.Lawful.of_append
    rw [hall]
    exact (h.writes hr.toCoherent).1
  exact ⟨hlawful, hr.opened.after hlawful⟩

/-- A final state that a listener may see is the one in which the run has ended. -/
theorem Onward.state_of_session (h : Onward P r r') (hr : r.Sound) {beats : List Beat}
    (hbeats : beats.filter Beat.isWrite <+:
      (r.world.transitionsSince r'.world).flatMap InstallState.beats)
    (hfinal : ((Session.opened r.server).after beats).server.state.isFinal = true) :
    r'.server.state = ((Session.opened r.server).after beats).server.state := by
  obtain ⟨unwritten, hall⟩ := hbeats
  obtain ⟨hlawful, hfold⟩ := h.writes hr.toCoherent
  rw [← hall] at hlawful hfold
  rw [Session.server_after, Server.state, ← Session.foldl_write_filter] at hfinal ⊢
  rw [List.foldl_append] at hfold
  rw [Server.state, ← hfold]
  exact hlawful.of_append_right.value_eq_of_isFinal hfinal

/-- A session that shares the installation of a run and has been told of the given states, the
latest first. -/
structure Attends (l : Session) (r : Run) (states : List InstallState) : Prop where
  sound : l.Sound
  install_eq : l.server.install = r.server.install
  id_eq : l.server.id = r.server.id
  told_eq : l.told = states.reverse

theorem Attends.state_eq {l : Session} {states : List InstallState} (h : Attends l r states) :
    l.server.state = r.server.state := by
  rw [Server.state, h.install_eq]
  rfl

/-- What following shows is what an attentive listener hears of the run meanwhile. -/
def Heard (l : Session) (r : Run) (followed : Followed) : Prop :=
  ∃ beats,
    beats.filter Beat.isWrite =
      (r.world.transitionsSince followed.run.world).flatMap InstallState.beats ∧
    Beat.Attentive (!l.pending.isEmpty) beats ∧ (l.after beats).told = followed.states ∧
    ∀ o, followed.finish = .ended o → (l.after beats).listener = .ended o

/-- A listener that leaves asks how the installation has ended, and then provisioning goes on to
its end. -/
theorem endFollowing_heard {steps : Nat} {states : List InstallState} {followed : Followed}
    {l : Session} (hr : r.Sound) (hl : Attends l r states)
    (hlook : l.look = { l with listener := .leaving })
    (h : r.endFollowing steps states = some followed) : Heard l r followed := by
  obtain ⟨phases, hrun⟩ := endFollowing_after h
  obtain ⟨r', -, rfl⟩ := Option.map_eq_some_iff.mp h
  have honward : Onward (fun _ => True) r r' := by
    rw [show r' = r.provisioned phases from hrun]
    exact after_onward r _
  have hfinal : r.server.state.isFinal = true := by
    have hleaving := hl.sound.look.isFinal_of_leaving (by rw [hlook])
    rwa [Session.server_look, hl.state_eq] at hleaving
  obtain ⟨hnone, -⟩ := (honward.ascent hr.toCoherent).eq_nil_of_isFinal hfinal
  have hlast : l.after [.look, .look] = { l with listener := .ended l.server.followOutcome } := by
    rw [Session.after_cons, show l.beat .look = l.look from rfl, hlook]
    rfl
  refine ⟨[.look, .look], by rw [hnone]; rfl, rfl, ?_, fun o ho => ?_⟩
  · rw [hlast]
    exact hl.told_eq
  · cases ho
    rw [hlast]
    simp only [Server.followOutcome, hl.state_eq, hl.id_eq]

/-- A look, after which the run goes on without entering a state. -/
theorem Heard.of_look {l : Session} {followed : Followed} (h : Heard l.look r' followed)
    (hpending : l.look.pending = []) (hr : Onward P r r')
    (hsame : r'.server.install = r.server.install) (hrest : Onward Q r' followed.run) :
    Heard l r followed := by
  obtain ⟨beats, hwrites, hattentive, hfollowed⟩ := h
  have hnone : r.world.transitionsSince r'.world = [] := by
    apply List.eq_nil_of_length_eq_zero
    have hversion := hr.version_eq
    rw [hsame] at hversion
    omega
  refine ⟨.look :: beats, ?_, ?_, hfollowed⟩
  · rw [transitionsSince_trans hr.journal hrest.journal, hnone]
    exact hwrites
  · rw [hpending] at hattentive
    exact hattentive

/-- Provisioning that enters one state at most: a listener to whom nothing is new hears the writes
of that state. -/
theorem Attends.resume {l : Session} {states : List InstallState} {followed : Followed}
    (hl : Attends l r states) (hr : r.Coherent) (hpending : l.pending = []) (h : Onward P r r')
    (hone : (r.world.transitionsSince r'.world).length ≤ 1) (hrest : Onward Q r' followed.run) :
    ∃ l', Attends l' r' states ∧ l'.listener = l.listener ∧
      (Heard l' r' followed → Heard l r followed) := by
  have htransitions := transitionsSince_trans h.journal hrest.journal
  obtain ⟨hlawful, hfold⟩ := h.writes hr
  rw [← hl.install_eq] at hlawful hfold
  generalize hts : r.world.transitionsSince r'.world = ts at hlawful hfold htransitions hone
  have hserver := Session.server_after l (ts.flatMap InstallState.beats)
  rw [hfold] at hserver
  have hattends (htold : (l.after (ts.flatMap InstallState.beats)).told = l.told) :
      Attends (l.after (ts.flatMap InstallState.beats)) r' states :=
    { sound := hl.sound.after hlawful
      install_eq := by rw [hserver]
      id_eq := by rw [hserver, h.frame]; exact hl.id_eq
      told_eq := htold.trans hl.told_eq }
  match ts, hone with
  | [], _ =>
    refine ⟨l, hattends rfl, rfl, fun ⟨beats, hwrites, hheard⟩ => ⟨beats, ?_, hheard⟩⟩
    rw [htransitions]
    exact hwrites
  | [s], _ =>
    rw [List.flatMap_singleton] at hattends hlawful
    obtain ⟨hnew, htold, hlistener⟩ := hl.sound.after_beats hlawful
    refine ⟨l.after s.beats, hattends htold, hlistener, ?_⟩
    rintro ⟨beats, hwrites, hattentive, hheard⟩
    refine ⟨s.beats ++ beats, ?_, ?_, ?_⟩
    · rw [htransitions, List.filter_append, Beat.filter_isWrite_beats, hwrites]
      rfl
    · -- the state is new to the listener, who had seen the one before it
      rw [hnew] at hattentive
      rw [hpending]
      exact Beat.attentive_beats_append.mpr hattentive
    · rw [Session.after_append]
      exact hheard

/-- Following is a session: the follower has looked at each state before the next one is set. -/
theorem followFrom_heard {follower : Follower} {steps rounds : Nat} {wanted : Option Nat}
    {watcher : Watcher} {states : List InstallState} {followed : Followed} {l : Session}
    (hr : r.Sound) (hl : Attends l r states) (hlistener : l.listener = .listening watcher)
    (hwanted : wanted = some 0 → l.pending = [])
    (h : r.followFrom follower.tell steps rounds wanted watcher states = some followed) :
    Heard l r followed := by
  induction rounds generalizing wanted watcher states r l with
  | zero => cases h
  | succ rounds ih =>
    rw [followFrom] at h
    split at h
    · -- the follower has heard enough
      rename_i hzero
      cases h
      refine ⟨[], ?_, ?_, hl.told_eq, ?_⟩
      · simp [transitionsSince_self]
      · simp [hwanted hzero, Beat.Attentive]
      · intro o ho
        cases ho
    · rename_i hmore
      rcases hnext : watcher.next r.server.install with ⟨state | _ | _, watcher'⟩ <;>
        rw [hnext] at h <;> dsimp only at h
      · cases hs : state.isSilent with
        | true =>
          rw [hs, if_pos rfl] at h
          refine endFollowing_heard hr hl ?_ h
          simp only [Session.look, hlistener, hl.install_eq, hnext, hs, if_true]
        | false =>
          rw [hs, if_neg (by simp)] at h
          have hlook : l.look =
              { l with listener := .listening watcher', told := l.told ++ [state] } := by
            simp [Session.look, hlistener, hl.install_eq, hnext, hs]
          have hattends : Attends l.look (r.inWorld (follower.tell state)) (state :: states) := by
            refine ⟨hl.sound.look, ?_, ?_, ?_⟩ <;> rw [hlook]
            · exact hl.install_eq
            · exact hl.id_eq
            · simp [hl.told_eq]
          obtain ⟨-, hpending⟩ := hl.sound.told_look
          obtain ⟨moves, hrun, -⟩ := followFrom_after h
          have hheard := ih (move_sound hr (.tell follower state)) hattends (by rw [hlook])
            (fun _ => hpending) h
          exact hheard.of_look hpending (move_onward r (.tell follower state)) rfl
            (hrun ▸ after_onward _ moves)
      · refine endFollowing_heard hr hl ?_ h
        simp only [Session.look, hlistener, hl.install_eq, hnext]
      · -- nothing is new yet, and provisioning goes on
        have hpending : l.pending = [] := by
          simp only [Session.pending, hlistener, hl.install_eq, hnext]
        obtain ⟨r₁, htransition, h⟩ := Option.bind_eq_some_iff.mp h
        obtain ⟨phases, rfl⟩ := toTransition_eq_some htransition
        obtain ⟨moves, hrun, -⟩ := followFrom_after h
        obtain ⟨l', hl', hlistener', hheard⟩ := hl.resume hr.toCoherent hpending
          (after_onward r (List.replicate phases .provision)) (toTransition_length htransition)
          (hrun ▸ after_onward _ moves)
        refine hheard (ih (after_sound hr _) hl' ?_ (fun hzero => absurd hzero hmore) h)
        rw [hlistener', hlistener, Watcher.eq_of_blocked hnext]

/-- A follower is told of the current state and of every later one, unless it is silent, and it ends
in the way of the final state. -/
theorem follow_told {follower : Follower} {bound : Nat} {wanted : Option Nat} {followed : Followed}
    (hr : r.Sound) (hwanted : wanted ≠ some 0)
    (h : r.follow follower.tell bound wanted = some followed) :
    followed.states = (r.server.state :: r.world.transitionsSince followed.run.world).filter
        (!·.isSilent) ∧
      ∀ o, followed.finish = .ended o → followed.run.server.state.isFinal = true ∧
        Session.EndsWith ⟨followed.run.server, .ended o, followed.states⟩ o := by
  have hopened := hr.opened
  obtain ⟨moves, hrun, -⟩ := followFrom_after h
  have honward : Onward (fun _ => True) r followed.run := hrun ▸ after_onward r moves
  obtain ⟨hlawful, hfold⟩ := honward.writes hr.toCoherent
  obtain ⟨beats, hwrites, hattentive, htold, hended⟩ := followFrom_heard hr
    (l := .opened r.server) ⟨hopened, rfl, rfl, rfl⟩ rfl (fun hzero => absurd hzero hwanted) h
  rw [← hwrites] at hlawful hfold
  have hlawful' : Beat.Lawful r.server.install beats := hlawful.of_writes
  have hpending : (Session.opened r.server).pending = [r.server.state] :=
    Session.pending_of_start rfl
  obtain ⟨new, hnew, -, hall⟩ := hopened.told_after hlawful'
  have hstates : beats.filterMap Beat.state? = r.world.transitionsSince followed.run.world := by
    rw [← Beat.filterMap_state?_filter, hwrites, Beat.filterMap_state?_flatMap]
  have hstate :
      ((Session.opened r.server).after beats).server.state = followed.run.server.state := by
    rw [Session.server_after, Server.state, ← Session.foldl_write_filter]
    exact congrArg ValueStream.value hfold
  refine ⟨?_, fun o ho => ?_⟩
  · rw [hpending] at hattentive
    rw [← htold, hnew, hall true hattentive (by simp), hpending, hstates]
    rfl
  · obtain ⟨hfinal, hends⟩ := (hopened.after hlawful').endsWith (hended o ho)
    rw [hstate] at hfinal
    exact ⟨hfinal, hends.congr hstate.symm htold.symm⟩

end Run

/-! ## §3 What is told of a server -/

namespace Launch

/-- Whenever in the course of a server somebody begins to listen, and whenever it looks. -/
theorem progress_is_told (l : Launch) (moves moves' : List Move) (beats : List Beat)
    (h : beats.filter Beat.isWrite <+:
      ((l.start.after moves).world.transitionsSince
        ((l.start.after moves).after moves').world).flatMap InstallState.beats) :
    let r := l.start.after moves
    let writes := (r.world.transitionsSince (r.after moves').world).flatMap InstallState.beats
    let session := (Session.opened r.server).after beats
    -- the stream of the server is written in this way
    (writes.foldl Beat.write r.server.install = (r.after moves').server.install ∧
      session.server.install = (beats.filter Beat.isWrite).foldl Beat.write r.server.install) ∧
    -- the listener is told of increasing states and never of a silent one
    (session.told.Pairwise (· < ·) ∧ ∀ x ∈ session.told.map InstallState.fraction, x ≠ 0.0) ∧
    -- the first of them is the current one at its first look, and the others are set later
    (.look ∉ beats → session.told = []) ∧
    (∀ quiet rest, beats = quiet ++ .look :: rest → .look ∉ quiet →
      let first := ((Session.opened r.server).after quiet).server.state
      let states := rest.filterMap Beat.state?
      if first.isSilent then session.told = []
      else ∃ later, session.told = first :: later ∧ later.Sublist states ∧
        (Beat.Attentive false rest → later = states.filter (!·.isSilent))) ∧
    -- it ends with the installation, after three looks at the latest
    (session.server.state.isFinal = false → ∃ watcher, session.listener = .listening watcher) ∧
    (∀ o, session.listener = .ended o → session.EndsWith o) ∧
    (session.server.install.closed = true → ∀ n,
      ∃ o, (session.after (List.replicate (n + 3) .look)).listener = .ended o ∧
        (session.after (List.replicate (n + 3) .look)).EndsWith o) ∧
    -- and a follower, for whom provisioning waits, misses nothing
    ∀ (follower : Follower) bound wanted followed,
      r.follow follower.tell bound wanted = some followed → wanted ≠ some 0 →
      followed.states = (r.server.state :: r.world.transitionsSince followed.run.world).filter
          (!·.isSilent) ∧
        ∀ o, followed.finish = .ended o → followed.run.server.state.isFinal = true ∧
          Session.EndsWith ⟨followed.run.server, .ended o, followed.states⟩ o := by
  intro r writes session
  have hr : r.Sound := after_sound l.start_sound moves
  obtain ⟨-, hfold⟩ := (after_onward r moves').writes hr.toCoherent
  obtain ⟨hlawful, hsession⟩ := (after_onward r moves').session hr h
  refine ⟨⟨hfold, ?_⟩, ⟨hsession.increasing, ?_⟩, ?_, ?_, hsession.isListening, ?_, ?_, ?_⟩
  · rw [Session.server_after, Session.foldl_write_filter]
    rfl
  · intro x hx
    obtain ⟨s, hs, rfl⟩ := List.mem_map.mp hx
    exact Session.fraction_ne_zero (hsession.audible s hs)
  · exact fun hnever => (Session.after_of_look_not_mem hnever).2
  · rintro quiet rest rfl hquiet first states
    obtain ⟨hlistener, htold⟩ := Session.after_of_look_not_mem (l := .opened r.server) hquiet
    obtain ⟨hfirst, hrest⟩ := hr.opened.after_append hlawful
    have htold' := hfirst.told_after_first hrest htold (Session.pending_of_start hlistener)
    rwa [← Session.after_append] at htold'
  · exact fun o ho => (hsession.endsWith ho).2
  · exact fun hclosed n => hsession.exists_ended_of_closed hclosed n
  · intro follower bound wanted followed hfollow hwanted
    exact follow_told hr hwanted hfollow

theorem progress_is_told_until_failure :
    let l := against []
    let beats : List Beat := [.look, .set .failed, .look, .close, .look]
    let session := Session.after (.opened l.start.server) beats
    beats.filter Beat.isWrite <+:
        (l.start.world.transitionsSince (l.start.after [.propose .failed]).world).flatMap
          InstallState.beats ∧
      session.told = [.unknown] ∧
      session.EndsWith (.error (.setback (.installation l.id))) := by
  intro l beats session
  have hwrites : beats.filter Beat.isWrite <+:
      (l.start.world.transitionsSince (l.start.after [.propose .failed]).world).flatMap
        InstallState.beats := by
    decide +kernel
  obtain ⟨-, -, -, hfirst, -, hends, -⟩ :=
    progress_is_told l [] [.propose .failed] beats hwrites
  refine ⟨hwrites, ?_, hends _ rfl⟩
  -- the failed state is set only after the first look, and it is silent
  obtain ⟨later, htold, -, hlater⟩ := hfirst [] _ rfl nofun
  rw [hlater ⟨rfl, rfl⟩] at htold
  exact htold

end Launch

end Fleet
