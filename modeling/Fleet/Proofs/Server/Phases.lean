import Fleet.Proofs.Server.Removal
import Fleet.Proofs.Server.Stages

/-!
# One phase of provisioning

A phase is taken apart once: `Run.Steps` lists everything that it can do with a run.  What a phase
keeps and which events it brings about is read off that list, and nothing later looks into the
stages again.

## Main definitions

- `Run.Sound`: the phase, the readiness and the stream of a run belong together
- `Run.Steps`: what one phase does with a run
- `Run.Brings`: the events that may happen next as long as nobody removes the resources

## Main statements

- `Run.step_steps`: nothing else happens in a phase
- `Run.step_sound`, `Run.step_onward`: a phase keeps a run sound and brings no other events
- `Run.step_delivered`: a phase goes by way of the delivery of the response to its request
-/

namespace Fleet

open Run World

/-! ## §1 Sound runs -/

/-- The setup is settled exactly if its phases are over, provisioning ends only with the
installation, and it ends at once if the setup has failed. -/
structure Run.Sound (r : Run) : Prop extends r.Coherent where
  settled_eq : r.server.readiness.isSettled = !r.server.phase.isSetup
  closed_of_finished : r.server.isFinished = true → r.server.install.closed = true
  finished_of_failed : ∀ f, r.server.readiness = .failed f → r.server.isFinished = true

theorem Server.isFinished_of_isSetup {s : Server} (h : s.phase.isSetup = true) :
    s.isFinished = false := by
  unfold Phase.isSetup at h
  unfold isFinished
  split at h <;> simp_all

theorem Server.isSetup_of_isFinished {s : Server} (h : s.isFinished = true) :
    s.phase.isSetup = false := by
  cases hp : s.phase.isSetup with
  | false => rfl
  | true =>
    rw [isFinished_of_isSetup hp] at h
    cases h

namespace Run.Sound

variable {r : Run}

theorem isSettled_eq_true (hr : r.Sound) (h : r.server.phase.isSetup = false) :
    r.server.readiness.isSettled = true := by
  rw [hr.settled_eq, h]
  rfl

theorem isSettled_eq_false (hr : r.Sound) (h : r.server.phase.isSetup = true) :
    r.server.readiness.isSettled = false := by
  rw [hr.settled_eq, h]
  rfl

theorem isSetup_eq_false (hr : r.Sound) (h : r.server.readiness.isSettled = true) :
    r.server.phase.isSetup = false := by
  have hsettled := hr.settled_eq
  rw [h] at hsettled
  simpa using hsettled.symm

/-- What happens in the world leaves the server as it is. -/
theorem of_world (hr : r.Sound) (w : World) : ({ r with world := w } : Run).Sound :=
  ⟨⟨hr.closed_eq, hr.completed_of_endpoint⟩, hr.settled_eq, hr.closed_of_finished,
    hr.finished_of_failed⟩

/-- During the setup nothing else has to be shown. -/
theorem of_isSetup (hr : r.Coherent) (hphase : r.server.phase.isSetup = true)
    (hs : r.server.readiness.isSettled = false) : r.Sound where
  toCoherent := hr
  settled_eq := by rw [hs, hphase]; rfl
  closed_of_finished hfin := by
    rw [Server.isFinished_of_isSetup hphase] at hfin
    cases hfin
  finished_of_failed f hf := by
    rw [hf] at hs
    cases hs

end Run.Sound

/-- Changes do not touch the phase and the readiness, and an ended installation stays so. -/
theorem Run.Evolves.sound {P : Event → Prop} {r m : Run} (h : Evolves P r m) (hr : r.Sound) :
    m.Sound where
  toCoherent := h.onward.coherent hr.toCoherent
  settled_eq := by
    rw [h.frame]
    exact hr.settled_eq
  closed_of_finished hfin := by
    -- the phase is the one before, and a closed stream stays closed
    rw [h.frame] at hfin
    rw [(h.onward.closed (hr.closed_of_finished hfin)).1]
    exact hr.closed_of_finished hfin
  finished_of_failed f hf := by
    rw [h.frame] at hf ⊢
    exact hr.finished_of_failed f hf

/-! ## §2 What a phase does -/

/-- Everything that one phase of provisioning can do with a run. -/
inductive Run.Steps (r : Run) : Run → Prop
  /-- a stage of the setup leads to the next one -/
  | advanced {stage : Stage Phase} {m : Run} {next : Phase}
      (hstage : r.server.phase.setup? = some stage) (hout : stage.outcome r = (.ok next, m))
      (hm : r.Conveys r.request? m) (hnext : next.isSetup = true) : Steps r (m.goTo next)
  /-- a stage of the setup fails -/
  | abandoned {stage : Stage Phase} {m : Run} {f : Failure}
      (hstage : r.server.phase.setup? = some stage) (hout : stage.outcome r = (.error f, m))
      (hm : r.Conveys r.request? m) : Steps r (m.abandon f)
  /-- the setup is settled -/
  | settled (hphase : r.server.phase = .settling) : Steps r r.settle
  /-- a poll, a look at the deadline, or the end of both -/
  | polled {m : Run} {next : Phase} (hphase : r.server.phase.isSetup = false)
      (hgoing : r.server.isFinished = false) (hm : r.Conveys r.request? m)
      (hnext : next.isSetup = false)
      (hend : r.Coherent → next = .finished → m.server.install.closed = true) :
      Steps r (m.goTo next)
  /-- the wait between two polls -/
  | waited {deadline : Option Float} (hphase : r.server.phase = .pausing deadline)
      (hopen : r.server.install.closed = false) :
      Steps r ((r.inWorld (·.wait r.server.pollInterval)).goTo (.polling deadline))
  /-- nothing is left to do -/
  | rested (hphase : r.server.phase = .finished) : Steps r r

theorem Run.setUp_steps {r : Run} {stage : Stage Phase} (h : r.server.phase.setup? = some stage) :
    Steps r (r.setUp stage) := by
  have hm := Phase.setup?_conveys h
  unfold setUp
  rcases hout : stage.outcome r with ⟨f | next, m⟩ <;> rw [hout] at hm
  · exact .abandoned h hout hm
  · have hnext : next.isSetup = true := Phase.setup?_returns h r next (congrArg Prod.fst hout)
    exact .advanced h hout hm hnext

/-- A failure of polling is logged and proposed as a state; either way the installation has
ended. -/
private theorem evolves_fail (r : Run) (message : String) :
    Evolves (Event.Serves none) r ((r.log .error message).proceed .failed) ∧
      (r.Coherent → ((r.log .error message).proceed .failed).server.install.closed = true) := by
  have hlog : Evolves (Event.Serves none) r (r.log .error message) :=
    evolves_log (fun _ _ => trivial) r .error message
  refine ⟨hlog.trans (evolves_proceed _ .failed), fun hr => ?_⟩
  exact closed_enter_of_isFinal (hlog.onward.coherent hr) rfl none

theorem Run.pollOnce_steps {r : Run} {deadline : Option Float}
    (h : r.server.phase = .polling deadline) : Steps r (r.pollOnce deadline) := by
  have hphase : r.server.phase.isSetup = false := by rw [h]; rfl
  have hgoing : r.server.isFinished = false := by simp [Server.isFinished, h]
  unfold pollOnce
  split
  · -- the installation has ended meanwhile, so nothing is asked for
    rename_i hclosed
    have hq : r.request? = none := by simp [request?, h, hclosed]
    have hm : r.Conveys r.request? r := by
      rw [hq]
      exact Evolves.refl r
    exact .polled hphase hgoing hm rfl fun _ _ => hclosed
  · rename_i hopen
    have hq : r.request? = some r.server.attributesRequest := by simp [request?, h, hopen]
    have hpoll : r.Conveys r.request? (poll.outcome r).2 := by
      rw [hq]
      exact poll_conveys r
    rcases hout : poll.outcome r with ⟨f | ended, m⟩ <;> rw [hout] at hpoll
    · -- a failed poll proposes the failed state before provisioning ends
      obtain ⟨hfail, hclosed⟩ := evolves_fail m
        s!"Polling install state of server {m.server.id} failed: {f.message}"
      refine .polled hphase hgoing (hpoll.trans hfail) rfl fun hr _ => ?_
      exact hclosed (hpoll.evolves.onward.coherent hr)
    · cases ended with
      | false =>
        refine .polled hphase hgoing hpoll rfl fun _ hend => ?_
        cases hend
      | true =>
        -- the snapshot that was fetched has ended the installation
        refine .polled hphase hgoing hpoll rfl fun hr _ => ?_
        rw [poll_outcome] at hout
        have hfetch := (fetchSnapshot_receives r).conveys.evolves
        rcases hf : fetchSnapshot.outcome r with ⟨f | attributes, n⟩ <;> rw [hf] at hout hfetch
        · cases hout
        · exact applySnapshot_closed (hfetch.onward.coherent hr) hout

theorem Run.pause_steps {r : Run} {deadline : Option Float}
    (h : r.server.phase = .pausing deadline) : Steps r (r.pause deadline) := by
  have hphase : r.server.phase.isSetup = false := by rw [h]; rfl
  have hgoing : r.server.isFinished = false := by simp [Server.isFinished, h]
  have hq : r.request? = none := by simp [request?, h]
  unfold pause
  dsimp only
  split
  · -- the deadline has passed, which is a failure of polling
    refine .polled hphase hgoing ?_ rfl fun hr _ => (evolves_fail r _).2 hr
    rw [hq]
    exact (evolves_fail r _).1
  · split
    · rename_i hclosed
      have hm : r.Conveys r.request? r := by
        rw [hq]
        exact Evolves.refl r
      exact .polled hphase hgoing hm rfl fun _ _ => hclosed
    · -- only now there is something to wait for
      rename_i hopen
      exact .waited h (by simpa using hopen)

/-- One phase of provisioning does nothing else. -/
theorem Run.step_steps (r : Run) : Steps r r.step := by
  unfold step
  cases hp : r.server.phase with
  | settling => exact .settled hp
  | polling deadline => exact pollOnce_steps hp
  | pausing deadline => exact pause_steps hp
  | finished => exact .rested hp
  | _ => exact setUp_steps (by rw [hp]; rfl)

/-! ## §3 What a phase keeps -/

namespace Run

variable {r r' : Run}

/-- Giving the setup up is a change of the run, after which the setup is settled. -/
theorem abandon_eq (m : Run) (f : Failure) : ∃ n, Evolves (Event.Serves none) m n ∧
    (m.Coherent → n.server.install.closed = true) ∧
    m.abandon f =
      { n with server := { n.server with readiness := .failed f, phase := .finished } } := by
  obtain ⟨hfail, hclosed⟩ := evolves_fail m
    s!"Setup of server {m.server.id} failed: {f.message}"
  exact ⟨_, hfail, hclosed, rfl⟩

theorem Steps.sound (h : Steps r r') (hr : r.Sound) : r'.Sound := by
  cases h with
  | @advanced stage m next hstage hout hm hnext =>
    have hsound : m.Sound := hm.evolves.sound hr
    -- a stage does not settle the setup itself
    have hpending : m.server.readiness.isSettled = false := by
      apply hsound.isSettled_eq_false
      rw [hm.evolves.frame]
      exact Phase.isSetup_of_setup? hstage
    exact .of_isSetup (hsound.toCoherent.settle _ next) hnext hpending
  | @abandoned stage m f hstage hout hm =>
    obtain ⟨n, hn, hclosed, heq⟩ := abandon_eq m f
    have hsound : m.Sound := hm.evolves.sound hr
    have hcoherent : n.Coherent := hn.onward.coherent hsound.toCoherent
    rw [heq]
    refine ⟨hcoherent.settle _ _, rfl, ?_, ?_⟩
    · intro _
      exact hclosed hsound.toCoherent
    · intro _ _
      rfl
  | settled hphase =>
    -- provisioning is finished at once exactly if the installation has ended
    refine ⟨hr.toCoherent.settle _ _, ?_, ?_, ?_⟩
    · cases hc : r.server.install.closed <;> simp [settle, hc, Readiness.isSettled, Phase.isSetup]
    · intro hfin
      cases hc : r.server.install.closed with
      | true => simp [settle, hc]
      | false => simp [settle, hc, Server.isFinished] at hfin
    · intro f hf
      cases hf
  | @polled m next hphase hgoing hm hnext hend =>
    have hsound : m.Sound := hm.evolves.sound hr
    have hsettled : m.server.readiness.isSettled = true := by
      rw [hm.evolves.readiness_eq]
      exact hr.isSettled_eq_true hphase
    refine ⟨hsound.toCoherent.settle _ next, ?_, ?_, ?_⟩
    · simp [goTo, hsettled, hnext]
    · intro hfin
      apply hend hr.toCoherent
      cases next <;> first | rfl | cases hfin
    · -- after a failed setup there are no polls
      intro f hf
      have hfailed : r.server.readiness = .failed f := hm.evolves.readiness_eq.symm.trans hf
      rw [hr.finished_of_failed f hfailed] at hgoing
      cases hgoing
  | @waited deadline hphase hopen =>
    have hsettled : r.server.readiness.isSettled = true :=
      hr.isSettled_eq_true (by rw [hphase]; rfl)
    refine ⟨⟨hr.closed_eq, hr.completed_of_endpoint⟩, ?_, ?_, ?_⟩
    · simpa [goTo, inWorld, Phase.isSetup] using hsettled
    · intro hfin
      cases hfin
    · intro f hf
      have hfinished := hr.finished_of_failed f hf
      rw [Server.isFinished, hphase] at hfinished
      cases hfinished
  | rested => exact hr

/-- One phase keeps a run sound. -/
theorem step_sound (hr : r.Sound) : r.step.Sound :=
  (step_steps r).sound hr

end Run

/-! ## §4 What a phase brings about -/

/-- The events that may happen next as long as nobody removes the resources: a phase sends its
request, and it waits only while the installation goes on. -/
def Run.Brings (r : Run) : Event → Prop
  | .requested sent => r.request? = some sent.request
  | .waited _ => r.server.install.closed = false
  | .slept _ => False
  | .entered _ | .reported _ | .logged .. => True

theorem Run.brings_of_serves {r : Run} {e : Event} (h : e.Serves r.request? ∨ e.Announces) :
    r.Brings e := by
  cases e with
  | requested sent =>
    rcases h with hserves | hannounces
    · exact hserves
    · exact hannounces.elim
  | waited | slept => exact (h.elim id id).elim
  | _ => trivial

namespace Run

variable {r r' m : Run} {q : Option Request}

theorem Conveys.onward (h : Conveys r.request? r m) : Onward r.Brings r m :=
  h.evolves.onward.mono fun _ => brings_of_serves

/-- Changes without requests may happen at any time. -/
theorem Evolves.onward_brings (h : Evolves (Event.Serves none) m r') : Onward r.Brings m r' :=
  h.onward.mono fun _ he => brings_of_serves (he.imp_left Event.Serves.weaken)

theorem Steps.onward (h : Steps r r') : Onward r.Brings r r' := by
  cases h with
  | advanced _ _ hm => exact hm.onward.goTo _
  | @abandoned stage m f hstage hout hm =>
    obtain ⟨n, hn, -, heq⟩ := abandon_eq m f
    rw [heq]
    exact (hm.onward.trans hn.onward_brings).settle _ _
  | settled => exact (Onward.refl r).settle _ _
  | polled _ _ hm => exact hm.onward.goTo _
  | waited hphase hopen =>
    -- the wait itself is the only event
    have hwaited : Onward r.Brings r (r.inWorld (·.wait r.server.pollInterval)) := by
      refine onward_world ⟨[.waited r.server.pollInterval], rfl, ?_⟩
      simpa [Event.state?, Brings] using hopen
    exact hwaited.goTo _
  | rested => exact .refl r

/-- One phase brings no other events. -/
theorem step_onward (r : Run) : Onward r.Brings r r.step :=
  (step_steps r).onward

/-- A phase with a request goes by way of the delivery of the response: before it at most a log
line is written, and after it nothing is requested. -/
theorem Steps.delivered (h : Steps r r') {request : Request} (hq : r.request? = some request) :
    ∃ n, (n = r ∨ ∃ level message, n = r.log level message) ∧
      Onward (fun e => e.Serves none ∨ e.Announces) (n.delivered request) r' := by
  cases h with
  | advanced _ _ hm | polled _ _ hm =>
    rw [hq] at hm
    obtain ⟨n, hn, hrest⟩ := hm
    exact ⟨n, hn, hrest.onward.goTo _⟩
  | @abandoned stage m f hstage hout hm =>
    rw [hq] at hm
    obtain ⟨n, hn, hrest⟩ := hm
    obtain ⟨n', hn', -, heq⟩ := abandon_eq m f
    rw [heq]
    exact ⟨n, hn, (hrest.onward.trans hn'.onward).settle _ _⟩
  | settled hphase | waited hphase | rested hphase =>
    -- these phases make no request
    simp [request?, hphase] at hq

theorem step_delivered {request : Request} (hq : r.request? = some request) :
    ∃ n, (n = r ∨ ∃ level message, n = r.log level message) ∧
      Onward (fun e => e.Serves none ∨ e.Announces) (n.delivered request) r.step :=
  (step_steps r).delivered hq

end Run

end Fleet
