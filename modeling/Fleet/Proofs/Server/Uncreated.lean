import Fleet.Proofs.Server.Setup

/-!
# Servers whose instance was not created

A server may be made before its instance is known to exist.  If the creation has failed,
provisioning does not get beyond its first phase, which fails the setup with the failure of the
creation.

## Main definitions

- `Move.IsUse`: what the user of a server does to it

## Main statements

- `Run.amid_of_uncreated`: what becomes of such a server, whatever is done to it
-/

namespace Fleet

open Run World

/-! ## §1 Uses -/

/-- The user of a server follows it, calls it off or has it torn down. -/
def Move.IsUse : Move → Prop
  | .tell .. | .tearDown => True
  | .propose next => next = .canceled
  | _ => False

theorem Move.IsUse.ne_provision {m : Move} (h : m.IsUse) : m ≠ .provision := by
  rintro rfl
  exact h

namespace Run

variable {r : Run} {moves : List (World × Move)} {f : Failure}

/-- An installation that has ended stays as it is. -/
theorem state_amid_of_closed (h : r.server.install.closed = true) (moves : List (World × Move)) :
    (r.amid moves).server.state = r.server.state :=
  congrArg ValueStream.value ((amid_onward r moves).closed h).1

/-- Being followed or torn down leaves a server as it is. -/
theorem server_move_of_isUse {m : Move} (h : m.IsUse) (hcancel : m ≠ .propose .canceled) :
    (r.move m).server = r.server := by
  cases m with
  | tell => rfl
  | propose next => exact absurd (congrArg Move.propose h) hcancel
  | tearDown =>
    simp only [move]
    split
    · obtain ⟨w, -, -, -, heq⟩ := r.tearDown_eq
      rw [heq]
    · rfl
  | _ => exact h.elim

/-- By its uses an installation that goes on is canceled if it is called off, and else it stays
where it is. -/
theorem state_amid_of_uses (hr : r.Sound) (hgoing : r.server.state.isFinal = false)
    (h : ∀ m ∈ moves, m.2.IsUse) :
    ((∃ u, (u, .propose .canceled) ∈ moves) ∧ (r.amid moves).server.state = .canceled) ∨
      (∀ u, (u, .propose .canceled) ∉ moves) ∧
        (r.amid moves).server.state = r.server.state := by
  induction moves generalizing r with
  | nil => exact Or.inr ⟨fun _ => List.not_mem_nil, rfl⟩
  | cons move moves ih =>
    obtain ⟨u, m⟩ := move
    obtain ⟨hm, hmoves⟩ := List.forall_mem_cons.mp h
    let p := r.within u
    have hp : p.Sound := within_sound hr u
    by_cases hcancel : m = .propose .canceled
    · subst hcancel
      obtain ⟨hstate, hclosed, -⟩ := cancel_of_open hp.toCoherent hgoing
      exact Or.inl ⟨⟨u, List.mem_cons_self⟩, (state_amid_of_closed hclosed moves).trans hstate⟩
    · have hserver : (p.move m).server = r.server := server_move_of_isUse hm hcancel
      have hstate : (p.move m).server.state = r.server.state := by rw [hserver]
      rcases ih (move_sound hp m) (hstate ▸ hgoing) hmoves with ⟨⟨u', hu'⟩, hend⟩ | ⟨hnone, hend⟩
      · exact Or.inl ⟨⟨u', List.mem_cons_of_mem _ hu'⟩, hend⟩
      · refine Or.inr ⟨fun u' hu' => ?_, hend.trans hstate⟩
        rcases List.mem_cons.mp hu' with heq | hu'
        · exact hcancel (Prod.mk.inj heq).2.symm
        · exact hnone u' hu'

/-! ## §2 The failure of the creation -/

/-- The first phase of provisioning fails with the creation of the instance. -/
theorem setupFailure?_of_uncreated (hphase : r.server.phase = .awaitingInstance)
    (hcreation : r.server.creation = .error f) : r.setupFailure? = some (f, r) := by
  simp only [setupFailure?, hphase, Phase.setup?, awaitInstance_outcome, hcreation]

/-- What becomes of a server whose instance was not created: provisioning ends with its first
phase.  The installation has failed then, or it is canceled if it was called off before. -/
theorem amid_of_uncreated (hr : r.Sound) (hphase : r.server.phase = .awaitingInstance)
    (hgoing : r.server.state.isFinal = false) (hcreation : r.server.creation = .error f)
    {before : List (World × Move)} (hbefore : ∀ m ∈ before, m.2.IsUse) (u : World)
    (later : List (World × Move)) :
    let m := r.amid (before ++ (u, .provision) :: later)
    m.server.isFinished = true ∧ m.server.readiness = .failed f ∧
      ((∃ u', (u', .propose .canceled) ∈ before) ∧ m.server.state = .canceled ∨
        (∀ u', (u', .propose .canceled) ∉ before) ∧ m.server.state = .failed) := by
  intro m
  let p := (r.amid before).within u
  have hp : p.Sound := within_sound (amid_sound hr before) u
  have hfailure : p.setupFailure? = some (f, p) := by
    apply setupFailure?_of_uncreated
    · exact (phase_amid (fun m hm => (hbefore m hm).ne_provision) r).trans hphase
    · exact (amid_onward r before).answers_eq.1.trans hcreation
  have hstep : p.step = p.abandon f := step_of_setupFailure? hfailure
  have hsound : p.step.Sound := step_sound hp
  have hreadiness : p.step.server.readiness = .failed f := by
    rw [hstep]
    rfl
  have hclosed : p.step.server.install.closed = true := by
    apply hsound.closed_of_finished
    exact hsound.finished_of_failed f hreadiness
  -- after the first phase nothing changes any more
  have hm : m = p.step.amid later := amid_append r before _
  have hstays : m.server.readiness = .failed f := by
    rw [hm, readiness_amid_of_settled hsound (by rw [hreadiness]; rfl), hreadiness]
  have hstate : m.server.state = if p.server.state.isFinal then p.server.state else .failed := by
    rw [hm, state_amid_of_closed hclosed, hstep, state_abandon hp.toCoherent]
  refine ⟨(hm ▸ amid_sound hsound later : m.Sound).finished_of_failed f hstays, hstays, ?_⟩
  rcases state_amid_of_uses hr hgoing hbefore with ⟨hcancel, hend⟩ | ⟨hnone, hend⟩
  all_goals rw [show p.server.state = _ from hend] at hstate
  · exact Or.inl ⟨hcancel, hstate⟩
  · rw [hgoing] at hstate
    exact Or.inr ⟨hnone, hstate⟩

end Run

end Fleet
