import Fleet.Proofs.Server.Course

/-!
# The operations of a server

Whoever works with a server does so by a few operations.  Each of them is a sequence of moves, and
only deleting the server contains a teardown.  An operation that waits for provisioning comes back
only if provisioning gets far enough within a number of phases.

## Main definitions

- `Act`, `Act.Makes`: the operations of a server, and the moves that they are made of
- `Run.perform`: the run after some operations

## Main statements

- `Run.act_makes`: an operation is made of its moves
- `Run.perform_makes`: a sequence of operations is a course of their moves
- `Run.delete_eq_some`: deleting calls the installation off, lets the setup settle, and then removes
  the resources
-/

namespace Fleet

open Run World

/-- The operations of a server. -/
inductive Act where
  /-- provisioning goes on by one phase -/
  | provision
  /-- provisioning goes on to the next accepted state -/
  | resume (steps : Nat)
  /-- provisioning goes on to its end -/
  | finish (steps : Nat)
  /-- somebody follows the installation, for at most `wanted` states -/
  | follow (follower : Follower) (bound : Nat) (wanted : Option Nat)
  /-- somebody deletes the server -/
  | delete (steps : Nat)
  /-- somebody only calls the installation off -/
  | cancel
  /-- somebody proposes a state -/
  | propose (next : InstallState)
  /-- somebody enters a snapshot -/
  | apply (snapshot : Json)

/-- Provisioning goes on, or a follower is told of a state. -/
def Move.IsProgress : Move → Prop
  | .provision | .tell .. => True
  | _ => False

/-- The moves that an operation is made of. Every operation may let provisioning go on. -/
def Act.Makes (a : Act) (m : Move) : Prop :=
  m.IsProgress ∨ match a, m with
    | .delete _, .tearDown => True
    | .delete _, .propose next | .cancel, .propose next => next = .canceled
    | .propose state, .propose next => next = state
    | .apply snapshot, .apply snapshot' => snapshot' = snapshot
    | _, _ => False

/-- Only deleting the server contains a teardown. -/
theorem Act.Makes.ne_tearDown {a : Act} {m : Move} (h : a.Makes m)
    (ha : ∀ steps, a ≠ .delete steps) : m ≠ .tearDown := by
  rintro rfl
  rcases h with h | h
  · exact h
  · cases a with
    | delete steps => exact ha steps rfl
    | _ => exact h

/-- A state other than the canceled one is proposed only by name. -/
theorem Act.Makes.eq_propose {a : Act} {next : InstallState} (h : a.Makes (.propose next))
    (hnext : next ≠ .canceled) : a = .propose next := by
  rcases h with h | h
  · exact h.elim
  · cases a with
    | propose state => rw [show next = state from h]
    | delete | cancel => exact absurd h hnext
    | _ => exact h.elim

namespace Run

/-- The run after an operation, if it comes back. -/
def act (r : Run) : Act → Option Run
  | .provision => some r.step
  | .resume steps => r.toTransition steps
  | .finish steps => r.toEnd steps
  | .follow follower bound wanted => (r.follow follower.tell bound wanted).map (·.run)
  | .delete steps => (r.delete steps).map (·.2)
  | .cancel => some r.cancel
  | .propose next => some (r.proceed next)
  | .apply snapshot => some ((applySnapshot snapshot).outcome r).2

/-- The run after some operations, one after the other, if all of them come back. -/
def perform (r : Run) (acts : List Act) : Option Run :=
  acts.foldlM act r

theorem perform_cons (r : Run) (a : Act) (acts : List Act) :
    r.perform (a :: acts) = (r.act a).bind (·.perform acts) := rfl

/-- The run after so many phases of provisioning. -/
def provisioned (r : Run) (phases : Nat) : Run :=
  r.after (List.replicate phases .provision)

/-- Provisioning to its end is a number of phases. -/
theorem toEnd_eq_some {steps : Nat} {r r' : Run} (h : r.toEnd steps = some r') :
    ∃ phases, r' = r.provisioned phases ∧ r'.server.isFinished = true := by
  induction steps generalizing r with
  | zero =>
    simp only [toEnd, Option.ite_none_right_eq_some, Option.some.injEq] at h
    obtain ⟨hfin, rfl⟩ := h
    exact ⟨0, rfl, hfin⟩
  | succ steps ih =>
    rw [toEnd] at h
    split at h
    · rename_i hfin
      cases h
      exact ⟨0, rfl, hfin⟩
    · obtain ⟨phases, hr', hfin⟩ := ih h
      exact ⟨phases + 1, hr', hfin⟩

/-- Provisioning comes to its end within the given steps exactly if that few phases do. -/
theorem toEnd_isSome_iff {steps : Nat} {r : Run} :
    (r.toEnd steps).isSome = true ↔
      ∃ phases ≤ steps, (r.provisioned phases).server.isFinished = true := by
  -- steps are counted from the first phase on, and the end is looked for before each of them
  induction steps generalizing r with
  | zero =>
    simp only [toEnd]
    constructor
    · intro h
      split at h
      · rename_i hfin
        exact ⟨0, Nat.le_refl 0, hfin⟩
      · cases h
    · rintro ⟨phases, hle, hfin⟩
      obtain rfl : phases = 0 := Nat.le_zero.mp hle
      rw [if_pos (show r.server.isFinished = true from hfin)]
      rfl
  | succ steps ih =>
    rw [toEnd]
    split
    · rename_i hfin
      exact ⟨fun _ => ⟨0, Nat.zero_le _, hfin⟩, fun _ => rfl⟩
    · rename_i hgoing
      rw [ih]
      constructor
      · rintro ⟨phases, hle, hfin⟩
        exact ⟨phases + 1, Nat.succ_le_succ hle, hfin⟩
      · rintro ⟨phases, hle, hfin⟩
        cases phases with
        | zero => exact absurd hfin hgoing
        | succ phases => exact ⟨phases, Nat.le_of_succ_le_succ hle, hfin⟩

/-- Provisioning to the next accepted state is a number of phases. -/
theorem toTransition_eq_some {steps : Nat} {r r' : Run} (h : r.toTransition steps = some r') :
    ∃ phases, r' = r.provisioned phases := by
  induction steps generalizing r with
  | zero =>
    simp only [toTransition, Option.ite_none_right_eq_some, Option.some.injEq] at h
    obtain ⟨-, rfl⟩ := h
    exact ⟨0, rfl⟩
  | succ steps ih =>
    rw [toTransition] at h
    split at h
    · cases h
      exact ⟨0, rfl⟩
    · -- a phase without a new state is followed by the next one
      dsimp only at h
      split at h
      · obtain ⟨phases, hr'⟩ := ih h
        exact ⟨phases + 1, hr'⟩
      · cases h
        exact ⟨1, rfl⟩

/-- Moves among which there is no teardown. -/
def Sparing (moves : List Move) : Prop :=
  ∀ m ∈ moves, m ≠ .tearDown

theorem sparing_replicate (phases : Nat) : Sparing (List.replicate phases .provision) := by
  intro m hm
  rw [List.eq_of_mem_replicate hm]
  exact nofun

theorem isProgress_of_mem_replicate {phases : Nat} {m : Move}
    (h : m ∈ List.replicate phases .provision) : m.IsProgress := by
  rw [List.eq_of_mem_replicate h]
  trivial

/-- The end of following is provisioning to its end. -/
theorem endFollowing_after {steps : Nat} {states : List InstallState} {r : Run}
    {followed : Followed} (h : r.endFollowing steps states = some followed) :
    ∃ phases, followed.run = r.provisioned phases := by
  obtain ⟨r', hend, rfl⟩ := Option.map_eq_some_iff.mp h
  obtain ⟨phases, hr', -⟩ := toEnd_eq_some hend
  exact ⟨phases, hr'⟩

/-- Following is made of phases and of telling the follower of states. -/
theorem followFrom_after {follower : Follower} {steps rounds : Nat} {wanted : Option Nat}
    {watcher : Watcher} {states : List InstallState} {r : Run} {followed : Followed}
    (h : r.followFrom follower.tell steps rounds wanted watcher states = some followed) :
    ∃ moves, followed.run = r.after moves ∧ ∀ m ∈ moves, m.IsProgress := by
  -- whichever way following ends here, provisioning goes on to its own end
  have hend : ∀ {r : Run} {states : List InstallState},
      r.endFollowing steps states = some followed →
      ∃ moves, followed.run = r.after moves ∧ ∀ m ∈ moves, m.IsProgress := by
    intro r states h
    obtain ⟨phases, hrun⟩ := endFollowing_after h
    exact ⟨_, hrun, fun m hm => isProgress_of_mem_replicate hm⟩
  induction rounds generalizing wanted watcher states r with
  | zero => cases h
  | succ rounds ih =>
    rw [followFrom] at h
    split at h
    · cases h
      exact ⟨[], rfl, nofun⟩
    · split at h
      · -- there is a new state, of which the follower is told unless it is a silent one
        rename_i state _ _
        split at h
        · exact hend h
        · obtain ⟨moves, hrun, hprogress⟩ := ih h
          refine ⟨.tell follower state :: moves, hrun, ?_⟩
          intro m hm
          rcases List.mem_cons.mp hm with rfl | hm
          · trivial
          · exact hprogress m hm
      · exact hend h
      · -- there is none yet, and provisioning goes on up to the next one
        obtain ⟨r₁, htransition, h⟩ := Option.bind_eq_some_iff.mp h
        obtain ⟨phases, rfl⟩ := toTransition_eq_some htransition
        obtain ⟨moves, hrun, hprogress⟩ := ih h
        refine ⟨List.replicate phases .provision ++ moves, ?_, ?_⟩
        · rw [after_append]
          exact hrun
        · intro m hm
          rcases List.mem_append.mp hm with hm | hm
          · exact isProgress_of_mem_replicate hm
          · exact hprogress m hm

/-- A setup that is waited for is settled in the end, after a number of phases. -/
theorem awaitSettled_eq_some {r r' : Run} {steps : Nat} (hr : r.Sound)
    (h : r.awaitSettled steps = some r') :
    ∃ phases, r' = r.provisioned phases ∧ r'.server.readiness.isSettled = true := by
  rw [awaitSettled] at h
  split at h
  · rename_i hs
    cases h
    exact ⟨0, rfl, hs⟩
  · obtain ⟨phases, rfl, hfin⟩ := toEnd_eq_some h
    have hsound : (r.provisioned phases).Sound := after_sound hr _
    exact ⟨phases, rfl, hsound.isSettled_eq_true (Server.isSetup_of_isFinished hfin)⟩

/-- Deleting a server calls the installation off, lets the setup settle, and then removes the
resources. -/
theorem delete_eq_some {r r' : Run} {steps : Nat} {o : Except Failure Unit} (hr : r.Sound)
    (h : r.delete steps = some (o, r')) :
    ∃ phases, let m := r.cancel.provisioned phases
      m.server.readiness.isSettled = true ∧ m.tearDown = (o, r') ∧ r' = m.move .tearDown := by
  obtain ⟨m, hm, htear⟩ := Option.map_eq_some_iff.mp h
  have hcancel : r.cancel.Sound := move_sound hr (.propose .canceled)
  obtain ⟨phases, rfl, hs⟩ := awaitSettled_eq_some hcancel hm
  refine ⟨phases, hs, htear, ?_⟩
  simp only [move, hs, if_true, htear]

/-- So deleting a server is made of moves as well. -/
theorem delete_after {r r' : Run} {steps : Nat} {o : Except Failure Unit} (hr : r.Sound)
    (h : r.delete steps = some (o, r')) :
    ∃ phases, r' = r.cancel.after (List.replicate phases .provision ++ [.tearDown]) := by
  obtain ⟨phases, -, -, hr'⟩ := delete_eq_some hr h
  refine ⟨phases, ?_⟩
  rw [after_append]
  exact hr'

/-- An operation is made of its moves. -/
theorem act_makes {r r' : Run} {a : Act} (hr : r.Sound) (h : r.act a = some r') :
    ∃ moves, r' = r.after moves ∧ ∀ m ∈ moves, a.Makes m := by
  have hone : ∀ m : Move, a.Makes m → r' = r.move m →
      ∃ moves, r' = r.after moves ∧ ∀ m ∈ moves, a.Makes m := by
    intro m hm hr'
    refine ⟨[m], hr', fun m' hm' => ?_⟩
    rw [List.mem_singleton.mp hm']
    exact hm
  cases a with
  | provision => exact hone .provision (.inl trivial) (Option.some.inj h).symm
  | cancel => exact hone (.propose .canceled) (.inr rfl) (Option.some.inj h).symm
  | propose next => exact hone (.propose next) (.inr rfl) (Option.some.inj h).symm
  | apply snapshot => exact hone (.apply snapshot) (.inr rfl) (Option.some.inj h).symm
  | resume steps =>
    obtain ⟨phases, hr'⟩ := toTransition_eq_some h
    exact ⟨_, hr', fun m hm => .inl (isProgress_of_mem_replicate hm)⟩
  | finish steps =>
    obtain ⟨phases, hr', -⟩ := toEnd_eq_some h
    exact ⟨_, hr', fun m hm => .inl (isProgress_of_mem_replicate hm)⟩
  | follow follower bound wanted =>
    obtain ⟨followed, hfollow, rfl⟩ := Option.map_eq_some_iff.mp h
    obtain ⟨moves, hrun, hprogress⟩ := followFrom_after hfollow
    exact ⟨moves, hrun, fun m hm => .inl (hprogress m hm)⟩
  | delete steps =>
    obtain ⟨⟨o, r'⟩, hdelete, rfl⟩ := Option.map_eq_some_iff.mp h
    obtain ⟨phases, hr'⟩ := delete_after hr hdelete
    refine ⟨.propose .canceled :: _, hr', fun m hm => ?_⟩
    rcases List.mem_cons.mp hm with rfl | hm
    · exact .inr rfl
    · rcases List.mem_append.mp hm with hm | hm
      · exact .inl (isProgress_of_mem_replicate hm)
      · rw [List.mem_singleton.mp hm]
        exact .inr trivial

/-- An operation is made of moves, and only deleting the server contains a teardown. -/
theorem act_after {r r' : Run} {a : Act} (hr : r.Sound) (h : r.act a = some r') :
    ∃ moves, r' = r.after moves ∧ ((∀ steps, a ≠ .delete steps) → Sparing moves) := by
  obtain ⟨moves, hr', hmakes⟩ := act_makes hr h
  exact ⟨moves, hr', fun ha m hm => (hmakes m hm).ne_tearDown ha⟩

/-- A sequence of operations is a course of their moves. -/
theorem perform_makes {r r' : Run} {acts : List Act} (hr : r.Sound)
    (h : r.perform acts = some r') :
    ∃ moves, r' = r.after moves ∧ ∀ m ∈ moves, ∃ a ∈ acts, a.Makes m := by
  induction acts generalizing r with
  | nil =>
    cases h
    exact ⟨[], rfl, nofun⟩
  | cons a acts ih =>
    rw [perform_cons] at h
    obtain ⟨r₁, hact, hacts⟩ := Option.bind_eq_some_iff.mp h
    obtain ⟨moves, rfl, hmakes⟩ := act_makes hr hact
    obtain ⟨moves', rfl, hmakes'⟩ := ih (after_sound hr moves) hacts
    refine ⟨moves ++ moves', (after_append r moves moves').symm, fun m hm => ?_⟩
    rcases List.mem_append.mp hm with hm | hm
    · exact ⟨a, List.mem_cons_self, hmakes m hm⟩
    · obtain ⟨a', ha', hm'⟩ := hmakes' m hm
      exact ⟨a', List.mem_cons_of_mem a ha', hm'⟩

theorem perform_after {r r' : Run} {acts : List Act} (hr : r.Sound)
    (h : r.perform acts = some r') : ∃ moves, r' = r.after moves := by
  obtain ⟨moves, hr', -⟩ := perform_makes hr h
  exact ⟨moves, hr'⟩

end Run

end Fleet
