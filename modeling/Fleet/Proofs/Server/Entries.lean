import Fleet.Proofs.Server.Course

/-!
# What a move enters

A move proposes at most one state of its own.  A phase of provisioning may be called off before the
response to its request is read, and then its own proposal is not accepted any more; so a phase
enters one state at most.  The completed state is proposed by moves that enter a snapshot, with the
endpoint of that snapshot, and otherwise only by whoever proposes it by name.

## Main definitions

- `Run.Idle r m`: from `r` to `m` the installation is left as it is
- `Run.Meanwhile r m`: from `r` to `m` it is called off at most
- `Run.Applies r m snapshot n`: the move `m` enters a snapshot in the run `n`
- `Run.Enters r m r'`: what a move can do to the installation

## Main statements

- `Run.move_enters`: a move does nothing else to the installation
- `Run.length_transitionsSince_step_le`: a phase enters one state at most
-/

namespace Fleet

open Run World Stage

namespace Run

/-! ## §1 Leaving the installation as it is -/

/-- The installation is left as it is. -/
def Idle (r m : Run) : Prop :=
  m.server.install = r.server.install ∧ m.server.endpoint = r.server.endpoint

variable {r r' m m' n : Run}

theorem Idle.refl (r : Run) : Idle r r :=
  ⟨rfl, rfl⟩

theorem Idle.trans (h : Idle r m) (h' : Idle m m') : Idle r m' :=
  ⟨h'.1.trans h.1, h'.2.trans h.2⟩

theorem Quiet.idle (h : Quiet r m) : Idle r m := by
  constructor <;> rw [h.1]

theorem idle_goTo (r : Run) (phase : Phase) : Idle r (r.goTo phase) :=
  ⟨rfl, rfl⟩

/-- A state without an endpoint brings none. -/
theorem endpoint_proceed (r : Run) (next : InstallState) :
    (r.proceed next).server.endpoint = r.server.endpoint := by
  unfold proceed
  rcases r.enter_cases next none with ⟨hserver, -⟩ | ⟨-, hserver, -⟩ <;> rw [hserver]
  exact Option.none_or

/-- At most the installation is called off. -/
inductive Meanwhile (r : Run) : Run → Prop
  | idle {m : Run} (h : Idle r m) : Meanwhile r m
  | canceled {a m : Run} (ha : Idle r a) (h : Idle a.cancel m) : Meanwhile r m

theorem Meanwhile.trans (h : Meanwhile r m) (h' : Idle m m') : Meanwhile r m' := by
  cases h with
  | idle h => exact .idle (h.trans h')
  | canceled ha h => exact .canceled ha (h.trans h')

/-- Until a response is read, the installation is called off at most. -/
theorem Receives.meanwhile {request : Request} (h : Receives request r m) : Meanwhile r m := by
  obtain ⟨n, hn, hrest⟩ := h
  have hstart : Idle r n := by
    rcases hn with rfl | ⟨level, message, rfl⟩
    · exact .refl n
    · exact (quiet_log r level message).idle
  -- the request itself is no matter of the installation
  have hsent : Idle r
      { n with world := ((n.server.client.dispatch request).outcome n.world).2 } :=
    hstart.trans ⟨rfl, rfl⟩
  unfold delivered at hrest
  split at hrest
  · exact .canceled hsent hrest.idle
  · exact .idle (hsent.trans hrest.idle)

theorem Meanwhile.endpoint_eq (h : Meanwhile r m) : m.server.endpoint = r.server.endpoint := by
  cases h with
  | idle h => exact h.2
  | @canceled a _ ha h => rw [h.2, ← ha.2, cancel, endpoint_proceed]

/-- The stream is left as it is, or it has been closed with the canceled state. -/
theorem Meanwhile.install_cases (h : Meanwhile r m) :
    m.server.install = r.server.install ∨
      m.server.install =
        { value := .canceled, version := r.server.install.version + 1, closed := true } := by
  cases h with
  | idle h => exact Or.inl h.1
  | @canceled a _ ha h =>
    rw [h.1, ← ha.1, cancel, proceed]
    rcases a.enter_cases .canceled none with ⟨hserver, -⟩ | ⟨-, hserver, -⟩ <;> rw [hserver]
    · exact Or.inl rfl
    · exact Or.inr rfl

/-! ## §2 What a move proposes -/

/-- What a snapshot does to the installation: nothing, or it proposes the state that it signals. A
complete one does so only with its endpoint. -/
theorem applySnapshot_cases (snapshot : Json) (n : Run) :
    (∃ o, (applySnapshot snapshot).outcome n = (o, n)) ∨
    (∃ next, next ≠ .completed ∧
      (applySnapshot snapshot).outcome n = (.ok next.isFinal, n.proceed next)) ∨
    ∃ endpoint, signalledState snapshot = .ok (some .completed) ∧
      ManagementEndpoint.ofSnapshot snapshot = .ok endpoint ∧
      (applySnapshot snapshot).outcome n = (.ok true, (n.enter .completed (some endpoint)).2) := by
  rw [applySnapshot_outcome]
  split
  · exact Or.inl ⟨_, rfl⟩
  · exact Or.inl ⟨_, rfl⟩
  · -- without an endpoint the complete snapshot is a failure
    rename_i hsignal
    split
    · exact Or.inl ⟨_, rfl⟩
    · rename_i endpoint hendpoint
      exact Or.inr (Or.inr ⟨endpoint, hsignal, hendpoint, rfl⟩)
  · rename_i state hne hsignal
    exact Or.inr (Or.inl ⟨state, hne, rfl⟩)

/-- A move enters a snapshot, in the run at that moment. -/
inductive Applies (r : Run) : Move → Json → Run → Prop
  /-- somebody enters it -/
  | directly (snapshot : Json) : Applies r (.apply snapshot) snapshot r
  /-- a poll has fetched it -/
  | polled {deadline : Option Float} {snapshot : Json} {n : Run}
      (hphase : r.server.phase = .polling deadline) (hopen : r.server.install.closed = false)
      (hfetch : fetchSnapshot.outcome r = (.ok snapshot, n)) : Applies r .provision snapshot n

theorem Applies.meanwhile {move : Move} {snapshot : Json} (h : Applies r move snapshot n) :
    Meanwhile r n := by
  cases h with
  | directly => exact .idle (.refl r)
  | polled _ _ hfetch =>
    have hreceived := (fetchSnapshot_receives r).meanwhile
    rwa [hfetch] at hreceived

/-- Everything that a move can do to the installation. -/
inductive Enters (r : Run) (move : Move) (r' : Run) : Prop
  /-- it proposes no state -/
  | nothing (h : Meanwhile r r')
  /-- it proposes a state that brings no endpoint -/
  | state {m : Run} (next : InstallState) (hnext : next ≠ .completed) (hm : Meanwhile r m)
      (h : Idle (m.proceed next) r')
  /-- it enters a complete snapshot -/
  | endpoint {n : Run} {snapshot : Json} {endpoint : ManagementEndpoint}
      (hn : Applies r move snapshot n) (hsignal : signalledState snapshot = .ok (some .completed))
      (hendpoint : ManagementEndpoint.ofSnapshot snapshot = .ok endpoint)
      (h : Idle (n.enter .completed (some endpoint)).2 r')

/-- A setup that is given up proposes the failed state. -/
theorem Meanwhile.abandon (h : Meanwhile r m) (f : Failure) : Enters r .provision (m.abandon f) :=
  .state .failed nofun (h.trans (quiet_log m _ _).idle) ⟨rfl, rfl⟩

theorem setUp_enters {stage : Stage Phase} (h : r.server.phase.setup? = some stage) :
    Enters r .provision (r.setUp stage) := by
  -- a stage that proposes no state itself may still fail
  have hset : Meanwhile r (stage.outcome r).2 → Enters r .provision (r.setUp stage) := by
    intro hm
    unfold setUp
    rcases hout : stage.outcome r with ⟨f | next, m⟩ <;> rw [hout] at hm
    · exact hm.abandon f
    · exact .nothing (hm.trans (idle_goTo m next))
  -- the phases in their order; the first and the last of them propose a state of their own
  cases hp : r.server.phase <;> rw [hp] at h <;> cases h
  · rw [setUp, awaitInstance_outcome]
    cases r.server.creation with
    | error f => exact (Meanwhile.idle (Idle.refl r)).abandon f
    | ok created =>
      cases r.server.install.closed with
      | true => exact .nothing (.idle (idle_goTo r _))
      | false => exact .state .instanceCreated nofun (.idle (.refl r)) (idle_goTo _ _)
  · apply hset
    rw [consultAddress_outcome]
    split <;> exact .idle (.refl r)
  · exact hset (describeInstance_receives r).meanwhile
  · exact hset (reserveAddress_receives _ _ r).meanwhile
  · exact hset (awaitAddress_receives _ _ r).meanwhile
  · rw [setUp, confirmAddress_outcome]
    cases r.server.install.closed with
    | true => exact .nothing (.idle (idle_goTo r _))
    | false => exact .state .ipAllocated nofun (.idle (.refl r)) (idle_goTo _ _)

theorem pollOnce_enters {deadline : Option Float} (h : r.server.phase = .polling deadline) :
    Enters r .provision (r.pollOnce deadline) := by
  -- a failed poll proposes the failed state
  have hfail : ∀ {m : Run} (message : String), Meanwhile r m →
      Enters r .provision (((m.log .error message).proceed .failed).goTo .finished) :=
    fun message hm => .state .failed nofun (hm.trans (quiet_log _ _ _).idle) (idle_goTo _ _)
  unfold pollOnce
  split
  · exact .nothing (.idle (idle_goTo r _))
  · rename_i hopen
    rw [poll_outcome]
    rcases hout : fetchSnapshot.outcome r with ⟨f | snapshot, n⟩
    · have hm := (fetchSnapshot_receives r).meanwhile
      rw [hout] at hm
      exact hfail _ hm
    · have hn : Applies r .provision snapshot n := .polled h (by simpa using hopen) hout
      dsimp only
      rcases applySnapshot_cases snapshot n with ⟨o, ho⟩ | ⟨next, hnext, ho⟩ |
        ⟨endpoint, hsignal, hendpoint, ho⟩ <;> rw [ho]
      · rcases o with f | ended | ended
        · exact hfail _ hn.meanwhile
        · exact .nothing (hn.meanwhile.trans (idle_goTo n _))
        · exact .nothing (hn.meanwhile.trans (idle_goTo n _))
      · cases next.isFinal <;> exact .state next hnext hn.meanwhile (idle_goTo _ _)
      · exact .endpoint hn hsignal hendpoint (idle_goTo _ _)

theorem pause_enters (r : Run) (deadline : Option Float) :
    Enters r .provision (r.pause deadline) := by
  unfold pause
  dsimp only
  split
  · exact .state .failed nofun (.idle (quiet_log r _ _).idle) (idle_goTo _ _)
  · split
    · exact .nothing (.idle (idle_goTo r _))
    · exact .nothing (.idle ⟨rfl, rfl⟩)

theorem step_enters (r : Run) : Enters r .provision r.step := by
  unfold step
  cases hp : r.server.phase with
  | settling => exact .nothing (.idle ⟨rfl, rfl⟩)
  | polling deadline => exact pollOnce_enters hp
  | pausing deadline => exact pause_enters r deadline
  | finished => exact .nothing (.idle (.refl r))
  | _ => exact setUp_enters (by rw [hp]; rfl)

/-- A move does nothing else to the installation, unless somebody proposes the completed state by
name. -/
theorem move_enters (r : Run) {move : Move} (h : move ≠ .propose .completed) :
    Enters r move (r.move move) := by
  cases move with
  | provision => exact step_enters r
  | propose next =>
    have hnext : next ≠ .completed := fun heq => h (by rw [heq])
    exact .state next hnext (.idle (.refl r)) (.refl _)
  | apply snapshot =>
    simp only [Run.move]
    rcases applySnapshot_cases snapshot r with ⟨o, ho⟩ | ⟨next, hnext, ho⟩ |
      ⟨endpoint, hsignal, hendpoint, ho⟩ <;> rw [ho]
    · exact .nothing (.idle (.refl r))
    · exact .state next hnext (.idle (.refl r)) (.refl _)
    · exact .endpoint (.directly snapshot) hsignal hendpoint (.refl _)
  | tell => exact .nothing (.idle ⟨rfl, rfl⟩)
  | tearDown =>
    simp only [Run.move]
    split
    · obtain ⟨w, -, -, -, heq⟩ := r.tearDown_eq
      rw [heq]
      exact .nothing (.idle ⟨rfl, rfl⟩)
    · exact .nothing (.idle (.refl r))

/-! ## §3 One state at most -/

/-- A stream that was closed meanwhile accepts no state, so there is one new version at most. -/
theorem Meanwhile.version_enter_le (hm : Meanwhile r m) (next : InstallState)
    (endpoint : Option ManagementEndpoint) :
    (m.enter next endpoint).2.server.install.version ≤ r.server.install.version + 1 := by
  rcases hm.install_cases with hsame | hcanceled
  · rw [← hsame]
    rcases m.enter_cases next endpoint with ⟨hserver, -⟩ | ⟨-, hserver, -⟩
    · apply Nat.le_succ_of_le
      exact Nat.le_of_eq (by rw [hserver])
    · exact Nat.le_of_eq (by rw [hserver])
  · apply Nat.le_of_eq
    rw [enter_of_closed (by rw [hcanceled]), hcanceled]

/-- A phase enters one state at most. -/
theorem length_transitionsSince_step_le (r : Run) :
    (r.world.transitionsSince r.step.world).length ≤ 1 := by
  have hversion := (step_onward r).version_eq
  suffices r.step.server.install.version ≤ r.server.install.version + 1 by omega
  cases step_enters r with
  | nothing h =>
    rcases h.install_cases with hsame | hcanceled
    · exact Nat.le_succ_of_le (Nat.le_of_eq (by rw [hsame]))
    · exact Nat.le_of_eq (by rw [hcanceled])
  | state next hnext hm h =>
    rw [h.1]
    exact hm.version_enter_le next none
  | endpoint hn hsignal hendpoint h =>
    rw [h.1]
    exact hn.meanwhile.version_enter_le .completed _

end Run

end Fleet
