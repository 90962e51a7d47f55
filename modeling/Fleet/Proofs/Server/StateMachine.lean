import Fleet.Proofs.Server.Acts

/-!
# The states of an installation

At every point of the course of a server the stream is closed exactly in the final states, the
states that were entered form an ascent, and an ended installation stays what it is.  A value is
never set on a closed stream, so the fault that a stream has for this does not arise.

## Main definitions

- `Run.enterOrFault`: proposing a state, with the fault of a closed stream

## Main statements

- `Launch.installation_ascends`: the invariant of the states of an installation
-/

namespace Fleet

open Run World

/-! ## §1 The fault of a closed stream -/

/-- Replace the current value; a closed stream has a fault for that. -/
def ValueStream.setOrFault {α : Type} (stream : ValueStream α) (value : α) :
    Except Fault (ValueStream α) :=
  match stream.set? value with
  | some stream => .ok stream
  | none => .error .closedStream

/-- Propose a state, where setting a value on a closed stream is a fault. -/
def Run.enterOrFault (r : Run) (next : InstallState) (endpoint : Option ManagementEndpoint) :
    Except Fault (Bool × Run) :=
  let s := r.server
  match s.verdict next with
  | .accepted => do
    let stream ← s.install.setOrFault next
    let world := (r.world.log .info s!"Server {s.id} install state: {next.name}").record
      (.entered next)
    let server := { s with
      endpoint := endpoint.or s.endpoint
      install := if next.isFinal then stream.close else stream }
    return (true, { server, world })
  | .behind =>
    return (false, r.log .debug s!"Server {s.id}: ignoring {next.name}, already {s.state.name}")
  | .closed | .unchanged => return (false, r)

/-- A state is accepted only while the stream is open, so the fault does not arise. -/
theorem Run.enterOrFault_eq (r : Run) (next : InstallState)
    (endpoint : Option ManagementEndpoint) :
    r.enterOrFault next endpoint = .ok (r.enter next endpoint) := by
  cases hv : r.server.verdict next with
  | accepted =>
    have hset := ValueStream.set?_of_open (Server.open_of_accepted hv) next
    simp only [enterOrFault, enter, hv, ValueStream.setOrFault, ValueStream.advance, hset]
    rfl
  | closed | unchanged | behind =>
    simp only [enterOrFault, enter, hv]
    rfl

/-! ## §2 The invariant -/

theorem InstallState.isFinal_iff {s : InstallState} :
    s.isFinal = true ↔ s = .completed ∨ s = .failed ∨ s = .canceled := by
  cases s <;> simp [isFinal]

namespace Launch

/-- From the launch on, the states that a server enters are an ascent from the unknown state to
the current one. -/
theorem ascent_after (l : Launch) (moves : List Move) :
    InstallState.Ascent .unknown (l.world.transitionsSince (l.start.after moves).world)
      (l.start.after moves).server.state := by
  have honward := after_onward l.start moves
  rw [transitionsSince_trans l.start_extends honward.journal, l.transitionsSince_start,
    List.nil_append]
  exact honward.ascent l.start_sound.toCoherent

/-- After every course of moves: the stream is closed exactly in a final state; the states that were
entered, after the unknown one, increase, only the last of them can be final, and it is the current
one; and if the stream is closed, neither it nor the endpoint changes any more. At no point, also
amidst a phase, is a state set on a closed stream. From there on the operations of the server are
such courses as well. -/
theorem installation_ascends (l : Launch) (moves : List Move) :
    let r := l.start.after moves
    let path := .unknown :: l.world.transitionsSince r.world
    (r.server.install.closed = true ↔
      r.server.state = .completed ∨ r.server.state = .failed ∨ r.server.state = .canceled) ∧
    (path.Pairwise (· < ·) ∧ (∀ s ∈ path.dropLast, s.isFinal = false) ∧
      path.getLast? = some r.server.state) ∧
    (r.server.install.closed = true → ∀ moves',
      (r.after moves').server.install = r.server.install ∧
      (r.after moves').server.endpoint = r.server.endpoint) ∧
    (∀ (q : Run) next endpoint, q.enterOrFault next endpoint = .ok (q.enter next endpoint)) ∧
    ∀ acts r', r.perform acts = some r' → ∃ moves', r' = r.after moves' := by
  intro r path
  have hsound : r.Sound := after_sound l.start_sound moves
  have hascent : InstallState.Ascent .unknown (l.world.transitionsSince r.world) r.server.state :=
    l.ascent_after moves
  refine ⟨?_, ⟨hascent.pairwise, ?_, ?_⟩, ?_, ?_, ?_⟩
  · -- the stream follows the state
    rw [hsound.closed_eq]
    exact InstallState.isFinal_iff
  · intro s hs
    exact hascent.isFinal_eq_false_of_mem_dropLast hs
  · rw [List.getLast?_eq_some_getLast (List.cons_ne_nil _ _)]
    exact congrArg some hascent.getLast_eq
  · intro hclosed moves'
    exact (after_onward r moves').closed hclosed
  · intro q next endpoint
    exact q.enterOrFault_eq next endpoint
  · intro acts r' hperform
    exact perform_after hsound hperform

end Launch

end Fleet
