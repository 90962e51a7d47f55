import Mathlib.Logic.Relation
import Mathlib.Tactic.Common
import Fleet.Proofs.Journal
import Fleet.Server.Provisioning

/-!
# How stages change a run

A stage of provisioning changes a run in two ways only: it does something to the world, or it
proposes a state.  Everything that stages keep is therefore shown for these two changes, and each
stage is shown once to be made of them.

## Main definitions

- `Run.Coherent`: the state, the stream and the endpoint of a run belong together
- `InstallState.Ascent`: a way upwards through the states
- `Run.Touches P`, `Run.Evolves P`: one change, and any number of changes, during which events of
  the kind `P` may happen
- `Run.Onward P`: the way from a run to a later one, on which events of the kind `P` happened

## Main statements

- `Run.enter_cases`: what becomes of a proposed state
- `Onward.trans`: the way from one run to a later one is made of shorter ways
- `Evolves.onward`: changes keep a run coherent, enter an ascent of states, and leave an ended
  installation as it is
-/

namespace Fleet

/-! ## §1 Proposing a state -/

/-- A stream is closed exactly if its state is final, and an endpoint is known only after a
completed installation. -/
structure Run.Coherent (r : Run) : Prop where
  closed_eq : r.server.install.closed = r.server.state.isFinal
  completed_of_endpoint : r.server.endpoint.isSome = true → r.server.state = .completed

/-- The stream after an accepted state has that state, and is closed if the state is final. -/
theorem ValueStream.advance_of_open {stream : ValueStream InstallState} (next : InstallState)
    (h : stream.closed = false) :
    stream.advance next =
      { value := next, version := stream.version + 1, closed := next.isFinal } := by
  unfold advance
  rw [set?_of_open h]
  cases hf : next.isFinal
  · simp [h]
  · rfl

namespace Server

variable {s : Server} {next : InstallState}

theorem open_of_accepted (h : s.verdict next = .accepted) : s.install.closed = false := by
  cases hc : s.install.closed with
  | false => rfl
  | true => simp [verdict, hc] at h

/-- A state is accepted only above the current one; the final ones are above all others. -/
theorem lt_of_accepted (h : s.verdict next = .accepted) (hs : s.state.isFinal = false) :
    s.state < next := by
  have hopen := open_of_accepted h
  simp only [verdict, hopen, Bool.false_eq_true, if_false] at h
  split at h
  · cases h
  · rename_i hne
    split at h
    · cases h
    · -- neither equal nor below, and a final state cannot be below one that is not
      rename_i hbehind
      cases hf : next.isFinal with
      | true => exact InstallState.lt_of_isFinal hs hf
      | false =>
        have hrank := mt InstallState.rank_inj.mp hne
        simp only [hf, Bool.not_false, Bool.true_and, decide_eq_true_eq,
          InstallState.lt_iff] at hbehind
        rw [InstallState.lt_iff]
        omega

/-- Every state above the current one is accepted as long as the installation goes on. -/
theorem accepted_of_lt (hopen : s.install.closed = false) (h : s.state < next) :
    s.verdict next = .accepted := by
  have hne : next ≠ s.state := by
    rintro rfl
    exact Nat.lt_irrefl _ h
  have hnot : ¬ next < s.state := Nat.lt_asymm h
  simp [verdict, hopen, hne, hnot]

/-- So are the final states, which are above all others. -/
theorem accepted_of_isFinal (hopen : s.install.closed = false) (hs : s.state.isFinal = false)
    (hf : next.isFinal = true) : s.verdict next = .accepted :=
  accepted_of_lt hopen (InstallState.lt_of_isFinal hs hf)

end Server

namespace Run

/-- An installation that has ended refuses every state. -/
theorem enter_of_closed {r : Run} (h : r.server.install.closed = true) (next : InstallState)
    (endpoint : Option ManagementEndpoint) : r.enter next endpoint = (false, r) := by
  simp [enter, Server.verdict, h]

/-- An accepted state is the next value of the stream, and its entry is logged before. -/
theorem enter_of_accepted {r : Run} {next : InstallState} (h : r.server.verdict next = .accepted)
    (endpoint : Option ManagementEndpoint) :
    r.enter next endpoint =
      (true,
        { server :=
            { r.server with
              endpoint := endpoint.or r.server.endpoint
              install :=
                { value := next
                  version := r.server.install.version + 1
                  closed := next.isFinal } }
          world := (r.world.log .info
            s!"Server {r.server.id} install state: {next.name}").record (.entered next) }) := by
  simp only [enter, h, ValueStream.advance_of_open next (Server.open_of_accepted h)]

/-- What becomes of a proposed state: it is refused and leaves the server as it is, or the
installation goes on upwards to it. -/
theorem enter_cases (r : Run) (next : InstallState) (endpoint : Option ManagementEndpoint) :
    ((r.enter next endpoint).2.server = r.server ∧
      r.world.Extends (Event.Serves none) (r.enter next endpoint).2.world) ∨
    (r.server.verdict next = .accepted ∧
      (r.enter next endpoint).2.server =
        { r.server with
          endpoint := endpoint.or r.server.endpoint
          install :=
            { value := next, version := r.server.install.version + 1, closed := next.isFinal } } ∧
      ∃ line, (r.enter next endpoint).2.world.journal =
        .entered next :: .logged .info line :: r.world.journal) := by
  cases hv : r.server.verdict next with
  | closed | unchanged =>
    left
    simp only [enter, hv]
    exact ⟨trivial, .refl _⟩
  | behind =>
    -- a state that has been passed is refused with a log line
    left
    simp only [enter, hv]
    exact ⟨rfl, [.logged _ _], rfl, by simp [Event.Serves]⟩
  | accepted =>
    right
    rw [enter_of_accepted hv]
    exact ⟨rfl, rfl, _, rfl⟩

end Run

/-! ## §2 Ascents -/

/-- The list leads from the first state upwards to the second, through states that are not
final. -/
inductive InstallState.Ascent : InstallState → List InstallState → InstallState → Prop
  | nil (s : InstallState) : Ascent s [] s
  | cons {s t u : InstallState} {ts : List InstallState} (hs : s.isFinal = false) (hlt : s < t)
      (ht : Ascent t ts u) : Ascent s (t :: ts) u

namespace InstallState.Ascent

variable {s t u : InstallState} {ts us : List InstallState}

theorem append (h : Ascent s ts t) (h' : Ascent t us u) : Ascent s (ts ++ us) u := by
  induction h with
  | nil => exact h'
  | cons hs hlt _ ih => exact .cons hs hlt (ih h')

/-- From a final state no ascent goes on. -/
theorem eq_nil_of_isFinal (h : Ascent s ts t) (hs : s.isFinal = true) : ts = [] ∧ t = s := by
  cases h with
  | nil => exact ⟨rfl, rfl⟩
  | cons hs' => rw [hs] at hs'; cases hs'

theorem getLast_eq (h : Ascent s ts t) : (s :: ts).getLast (List.cons_ne_nil _ _) = t := by
  induction h with
  | nil => rfl
  | cons _ _ _ ih => simpa using ih

theorem isFinal_eq_false_of_mem_dropLast (h : Ascent s ts t) {x : InstallState}
    (hx : x ∈ (s :: ts).dropLast) : x.isFinal = false := by
  induction h with
  | nil => cases hx
  | cons hs _ _ ih =>
    rw [List.dropLast_cons_cons] at hx
    rcases List.mem_cons.mp hx with rfl | hx
    · exact hs
    · exact ih hx

theorem lt_of_mem (h : Ascent s ts t) {x : InstallState} (hx : x ∈ ts) : s < x := by
  induction h with
  | nil => cases hx
  | cons _ hlt _ ih =>
    rcases List.mem_cons.mp hx with rfl | hx
    · exact hlt
    · exact Nat.lt_trans hlt (ih hx)

theorem pairwise (h : Ascent s ts t) : (s :: ts).Pairwise (· < ·) := by
  induction h with
  | nil => exact List.pairwise_singleton _ _
  | cons hs hlt ht ih =>
    exact List.pairwise_cons.mpr ⟨fun x hx => (Ascent.cons hs hlt ht).lt_of_mem hx, ih⟩

end InstallState.Ascent

/-! ## §3 What becomes of a proposed state -/

/-- The events of proposing a state: log lines and the entry of the state. -/
def Event.Announces : Event → Prop
  | .logged .. | .entered _ => True
  | _ => False

theorem Event.Serves.announces {e : Event} (h : e.Serves none) : e.Announces := by
  cases e with
  | logged level message => trivial
  | requested sent => cases h
  | _ => exact h.elim

theorem Event.Announces.request?_eq {e : Event} (h : e.Announces) : e.request? = none := by
  cases e with
  | requested => exact h.elim
  | _ => rfl

namespace Run

theorem enter_extends (r : Run) (next : InstallState) (endpoint : Option ManagementEndpoint) :
    r.world.Extends Event.Announces (r.enter next endpoint).2.world := by
  rcases r.enter_cases next endpoint with ⟨-, hw⟩ | ⟨-, -, line, hj⟩
  · exact hw.mono fun _ he => he.announces
  · refine ⟨[.entered next, .logged .info line], hj, ?_⟩
    simp [Event.Announces]

/-- Only a completed installation brings an endpoint. -/
theorem enter_coherent {r : Run} (hr : r.Coherent) {next : InstallState}
    {endpoint : Option ManagementEndpoint} (h : endpoint.isSome = true → next = .completed) :
    (r.enter next endpoint).2.Coherent := by
  rcases r.enter_cases next endpoint with ⟨hserver, -⟩ | ⟨haccepted, hserver, -⟩
  · constructor <;> rw [Server.state, hserver]
    · exact hr.closed_eq
    · exact hr.completed_of_endpoint
  · -- while the installation goes on there is no endpoint yet, so the only one is the new one
    have hnone : r.server.endpoint = none := by
      by_contra hsome
      have hstate := hr.completed_of_endpoint (Option.isSome_iff_ne_none.mpr hsome)
      have hclosed := hr.closed_eq
      rw [Server.open_of_accepted haccepted, hstate] at hclosed
      cases hclosed
    constructor <;> simp only [hserver, Server.state, hnone, Option.or_none]
    exact h

/-- The state of an accepted proposal is the only one that is entered. -/
theorem transitionsSince_entered {v w : World} {next : InstallState} {line : String}
    (h : v.journal = .entered next :: .logged .info line :: w.journal) :
    w.transitionsSince v = [next] := by
  rw [World.transitionsSince, World.since_eq [.entered next, .logged .info line] h]
  rfl

theorem enter_ascent {r : Run} (hr : r.Coherent) (next : InstallState)
    (endpoint : Option ManagementEndpoint) :
    InstallState.Ascent r.server.state
      (r.world.transitionsSince (r.enter next endpoint).2.world)
      (r.enter next endpoint).2.server.state := by
  rcases r.enter_cases next endpoint with ⟨hserver, hw⟩ | ⟨haccepted, hserver, line, hj⟩
  · rw [World.transitionsSince_eq_nil (hw.mono fun _ he => he.state?_eq), Server.state,
      Server.state, hserver]
    exact .nil _
  · -- the ascent of one state: the stream was open, so the state before it is not final
    have hs : r.server.state.isFinal = false := by
      rw [← hr.closed_eq, Server.open_of_accepted haccepted]
    have hsince := transitionsSince_entered hj
    have hstate : (r.enter next endpoint).2.server.state = next := by
      rw [Server.state, hserver]
    rw [hsince, hstate]
    exact .cons hs (Server.lt_of_accepted haccepted hs) (.nil _)

/-- Every state that is entered is a new version of the stream. -/
theorem enter_version_eq (r : Run) (next : InstallState) (endpoint : Option ManagementEndpoint) :
    (r.enter next endpoint).2.server.install.version =
      r.server.install.version +
        (r.world.transitionsSince (r.enter next endpoint).2.world).length := by
  rcases r.enter_cases next endpoint with ⟨hserver, hw⟩ | ⟨haccepted, hserver, line, hj⟩
  · rw [World.transitionsSince_eq_nil (hw.mono fun _ he => he.state?_eq), hserver]
    rfl
  · rw [transitionsSince_entered hj, hserver]
    rfl

/-- A proposed final state leaves the installation ended. -/
theorem closed_enter_of_isFinal {r : Run} (hr : r.Coherent) {next : InstallState}
    (hf : next.isFinal = true) (endpoint : Option ManagementEndpoint) :
    (r.enter next endpoint).2.server.install.closed = true := by
  cases hc : r.server.install.closed with
  | true =>
    rw [enter_of_closed hc]
    exact hc
  | false =>
    have hs : r.server.state.isFinal = false := by rw [← hr.closed_eq, hc]
    rw [enter_of_accepted (Server.accepted_of_isFinal hc hs hf)]
    exact hf

/-- A proposed final state counts unless there is one already. -/
theorem state_enter_of_isFinal {r : Run} (hr : r.Coherent) {next : InstallState}
    (hf : next.isFinal = true) (endpoint : Option ManagementEndpoint) :
    (r.enter next endpoint).2.server.state =
      if r.server.state.isFinal then r.server.state else next := by
  cases hs : r.server.state.isFinal with
  | true =>
    rw [enter_of_closed (by rw [hr.closed_eq, hs])]
    rfl
  | false =>
    rw [enter_of_accepted (Server.accepted_of_isFinal (by rw [hr.closed_eq, hs]) hs hf)]
    rfl

/-- Calling off an installation that goes on cancels it, and nothing else happens. -/
theorem cancel_of_open {r : Run} (hr : r.Coherent) (hs : r.server.state.isFinal = false) :
    r.cancel.server.state = .canceled ∧ r.cancel.server.install.closed = true ∧
      r.world.transitionsSince r.cancel.world = [.canceled] := by
  have hopen : r.server.install.closed = false := by rw [hr.closed_eq, hs]
  have haccepted : r.server.verdict .canceled = .accepted :=
    Server.accepted_of_isFinal hopen hs rfl
  rw [cancel, proceed, enter_of_accepted haccepted]
  exact ⟨rfl, rfl, transitionsSince_entered rfl⟩

end Run

/-! ## §4 Changes of a run -/

/-- One change of a run: events of the given kind happen, none of which enters a state, or a state
is proposed. Only a completed installation brings an endpoint. -/
inductive Run.Touches (P : Event → Prop) : Run → Run → Prop
  | world {r : Run} {w : World} (h : r.world.Extends (fun e => P e ∧ e.state? = none) w) :
      Touches P r { r with world := w }
  | enter (r : Run) (next : InstallState) (endpoint : Option ManagementEndpoint)
      (h : endpoint.isSome = true → next = .completed) : Touches P r (r.enter next endpoint).2

/-- Any number of changes. -/
def Run.Evolves (P : Event → Prop) : Run → Run → Prop :=
  Relation.ReflTransGen (Run.Touches P)

instance (P : Event → Prop) : IsPreorder Run (Run.Evolves P) :=
  inferInstanceAs (IsPreorder Run (Relation.ReflTransGen _))

namespace Run

variable {P Q : Event → Prop} {r r' : Run}

theorem Touches.mono (h : Touches P r r') (hPQ : ∀ e, P e → Q e) : Touches Q r r' := by
  cases h with
  | world h => exact .world (h.mono fun e he => ⟨hPQ e he.1, he.2⟩)
  | enter next endpoint hcompleted => exact .enter r next endpoint hcompleted

/-- A change leaves everything about the server as it is but its stream and its endpoint. -/
theorem Touches.frame (h : Touches P r r') :
    r'.server =
      { r.server with install := r'.server.install, endpoint := r'.server.endpoint } := by
  cases h with
  | world h => rfl
  | enter next endpoint _ =>
    rcases r.enter_cases next endpoint with ⟨hserver, -⟩ | ⟨-, hserver, -⟩ <;> rw [hserver]

theorem Evolves.refl (r : Run) : Evolves P r r :=
  Relation.ReflTransGen.refl

theorem Evolves.trans {r'' : Run} (h : Evolves P r r') (h' : Evolves P r' r'') :
    Evolves P r r'' :=
  Relation.ReflTransGen.trans h h'

theorem Evolves.mono (h : Evolves P r r') (hPQ : ∀ e, P e → Q e) : Evolves Q r r' := by
  induction h with
  | refl => exact .refl _
  | tail _ hstep ih => exact Relation.ReflTransGen.tail ih (hstep.mono hPQ)

/-- Changes leave everything about the server as it is but its stream and its endpoint. -/
theorem Evolves.frame (h : Evolves P r r') :
    r'.server =
      { r.server with install := r'.server.install, endpoint := r'.server.endpoint } := by
  induction h with
  | refl => rfl
  | tail _ hstep ih => rw [hstep.frame, ih]

theorem Evolves.readiness_eq (h : Evolves P r r') : r'.server.readiness = r.server.readiness := by
  rw [h.frame]

theorem evolves_world {w : World} (h : r.world.Extends (fun e => P e ∧ e.state? = none) w) :
    Evolves P r { r with world := w } :=
  .single (.world h)

theorem evolves_enter (r : Run) (next : InstallState) (endpoint : Option ManagementEndpoint)
    (h : endpoint.isSome = true → next = .completed) : Evolves P r (r.enter next endpoint).2 :=
  .single (.enter r next endpoint h)

theorem evolves_proceed (r : Run) (next : InstallState) : Evolves P r (r.proceed next) :=
  evolves_enter r next none (by simp)

end Run

/-! ## §5 What every course of events keeps -/

/-- The way from a run to a later one, on which events of the given kind happened. The phase and
the readiness may be different ones; everything else about the server is the work of changes. -/
structure Run.Onward (P : Event → Prop) (r r' : Run) : Prop where
  journal : r.world.Extends P r'.world
  coherent : r.Coherent → r'.Coherent
  ascent : r.Coherent → InstallState.Ascent r.server.state
    (r.world.transitionsSince r'.world) r'.server.state
  closed : r.server.install.closed = true →
    r'.server.install = r.server.install ∧ r'.server.endpoint = r.server.endpoint
  version_eq : r'.server.install.version =
    r.server.install.version + (r.world.transitionsSince r'.world).length
  frame : r'.server =
    { r.server with
      install := r'.server.install
      endpoint := r'.server.endpoint
      readiness := r'.server.readiness
      phase := r'.server.phase }

namespace Run

variable {P Q : Event → Prop} {r r' r'' : Run}

theorem Onward.refl (r : Run) : Onward P r r where
  journal := .refl _
  coherent := id
  ascent _ := by
    rw [World.transitionsSince_self]
    exact .nil _
  closed _ := ⟨rfl, rfl⟩
  version_eq := by
    rw [World.transitionsSince_self]
    rfl
  frame := rfl

theorem Onward.trans (h : Onward P r r') (h' : Onward P r' r'') : Onward P r r'' where
  journal := h.journal.trans h'.journal
  coherent hr := h'.coherent (h.coherent hr)
  ascent hr := by
    rw [World.transitionsSince_trans h.journal h'.journal]
    exact (h.ascent hr).append (h'.ascent (h.coherent hr))
  closed hr := by
    obtain ⟨hinstall, hendpoint⟩ := h.closed hr
    obtain ⟨hinstall', hendpoint'⟩ := h'.closed (by rw [hinstall]; exact hr)
    exact ⟨hinstall'.trans hinstall, hendpoint'.trans hendpoint⟩
  version_eq := by
    rw [World.transitionsSince_trans h.journal h'.journal, List.length_append, ← Nat.add_assoc,
      ← h.version_eq]
    exact h'.version_eq
  frame := by rw [h'.frame, h.frame]

instance (P : Event → Prop) : IsPreorder Run (Onward P) where
  refl := .refl
  trans _ _ _ := .trans

theorem Onward.mono (h : Onward P r r') (hPQ : ∀ e, P e → Q e) : Onward Q r r' :=
  { h with journal := h.journal.mono hPQ }

theorem onward_world {w : World} (h : r.world.Extends (fun e => P e ∧ e.state? = none) w) :
    Onward P r { r with world := w } where
  journal := h.mono fun _ he => he.1
  coherent hr := ⟨hr.closed_eq, hr.completed_of_endpoint⟩
  ascent _ := by
    rw [World.transitionsSince_eq_nil (h.mono fun _ he => he.2)]
    exact .nil _
  closed _ := ⟨rfl, rfl⟩
  version_eq := by
    rw [World.transitionsSince_eq_nil (h.mono fun _ he => he.2)]
    rfl
  frame := rfl

theorem onward_enter (r : Run) {next : InstallState} {endpoint : Option ManagementEndpoint}
    (h : endpoint.isSome = true → next = .completed) :
    Onward Event.Announces r (r.enter next endpoint).2 where
  journal := enter_extends r next endpoint
  coherent hr := enter_coherent hr h
  ascent hr := enter_ascent hr next endpoint
  closed hr := by
    rw [enter_of_closed hr]
    exact ⟨rfl, rfl⟩
  version_eq := enter_version_eq r next endpoint
  frame := by
    rcases r.enter_cases next endpoint with ⟨hserver, -⟩ | ⟨-, hserver, -⟩ <;> rw [hserver]

theorem Touches.onward (h : Touches P r r') : Onward (fun e => P e ∨ e.Announces) r r' := by
  cases h with
  | world h => exact (onward_world h).mono fun _ => Or.inl
  | enter next endpoint hcompleted => exact (onward_enter r hcompleted).mono fun _ => Or.inr

theorem Evolves.onward (h : Evolves P r r') : Onward (fun e => P e ∨ e.Announces) r r' := by
  induction h with
  | refl => exact .refl _
  | tail _ hstep ih => exact ih.trans hstep.onward

theorem Coherent.settle (hr : r.Coherent) (readiness : Readiness) (phase : Phase) :
    ({ r with server := { r.server with readiness, phase } } : Run).Coherent :=
  ⟨hr.closed_eq, hr.completed_of_endpoint⟩

/-- Another phase or another readiness is not a change of the installation. -/
theorem Onward.settle (h : Onward P r r') (readiness : Readiness) (phase : Phase) :
    Onward P r { r' with server := { r'.server with readiness, phase } } where
  journal := h.journal
  coherent hr := (h.coherent hr).settle readiness phase
  ascent := h.ascent
  closed := h.closed
  version_eq := h.version_eq
  frame := by rw [h.frame]

theorem Onward.goTo (h : Onward P r r') (phase : Phase) : Onward P r (r'.goTo phase) :=
  h.settle r'.server.readiness phase

end Run

end Fleet
