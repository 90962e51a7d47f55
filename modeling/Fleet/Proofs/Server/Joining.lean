import Mathlib.Order.Bounds.Defs
import Fleet.Proofs.Server.Polling

/-!
# Snapshots in any order

The guest publishes its attributes one by one, so the snapshots of them may come in any order and
any combination, and one may come several times.  As long as none of them ends the installation this
makes no difference: the state goes up to the highest that was signalled.  The first snapshot that
ends the installation decides in which state, and nothing that comes later changes that.  A complete
snapshot whose fingerprint cannot be read is refused, and it is as if it had never come.

## Main definitions

- `Attributes.Signals`: the state that a snapshot signals
- `Attributes.Completes`: the snapshot is complete, and what is made of its values
- `Attributes.Decides`: the snapshot ends the installation in a state
- `Run.enterAll`: the run after somebody has entered some snapshots

## Main statements

- `Run.enterAll_joins`: snapshots that end nothing raise the state to the highest signalled one
- `Launch.snapshots_join`: what a list of snapshots does to a server that is being installed
-/

namespace Fleet

open Run World Json

/-! ## §1 The highest of some states -/

/-- The higher of two states is the greatest of them. -/
theorem InstallState.isGreatest_max (s t : InstallState) :
    IsGreatest {u | u = s ∨ u = t} (max s t) := by
  by_cases hlt : s < t
  · rw [max_of_lt hlt]
    refine ⟨Or.inr rfl, ?_⟩
    rintro u (rfl | rfl)
    · exact Nat.le_of_lt hlt
    · exact Nat.le_refl _
  · rw [max_of_not_lt hlt]
    refine ⟨Or.inl rfl, ?_⟩
    rintro u (rfl | rfl)
    · exact Nat.le_refl _
    · exact Nat.le_of_not_lt hlt

/-- There is one greatest state at most. -/
theorem InstallState.eq_of_isGreatest {states : Set InstallState} {s t : InstallState}
    (hs : IsGreatest states s) (ht : IsGreatest states t) : s = t :=
  rank_inj.mp (Nat.le_antisymm (ht.2 hs.1) (hs.2 ht.1))

/-! ## §2 What a snapshot signals -/

/-- The attributes that a snapshot shows, with their values. -/
abbrev Attributes := List (String × Json)

namespace Attributes

/-- The state that a snapshot signals. -/
def Signals (a : Attributes) (state : InstallState) : Prop :=
  signalledState (.obj a) = .ok (some state)

/-- The snapshot is complete, and its values make an endpoint or fail to. -/
structure Completes (a : Attributes) (result : Except Failure ManagementEndpoint) : Prop where
  signals : a.Signals .completed
  made : ∃ apiUrl certificate, lookup apiUrlAttribute a = some apiUrl ∧
    lookup fingerprintAttribute a = some certificate ∧
    ManagementEndpoint.make apiUrl certificate = result

/-- The snapshot ends an installation in the given state: it signals a failure, or it is complete
and its fingerprint can be read. -/
inductive Decides (a : Attributes) : InstallState → Prop
  | failed (h : a.Signals .failed) : Decides a .failed
  | completed {endpoint : ManagementEndpoint} (h : a.Completes (.ok endpoint)) :
      Decides a .completed

variable {a : Attributes} {state : InstallState} {result : Except Failure ManagementEndpoint}

/-- The attributes are looked for from the most advanced milestone down. -/
theorem signalledState_obj (a : Attributes) :
    signalledState (.obj a) = .ok
      (if (lookup apiUrlAttribute a).isSome && (lookup fingerprintAttribute a).isSome then
        some .completed
      else if (lookup errorAttribute a).isSome then some .failed
      else if (lookup fingerprintAttribute a).isSome then some .certificateCreated
      else if (lookup startedAttribute a).isSome then some .instanceRunning
      else none) := by
  unfold signalledState
  simp only [contains, bind, Except.bind, pure, Except.pure]
  cases (lookup apiUrlAttribute a).isSome <;> cases (lookup fingerprintAttribute a).isSome <;>
    cases (lookup errorAttribute a).isSome <;> cases (lookup startedAttribute a).isSome <;> rfl

/-- A complete snapshot has both values of which an endpoint is made. -/
theorem exists_completes (h : a.Signals .completed) : ∃ result, a.Completes result := by
  have hsignal := h
  unfold Signals at h
  rw [signalledState_obj] at h
  split at h
  · rename_i hboth
    rw [Bool.and_eq_true, Option.isSome_iff_exists, Option.isSome_iff_exists] at hboth
    obtain ⟨⟨apiUrl, hurl⟩, certificate, hcertificate⟩ := hboth
    exact ⟨_, hsignal, apiUrl, certificate, hurl, hcertificate, rfl⟩
  · -- the other milestones are not the completed one
    exfalso
    repeat' split at h
    all_goals cases h

/-- A snapshot that decides nothing signals no end, or its fingerprint cannot be read. -/
theorem cases_of_not_decides (h : ∀ state, ¬ a.Decides state) :
    (¬ a.Signals .completed ∧ ¬ a.Signals .failed) ∨ ∃ f, a.Completes (.error f) := by
  by_cases hcompleted : a.Signals .completed
  · right
    obtain ⟨result, hresult⟩ := exists_completes hcompleted
    cases result with
    | error f => exact ⟨f, hresult⟩
    | ok endpoint => exact absurd (.completed hresult) (h .completed)
  · left
    exact ⟨hcompleted, fun hfailed => h .failed (.failed hfailed)⟩

theorem Completes.ofSnapshot_eq (h : a.Completes result) :
    ManagementEndpoint.ofSnapshot (.obj a) = result := by
  obtain ⟨apiUrl, certificate, hurl, hcertificate, rfl⟩ := h.made
  unfold ManagementEndpoint.ofSnapshot
  simp only [part, hurl, hcertificate]
  rfl

theorem Signals.unique {state' : InstallState} (h : a.Signals state) (h' : a.Signals state') :
    state = state' :=
  Option.some.inj (Except.ok.inj (h.symm.trans h'))

theorem Decides.isFinal (h : a.Decides state) : state.isFinal = true := by
  cases h <;> rfl

end Attributes

/-! ## §3 Entering one snapshot -/

namespace Run

variable {r : Run} {a : Attributes} {snapshots : List Attributes} {state : InstallState}
  {f : Failure}

/-- A complete snapshot of which no endpoint can be made is refused, and nothing happens. -/
theorem applySnapshot_of_malformed (h : a.Completes (.error f)) (r : Run) :
    (applySnapshot (.obj a)).outcome r = (.error f, r) := by
  rw [applySnapshot_outcome, h.signals, h.ofSnapshot_eq]

/-- Every other state that a snapshot signals is proposed without an endpoint. -/
theorem applySnapshot_of_signals (h : a.Signals state) (hne : state ≠ .completed) (r : Run) :
    (applySnapshot (.obj a)).outcome r = (.ok state.isFinal, r.proceed state) := by
  rw [applySnapshot_outcome, h]
  cases state with
  | completed => exact absurd rfl hne
  | _ => rfl

/-- A snapshot that ends the installation proposes its final state, and says so. -/
theorem applySnapshot_of_decides (h : a.Decides state) (r : Run) :
    ∃ endpoint, (applySnapshot (.obj a)).outcome r = (.ok true, (r.enter state endpoint).2) := by
  cases h with
  | failed h => exact ⟨none, applySnapshot_of_signals h nofun r⟩
  | @completed endpoint h =>
    refine ⟨some endpoint, ?_⟩
    rw [applySnapshot_outcome, h.signals, h.ofSnapshot_eq]

/-- A snapshot that signals no end raises the state to the signalled one. -/
theorem applySnapshot_joins (hr : r.Coherent) (hopen : r.server.state.isFinal = false)
    (hcompleted : ¬ a.Signals .completed) (hfailed : ¬ a.Signals .failed) :
    ∃ m, (applySnapshot (.obj a)).outcome r = (.ok false, m) ∧ m.server.state.isFinal = false ∧
      IsGreatest {t | t = r.server.state ∨ a.Signals t} m.server.state := by
  by_cases hsome : ∃ next, a.Signals next
  · obtain ⟨next, hnext⟩ := hsome
    have hgoing : next.isFinal = false := by
      rw [← Bool.not_eq_true, InstallState.isFinal_iff]
      rintro (rfl | rfl | rfl)
      · exact hcompleted hnext
      · exact hfailed hnext
      · exact signalledState_ne_canceled _ hnext
    have hstate : (r.proceed next).server.state = max r.server.state next := by
      rw [proceed, state_enter hr, hopen]
      rfl
    -- the snapshot signals one state only
    have hset : {t | t = r.server.state ∨ a.Signals t} = {t | t = r.server.state ∨ t = next} := by
      apply Set.ext
      intro t
      refine or_congr_right ⟨fun ht => ht.unique hnext, ?_⟩
      rintro rfl
      exact hnext
    have hgreatest := InstallState.isGreatest_max r.server.state next
    rw [← hset, ← hstate] at hgreatest
    refine ⟨r.proceed next, ?_, ?_, hgreatest⟩
    · rw [← hgoing]
      apply applySnapshot_of_signals hnext
      rintro rfl
      exact hcompleted hnext
    · rcases hgreatest.1 with h | h
      · rw [h, hopen]
      · rw [h.unique hnext, hgoing]
  · -- nothing is signalled
    have hnone : signalledState (.obj a) = .ok none := by
      obtain ⟨signalled, h⟩ : ∃ signalled, signalledState (.obj a) = .ok signalled :=
        ⟨_, Attributes.signalledState_obj a⟩
      cases signalled with
      | none => exact h
      | some next => exact absurd ⟨next, h⟩ hsome
    refine ⟨r, by rw [applySnapshot_outcome, hnone], hopen, Or.inl rfl, ?_⟩
    rintro t (rfl | ht)
    · exact Nat.le_refl _
    · exact absurd ⟨t, ht⟩ hsome

/-! ## §4 Entering one after another -/

/-- The run after somebody has entered some snapshots, one after another. -/
def enterAll (r : Run) (snapshots : List Attributes) : Run :=
  r.after (snapshots.map fun a => .apply (.obj a))

theorem enterAll_cons (r : Run) (a : Attributes) (snapshots : List Attributes) :
    r.enterAll (a :: snapshots) = ((applySnapshot (.obj a)).outcome r).2.enterAll snapshots := rfl

theorem enterAll_append (r : Run) (snapshots snapshots' : List Attributes) :
    r.enterAll (snapshots ++ snapshots') = (r.enterAll snapshots).enterAll snapshots' := by
  rw [enterAll, List.map_append, after_append]
  rfl

/-- What comes back from entering a snapshot after some others. -/
def answerAfter (r : Run) (before : List Attributes) (a : Attributes) : Except Failure Bool :=
  ((applySnapshot (.obj a)).outcome (r.enterAll before)).1

theorem enterAll_onward (r : Run) (snapshots : List Attributes) :
    Onward (fun _ => True) r (r.enterAll snapshots) :=
  after_onward r _

/-- As long as nothing is decided the installation goes on. -/
theorem enterAll_of_not_decides (hr : r.Coherent) (hopen : r.server.state.isFinal = false)
    (h : ∀ a ∈ snapshots, ∀ state, ¬ a.Decides state) :
    (r.enterAll snapshots).server.state.isFinal = false := by
  induction snapshots generalizing r with
  | nil => exact hopen
  | cons a snapshots ih =>
    have hrest : ∀ b ∈ snapshots, ∀ state, ¬ b.Decides state :=
      fun b hb => h b (List.mem_cons_of_mem _ hb)
    rw [enterAll_cons]
    rcases Attributes.cases_of_not_decides (h a List.mem_cons_self) with
      ⟨hcompleted, hfailed⟩ | ⟨f, hmalformed⟩
    · have hm := (r.move_onward (.apply (.obj a))).coherent hr
      obtain ⟨m, hm', hgoing, -⟩ := applySnapshot_joins hr hopen hcompleted hfailed
      simp only [move, hm'] at hm ⊢
      exact ih hm hgoing hrest
    · rw [applySnapshot_of_malformed hmalformed]
      exact ih hr hopen hrest

/-- Snapshots that signal no end raise the state to the highest that was signalled. -/
theorem enterAll_joins (hr : r.Coherent) (hopen : r.server.state.isFinal = false)
    (h : ∀ a ∈ snapshots, ¬ a.Signals .completed ∧ ¬ a.Signals .failed) :
    IsGreatest {t | t = r.server.state ∨ ∃ a ∈ snapshots, a.Signals t}
      (r.enterAll snapshots).server.state := by
  induction snapshots generalizing r with
  | nil =>
    refine ⟨Or.inl rfl, ?_⟩
    rintro t (rfl | ⟨a, ha, -⟩)
    · exact Nat.le_refl _
    · cases ha
  | cons a snapshots ih =>
    obtain ⟨hcompleted, hfailed⟩ := h a List.mem_cons_self
    have hm := (r.move_onward (.apply (.obj a))).coherent hr
    obtain ⟨m, hm', hgoing, hstate⟩ := applySnapshot_joins hr hopen hcompleted hfailed
    simp only [move, hm'] at hm
    rw [enterAll_cons, hm']
    have hrest := ih hm hgoing fun b hb => h b (List.mem_cons_of_mem _ hb)
    refine ⟨?_, ?_⟩
    · -- the state after the others is that after the first, or one of them signals it
      rcases hrest.1 with heq | ⟨b, hb, hsignal⟩
      · rw [heq]
        exact hstate.1.imp id fun hsignal => ⟨a, List.mem_cons_self, hsignal⟩
      · exact Or.inr ⟨b, List.mem_cons_of_mem _ hb, hsignal⟩
    · rintro t (rfl | ⟨b, hb, hsignal⟩)
      · exact Nat.le_trans (hstate.2 (Or.inl rfl)) (hrest.2 (Or.inl rfl))
      · rcases List.mem_cons.mp hb with rfl | hb
        · exact Nat.le_trans (hstate.2 (Or.inr hsignal)) (hrest.2 (Or.inl rfl))
        · exact hrest.2 (Or.inr ⟨b, hb, hsignal⟩)

/-- A snapshot that decides leaves its state, and nothing that is entered later changes it. -/
theorem enterAll_of_decides (hr : r.Coherent) (hopen : r.server.state.isFinal = false)
    (h : a.Decides state) (later : List Attributes) :
    ((applySnapshot (.obj a)).outcome r).1 = .ok true ∧
      (r.enterAll [a]).server.state = state ∧
      (r.enterAll (a :: later)).server.install = (r.enterAll [a]).server.install ∧
      (r.enterAll (a :: later)).server.endpoint = (r.enterAll [a]).server.endpoint := by
  obtain ⟨endpoint, houtcome⟩ := applySnapshot_of_decides h r
  have hm : (r.enterAll [a]).Coherent := (r.enterAll_onward [a]).coherent hr
  have hstate : (r.enterAll [a]).server.state = state := by
    rw [enterAll_cons, houtcome]
    show (r.enter state endpoint).2.server.state = state
    rw [state_enter_of_isFinal hr h.isFinal, hopen]
    rfl
  have hclosed : (r.enterAll [a]).server.install.closed = true := by
    rw [hm.closed_eq, hstate, h.isFinal]
  exact ⟨by rw [houtcome], hstate, ((r.enterAll [a]).enterAll_onward later).closed hclosed⟩

end Run

/-! ## §5 Servers -/

namespace Launch

/-- Somebody enters any snapshots one after another while the installation goes on. If none of them
signals an end, every call says that there are more to come and the state goes up to the highest
that was signalled; so only the snapshots count and not their order or how often they come. If one
of them decides, the first that does has its state entered and says so, and those after it change
neither the stream nor the endpoint. A complete snapshot of which no endpoint can be made fails, and
the run stays as it was. -/
theorem snapshots_join (l : Launch) (course : List (World × Move)) (snapshots : List Attributes)
    (hopen : (l.start.amid course).server.state.isFinal = false) :
    let r := l.start.amid course
    let state snapshots := (r.enterAll snapshots).server.state
    ((∀ a ∈ snapshots, ¬ a.Signals .completed ∧ ¬ a.Signals .failed) →
      (∀ before a later, snapshots = before ++ a :: later → r.answerAfter before a = .ok false) ∧
      IsGreatest {t | t = r.server.state ∨ ∃ a ∈ snapshots, a.Signals t} (state snapshots) ∧
      ∀ others, (∀ a, a ∈ others ↔ a ∈ snapshots) → state others = state snapshots) ∧
    (∀ before a later final, snapshots = before ++ a :: later →
      (∀ b ∈ before, ∀ t, ¬ b.Decides t) → a.Decides final →
      r.answerAfter before a = .ok true ∧ state (before ++ [a]) = final ∧
      (r.enterAll snapshots).server.install = (r.enterAll (before ++ [a])).server.install ∧
      (r.enterAll snapshots).server.endpoint = (r.enterAll (before ++ [a])).server.endpoint) ∧
    ∀ before a later f, snapshots = before ++ a :: later → a.Completes (.error f) →
      r.answerAfter before a = .error f ∧ r.enterAll (before ++ [a]) = r.enterAll before := by
  intro r state
  have hr : r.Coherent := (amid_sound l.start_sound course).toCoherent
  refine ⟨fun hnone => ⟨?_, ?_, ?_⟩, ?_, ?_⟩
  · rintro before a later rfl
    -- the snapshots before this one do not end the installation either
    have hgoing : (r.enterAll before).server.state.isFinal = false := by
      apply enterAll_of_not_decides hr hopen
      rintro b hb t (hfailed | hcompleted)
      · exact (hnone b (List.mem_append_left _ hb)).2 hfailed
      · exact (hnone b (List.mem_append_left _ hb)).1 hcompleted.signals
    obtain ⟨hcompleted, hfailed⟩ := hnone a (List.mem_append_right _ List.mem_cons_self)
    obtain ⟨m, hm, -⟩ := applySnapshot_joins ((r.enterAll_onward before).coherent hr) hgoing
      hcompleted hfailed
    rw [answerAfter, hm]
  · exact enterAll_joins hr hopen hnone
  · intro others hothers
    have hothers' : {t | t = r.server.state ∨ ∃ a ∈ others, a.Signals t} =
        {t | t = r.server.state ∨ ∃ a ∈ snapshots, a.Signals t} := by
      simp only [hothers]
    have hjoins := enterAll_joins hr hopen fun a ha => hnone a ((hothers a).mp ha)
    rw [hothers'] at hjoins
    exact InstallState.eq_of_isGreatest hjoins (enterAll_joins hr hopen hnone)
  · rintro before a later final rfl hbefore hdecides
    have hgoing := enterAll_of_not_decides hr hopen hbefore
    have hcoherent := (r.enterAll_onward before).coherent hr
    rw [enterAll_append, enterAll_append]
    obtain ⟨htrue, hstate, hinstall, hendpoint⟩ :=
      enterAll_of_decides hcoherent hgoing hdecides later
    refine ⟨htrue, ?_, hinstall, hendpoint⟩
    show (r.enterAll (before ++ [a])).server.state = final
    rw [enterAll_append, hstate]
  · rintro before a later f - hmalformed
    have houtcome := applySnapshot_of_malformed hmalformed (r.enterAll before)
    refine ⟨by rw [answerAfter, houtcome], ?_⟩
    rw [enterAll_append, enterAll_cons, houtcome]
    rfl

/-- A completed installation stays completed when a failure is signalled later. -/
theorem snapshots_join_upon_completion :
    let started : Attributes := [("install-started", .str "")]
    let complete : Attributes := [("apiUrl", .str "https://host"), ("certSha256", .str "QUI=")]
    let failed : Attributes := [("install-error", .str "")]
    let r := (against []).start
    r.server.state.isFinal = false ∧ complete.Decides .completed ∧
      (∀ state, ¬ started.Decides state) ∧
      (r.enterAll [started, complete]).server.state = .completed ∧
      (r.enterAll [started, complete, failed]).server.install =
        (r.enterAll [started, complete]).server.install := by
  intro started complete failed r
  have hcomplete : complete.Completes (.ok ⟨.str "https://host", "AB"⟩) :=
    ⟨rfl, _, _, rfl, rfl, rfl⟩
  have hdecides : complete.Decides .completed := .completed hcomplete
  have hbefore : ∀ state, ¬ started.Decides state := by
    rintro state (h | h)
    · cases h
    · cases h.signals
  obtain ⟨-, hfirst, -⟩ := snapshots_join (against []) [] [started, complete, failed] rfl
  obtain ⟨-, hstate, hinstall, -⟩ := hfirst [started] complete [failed] .completed rfl
    (by simpa using hbefore) hdecides
  exact ⟨rfl, hdecides, hbefore, hstate, hinstall⟩

end Launch

end Fleet
