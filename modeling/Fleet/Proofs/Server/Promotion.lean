import Fleet.Proofs.Server.Entries
import Fleet.Proofs.Server.Polling
import Fleet.Proofs.Server.Setup

/-!
# Reporting an address as static

That the address of a server is static is reported by the last phase of the setup.  The exchanges by
which provisioning has come there are the evidence for it: either an address was found, and nothing
else has been exchanged, or none was found and that of the instance was promoted.  An answer that
refuses the promotion stands on no such way.

## Main definitions

- `Client.ReservesAddress`: the requests that reserve an address
- `Server.Refuses`: an exchange that refuses the promotion

## Main statements

- `Run.confirming_of_allocated`: only one phase of provisioning reports the address
- `Launch.reserves_once`: a server reserves one address at most
- `Launch.allocation_is_evident`: an address is reported as static only with evidence
-/

namespace Fleet

open Run World Stage Json

/-! ## §1 Reporting the address -/

namespace Run

variable {r m : Run}

theorem Meanwhile.state_eq (h : Meanwhile r m) :
    m.server.state = r.server.state ∨ m.server.state = .canceled := by
  unfold Server.state
  rcases h.install_cases with hsame | hcanceled
  · exact Or.inl (by rw [hsame])
  · exact Or.inr (by rw [hcanceled])

/-- A stage that proposes no state leaves it, or the installation is called off or fails. -/
theorem state_setUp (hr : r.Coherent) {stage : Stage Phase}
    (h : r.server.phase.setup? = some stage) (hm : Meanwhile r (stage.outcome r).2) :
    r.step.server.state = r.server.state ∨ r.step.server.state = .canceled ∨
      r.step.server.state = .failed := by
  have hcoherent : (stage.outcome r).2.Coherent :=
    (Phase.setup?_conveys h).evolves.onward.coherent hr
  rw [step_of_setup? h, setUp]
  rcases hout : stage.outcome r with ⟨f | next, m⟩
  all_goals
    rw [hout] at hm hcoherent
  · simp only
    rw [state_abandon hcoherent]
    split
    · exact hm.state_eq.imp_right Or.inl
    · exact Or.inr (Or.inr rfl)
  · exact hm.state_eq.imp_right Or.inl

/-- That the address is static is reported by one phase of provisioning only. -/
theorem confirming_of_allocated (hr : r.Coherent)
    (h : .ipAllocated ∈ r.world.transitionsSince r.step.world) :
    r.server.phase = .confirmingAddress := by
  have hascent := (step_onward r).ascent hr
  have hlt : r.server.state < .ipAllocated := hascent.lt_of_mem h
  have hstate : r.step.server.state = .ipAllocated := by
    -- the only state that the phase enters is the one in which it leaves the installation
    have hone := r.length_transitionsSince_step_le
    have hlast := hascent.getLast_eq
    cases htransitions : r.world.transitionsSince r.step.world with
    | nil =>
      rw [htransitions] at h
      cases h
    | cons next rest =>
      rw [htransitions] at h hone hlast
      have hempty : rest.length = 0 := Nat.le_zero.mp (Nat.le_of_succ_le_succ hone)
      obtain rfl := List.length_eq_zero_iff.mp hempty
      obtain rfl := List.mem_singleton.mp h
      exact hlast.symm
  have hopen : r.server.state.isFinal = false := by
    cases hs : r.server.state <;> first | rfl | (rw [hs] at hlt; exact absurd hlt (by decide))
  have hother : ¬ (r.step.server.state = r.server.state ∨ r.step.server.state = .canceled ∨
      r.step.server.state = .failed) := by
    rw [hstate]
    rintro (heq | hcanceled | hfailed)
    · rw [← heq] at hlt
      exact absurd hlt (by decide)
    · cases hcanceled
    · cases hfailed
  have hraised {next : InstallState} (hne : next ≠ .ipAllocated) :
      max r.server.state next ≠ .ipAllocated := by
    by_cases hnext : r.server.state < next
    · rw [InstallState.max_of_lt hnext]
      exact hne
    · rw [InstallState.max_of_not_lt hnext]
      intro heq
      rw [heq] at hlt
      exact absurd hlt (by decide)
  cases hphase : r.server.phase with
  | confirmingAddress => rfl
  | awaitingInstance =>
    -- this phase reports that there is an instance
    have hstep : r.step = r.setUp awaitInstance := step_of_setup? (by rw [hphase]; rfl)
    rw [hstep, setUp, awaitInstance_outcome] at hstate hother
    cases hcreation : r.server.creation with
    | error f =>
      rw [hcreation] at hstate hother
      simp only [state_abandon hr, hopen] at hstate
      cases hstate
    | ok created =>
      rw [hcreation] at hstate hother
      cases hclosed : r.server.install.closed with
      | true =>
        rw [hr.closed_eq, hopen] at hclosed
        cases hclosed
      | false =>
        simp only [hclosed] at hstate
        have hentered : (r.proceed .instanceCreated).server.state = .ipAllocated := hstate
        rw [proceed, state_enter hr, hopen] at hentered
        exact absurd hentered (hraised (by decide))
  | consultingAddress =>
    refine absurd (state_setUp hr (by rw [hphase]; rfl) ?_) hother
    rw [consultAddress_outcome]
    split <;> exact .idle (.refl r)
  | describingInstance =>
    exact absurd (state_setUp hr (by rw [hphase]; rfl) (describeInstance_receives r).meanwhile)
      hother
  | reservingAddress =>
    exact absurd (state_setUp hr (by rw [hphase]; rfl) (reserveAddress_receives _ _ r).meanwhile)
      hother
  | awaitingAddress =>
    exact absurd (state_setUp hr (by rw [hphase]; rfl) (awaitAddress_receives _ _ r).meanwhile)
      hother
  | settling =>
    exact absurd (Or.inl (by simp only [step, hphase]; rfl)) hother
  | polling deadline =>
    -- a poll enters what a snapshot signals, which is another state
    obtain ⟨-, hpolled, -⟩ := step_of_polling hr hphase hopen
    rw [hstate] at hpolled
    split at hpolled
    · cases hpolled
    · cases hnext : polledState? (r.world.snapshot r.server.attributesRequest) with
      | none =>
        rw [hnext] at hpolled
        exact absurd (Or.inl (hstate.trans hpolled)) hother
      | some next =>
        rw [hnext] at hpolled
        refine absurd hpolled.symm (hraised ?_)
        rcases polledState?_cases hnext with rfl | rfl | rfl | rfl <;> decide
  | pausing deadline =>
    have hpause : r.server.phase = if false then .finished else .pausing deadline := hphase
    obtain ⟨-, hpaused, -⟩ := step_after_poll hr hpause (absurd · Bool.false_ne_true)
    rw [hstate] at hpaused
    split at hpaused
    · cases hpaused
    · exact absurd (Or.inl (hstate.trans hpaused)) hother
  | finished =>
    exact absurd (Or.inl (by simp only [step, hphase])) hother

end Run

/-! ## §2 Evidence -/

/-- The request reserves an address in some region. -/
def Client.ReservesAddress (client : Client) (request : Request) : Prop :=
  request.method = "POST" ∧
    ∃ region, request.url = client.computeUrl (Client.regionPath region ++ "/addresses")

namespace Client

variable {client : Client} {request : Request}

theorem not_reservesAddress_of_get (h : request.method = "GET") :
    ¬ client.ReservesAddress request := by
  rintro ⟨hpost, -⟩
  rw [h] at hpost
  exact absurd hpost (by decide)

/-- Waiting for an operation is not reserving an address: the URLs end in different ways. -/
theorem not_reservesAddress_wait (client : Client) (region : RegionLocator) (name : String) :
    ¬ client.ReservesAddress (client.waitRegionOperation region name) := by
  rintro ⟨-, region', hurl⟩
  have hlast := congrArg (fun url : String => url.toList.getLast?) hurl
  simp [waitRegionOperation, computeUrl, String.toList_append, List.getLast?_cons] at hlast

end Client

namespace Server

variable {s : Server} {es : List Exchange} {e : Exchange}

/-- The setup reserves one address at most. -/
theorem Asks.pairwise (h : s.Asks es) : (es.map (·.request)).Pairwise fun request later =>
    s.client.ReservesAddress request → ¬ s.client.ReservesAddress later := by
  cases h with
  | nothing => exact .nil
  | described => exact List.pairwise_singleton _ _
  | @reserved region data address described e waits _ hdescribed _ hwaits =>
    have hnot : ∀ request ∈ waits.map (·.request), ¬ s.client.ReservesAddress request := by
      intro request hrequest
      obtain ⟨e, he, rfl⟩ := List.mem_map.mp hrequest
      obtain ⟨name, hname⟩ := hwaits e he
      rw [hname]
      exact s.client.not_reservesAddress_wait _ name
    simp only [List.map_cons, List.pairwise_cons]
    refine ⟨fun later _ hfirst => ?_, fun later hlater _ => hnot later hlater, ?_⟩
    · rw [hdescribed.request_eq] at hfirst
      exact absurd hfirst (Client.not_reservesAddress_of_get rfl)
    · apply List.pairwise_of_forall_mem_list
      intro request _ later hlater _
      exact hnot later hlater

/-- The exchange refuses the promotion: the instance is not described with an ephemeral address, or
an operation fails or has errors. -/
def Refuses (s : Server) (e : Exchange) : Prop :=
  (e.request = s.client.getInstance s.locator ∧
    ∀ data address, e.content = .ok data → ¬ data.IsEphemeralAddress address) ∨
  (e.request.method = "POST" ∧
    ∀ operation, e.content = .ok operation → ¬ Operation.IsClean operation)

theorem attributesRequest_ne_getInstance (s : Server) :
    s.attributesRequest ≠ s.client.getInstance s.locator := by
  intro h
  exact s.not_establishes_attributesRequest (Or.inr ⟨rfl, congrArg Request.url h⟩)

theorem not_refuses_of_poll (h : e.request = s.attributesRequest) : ¬ s.Refuses e := by
  rintro (⟨hrequest, -⟩ | ⟨hpost, -⟩)
  · exact s.attributesRequest_ne_getInstance (h.symm.trans hrequest)
  · rw [h] at hpost
    exact absurd hpost (by simp [attributesRequest, Client.getGuestAttributes])

theorem Awaits.not_refuses {region : RegionLocator} {name operation : Json}
    (h : s.Awaits region name operation e) : ¬ s.Refuses e := by
  rintro (⟨hrequest, -⟩ | ⟨-, hrefused⟩)
  · rw [h.request_eq] at hrequest
    exact absurd (congrArg Request.method hrequest) (by
      simp [Client.waitRegionOperation, Client.getInstance])
  · exact hrefused operation h.content_eq h.clean

theorem HasReserved.not_refuses {region : RegionLocator} {operation : Json}
    (h : s.HasReserved region operation es) : ∀ e ∈ es, ¬ s.Refuses e := by
  obtain ⟨described, reserved, data, address, rfl, hdescribed, hsubmits, hcontent, hclean⟩ := h
  intro e he
  rcases List.mem_pair.mp he with rfl | rfl
  · rintro (⟨-, hrefused⟩ | ⟨hpost, -⟩)
    · exact hrefused data address hdescribed.content_eq hdescribed.isEphemeral
    · rw [hdescribed.request_eq] at hpost
      exact absurd hpost (by simp [Client.getInstance])
  · rintro (⟨hrequest, -⟩ | ⟨-, hrefused⟩)
    · rw [hsubmits.request_eq] at hrequest
      exact absurd (congrArg Request.method hrequest) (by
        simp [Client.createAddress, Client.getInstance])
    · exact hrefused operation hcontent hclean

/-- Nothing on the way to a promoted address has refused it. -/
theorem Promotes.not_refuses (h : s.Promotes es) : ∀ e ∈ es, ¬ s.Refuses e := by
  cases h with
  | nameless hreserved => exact hreserved.not_refuses
  | awaited hreserved _ _ hwaits hlast =>
    intro e he
    rw [List.append_assoc] at he
    rcases List.mem_append.mp he with he | he
    · exact hreserved.not_refuses e he
    · rcases List.mem_append.mp he with he | he
      · obtain ⟨operation, hawaits, -⟩ := hwaits e he
        exact hawaits.not_refuses
      · rw [List.mem_singleton.mp he]
        exact hlast.not_refuses

end Server

namespace Launch

variable {l : Launch} {course before rest : List (World × Move)} {w : World}

/-- Looking for an address is no request of the setup. -/
theorem not_establishes_of_check? {e : Exchange} (h : l.check? = some e) :
    ¬ l.start.server.Establishes e.request := by
  obtain ⟨region, hregion, he⟩ := Option.bind_eq_some_iff.mp h
  rw [request_of_exchange? he]
  have hproject : region.project = l.locator.project := by
    unfold InstanceLocator.regionLocator ZoneLocator.regionLocator at hregion
    cases hzone : Zone.region l.locator.zoneLocator.zone with
    | error f =>
      rw [hzone] at hregion
      cases hregion
    | ok region =>
      rw [hzone] at hregion
      cases hregion
      rfl
  rintro (hpost | ⟨-, hurl⟩)
  · exact absurd hpost (by simp [Client.getAddress])
  · -- the paths go on in different ways after the project
    have hchars : (l.client.getAddress region l.name.text).url.toList =
        (l.client.getInstance l.locator).url.toList := congrArg String.toList hurl
    simp [Client.getAddress, Client.getInstance, Client.computeUrl, Client.regionPath,
      Client.instancePath, Client.zonePath, hproject, InstanceLocator.zoneLocator,
      String.toList_append] at hchars

/-- An address that is reported as static was found, or it was promoted. -/
theorem evidence_of_allocated (hcourse : course = before ++ (w, .provision) :: rest)
    (h : .ipAllocated ∈ ((l.start.amid before).within w).world.transitionsSince
      ((l.start.amid before).within w).step.world) :
    l.creation = .ok () ∧
      (l.start.server.addressCheck = .ok true ∧ l.start.exchanges before = [] ∨
        l.start.server.addressCheck = .ok false ∧
          l.start.server.Promotes (l.start.exchanges before)) ∧
      ∃ polls, l.start.exchanges course = l.start.exchanges before ++ polls ∧
        ∀ e ∈ polls, e.request = l.start.server.attributesRequest := by
  have hsound : ((l.start.amid before).within w).Sound :=
    within_sound (amid_sound l.start_sound before) w
  have hphase : ((l.start.amid before).within w).server.phase = .confirmingAddress :=
    confirming_of_allocated hsound.toCoherent h
  rw [within_server] at hphase
  obtain ⟨setup, polls, hsetup, -, -, hend⟩ := exchanges_reach (.refl l.start) rfl before
  rw [List.nil_append] at hsetup
  rcases hend with hleft | ⟨rfl, hreach⟩
  · rw [hphase] at hleft
    cases hleft
  · rw [List.append_nil] at hsetup
    rw [hphase] at hreach
    obtain ⟨hcreation, hreach⟩ := hreach
    rw [hsetup]
    refine ⟨hcreation, ?_, ?_⟩
    · rcases hreach with ⟨hcheck, rfl⟩ | ⟨hcheck, hpromotes⟩
      · exact Or.inl ⟨hcheck, rfl⟩
      · exact Or.inr ⟨hcheck, hpromotes⟩
    · -- the phase that reports the address is the last of the setup, and it makes no request
      let p := (l.start.amid before).within w
      have hnone : p.exchangeOf .provision = none :=
        exchange?_of_no_request (by simp only [request?, p, within_server, hphase])
      have hleft : (p.move .provision).server.phase.setup? = none := by
        have hconfirming : p.server.phase = .confirmingAddress := hphase
        show p.step.server.phase.setup? = none
        rw [phase_step_of_confirming hconfirming]
        rfl
      have honward : Onward (fun _ => True) l.start (p.move .provision) :=
        ((amid_onward l.start before).trans (within_onward _ w)).trans
          ((move_onward p .provision).mono fun _ _ => trivial)
      refine ⟨(p.move .provision).exchanges rest, ?_, ?_⟩
      · rw [hcourse, exchanges_append, hsetup, exchanges, hnone]
        rfl
      · rw [← honward.attributesRequest_eq]
        exact requests_of_exchanges_of_setup? hleft rest

/-- An address is reported as static only if the look for one was answered. -/
theorem addressCheck_of_allocated (hcourse : course = before ++ (w, .provision) :: rest)
    (h : .ipAllocated ∈ ((l.start.amid before).within w).world.transitionsSince
      ((l.start.amid before).within w).step.world) :
    ∃ found, l.start.server.addressCheck = .ok found := by
  obtain ⟨-, ⟨hstatic, -⟩ | ⟨hnone, -⟩, -⟩ := evidence_of_allocated hcourse h
  · exact ⟨true, hstatic⟩
  · exact ⟨false, hnone⟩

/-- What is requested in a course, but for deletions, are the look for a static address and then the
exchanges of provisioning. -/
theorem requests_of_exchanges (l : Launch) (course : List (World × Move)) :
    (l.world.requestsSince (l.start.amid course).world).filter (·.method != "DELETE") =
      (l.check?.toList ++ l.start.exchanges course).map (·.request) := by
  rw [requestsSince_trans l.start_extends (amid_onward l.start course).journal,
    List.filter_append, Run.requests_of_exchanges, List.map_append, ← l.start_checks.1]
  congr 1
  apply List.filter_eq_self.mpr
  intro request hrequest
  simpa using l.not_deletes_start hrequest

theorem deletes_or_exchanged {request : Request}
    (h : request ∈ l.world.requestsSince (l.start.amid course).world) :
    request.method = "DELETE" ∨
      ∃ e ∈ l.check?.toList ++ l.start.exchanges course, e.request = request := by
  by_cases hdelete : request.method = "DELETE"
  · exact Or.inl hdelete
  · have hkept : request ∈ (l.world.requestsSince (l.start.amid course).world).filter
        (·.method != "DELETE") := List.mem_filter.mpr ⟨h, by simpa using hdelete⟩
    rw [l.requests_of_exchanges course] at hkept
    exact Or.inr (List.mem_map.mp hkept)

/-- At most one address is reserved in the course of a server. -/
theorem reserves_once (l : Launch) (course : List (World × Move)) :
    (l.world.requestsSince (l.start.amid course).world).Pairwise fun request later =>
      l.client.ReservesAddress request → ¬ l.client.ReservesAddress later := by
  obtain ⟨setup, polls, hsetup, hasks, hpolls, -⟩ := exchanges_reach (.refl l.start) rfl course
  rw [List.nil_append] at hsetup
  have hkept : ((l.check?.toList ++ l.start.exchanges course).map (·.request)).Pairwise
      fun request later => l.client.ReservesAddress request → ¬ l.client.ReservesAddress later := by
    have hcheck : ∀ request ∈ l.check?.toList.map (·.request),
        ¬ l.client.ReservesAddress request := by
      intro request hrequest
      obtain ⟨e, he, rfl⟩ := List.mem_map.mp hrequest
      obtain ⟨region, -, he⟩ := Option.bind_eq_some_iff.mp (Option.mem_toList.mp he)
      rw [request_of_exchange? he]
      exact Client.not_reservesAddress_of_get rfl
    have hpolled : ∀ request ∈ polls.map (·.request), ¬ l.client.ReservesAddress request := by
      intro request hrequest
      obtain ⟨e, he, rfl⟩ := List.mem_map.mp hrequest
      rw [hpolls e he]
      exact Client.not_reservesAddress_of_get rfl
    rw [hsetup, List.map_append, List.map_append]
    refine List.pairwise_append.mpr ⟨?_, List.pairwise_append.mpr ⟨hasks.pairwise, ?_, ?_⟩, ?_⟩
    · apply List.pairwise_of_forall_mem_list
      intro request hrequest later _ hfirst
      exact absurd hfirst (hcheck request hrequest)
    · apply List.pairwise_of_forall_mem_list
      intro request _ later hlater _
      exact hpolled later hlater
    · intro request _ later hlater _
      exact hpolled later hlater
    · intro request hrequest later _ hfirst
      exact absurd hfirst (hcheck request hrequest)
  rw [← l.requests_of_exchanges, List.pairwise_filter] at hkept
  apply hkept.imp
  intro request later h hfirst hlater
  exact h (by simp [hfirst.1]) (by simp [hlater.1]) hfirst hlater

/-- If provisioning has only polled, nothing of the setup was requested. -/
theorem not_establishes_of_polls (l : Launch)
    (h : ∀ e ∈ l.start.exchanges course, e.request = l.start.server.attributesRequest) :
    ∀ request ∈ l.world.requestsSince (l.start.amid course).world,
      ¬ l.start.server.Establishes request := by
  intro request hrequest
  rcases deletes_or_exchanged hrequest with hdelete | ⟨e, he, rfl⟩
  · rintro (hpost | ⟨hget, -⟩)
    · rw [hdelete] at hpost
      exact absurd hpost (by decide)
    · rw [hdelete] at hget
      exact absurd hget (by decide)
  · rcases List.mem_append.mp he with he | he
    · exact not_establishes_of_check? (Option.mem_toList.mp he)
    · rw [h e he]
      exact Server.not_establishes_attributesRequest _

/-- Whatever becomes of the instance, whatever is answered and whenever the installation is called
off: provisioning reports the address as static only if the instance was created and the look for a
static address has found one, in which case the instance is not described and nothing is sent by
POST, or it was answered that there is none and the address was promoted. No more than one address
is ever reserved, and no address is reported after any other answer to the look for one, or after an
exchange that refuses the promotion. -/
theorem allocation_is_evident (l : Launch) (course : List (World × Move)) :
    let s := l.start.server
    let requests := l.world.requestsSince (l.start.amid course).world
    let exchanges := l.start.exchanges course
    let allocatedAfter (before : List (World × Move)) (w : World) :=
      let p := (l.start.amid before).within w
      .ipAllocated ∈ p.world.transitionsSince p.step.world
    requests.filter (·.method != "DELETE") =
      (l.check?.toList ++ exchanges).map (·.request) ∧
    (requests.Pairwise fun request later =>
      l.client.ReservesAddress request → ¬ l.client.ReservesAddress later) ∧
    (∀ before w rest, course = before ++ (w, .provision) :: rest → allocatedAfter before w →
      l.creation = .ok () ∧ ∃ check, l.check? = some check ∧
        ((∃ content, check.content = .ok content) ∧
            (∀ request ∈ requests, ¬ s.Establishes request) ∨
          check.answer.status? = some 404 ∧ s.Promotes (l.start.exchanges before) ∧
            ∃ polls, exchanges = l.start.exchanges before ++ polls ∧
              ∀ e ∈ polls, e.request = s.attributesRequest)) ∧
    ((∀ check, l.check? = some check →
        (∀ content, check.content ≠ .ok content) ∧ check.answer.status? ≠ some 404) ∨
      (∃ e ∈ exchanges, s.Refuses e) →
      ∀ before w rest, course = before ++ (w, .provision) :: rest → ¬ allocatedAfter before w) := by
  intro s requests exchanges allocatedAfter
  have hchecked := l.start_checks.2
  refine ⟨l.requests_of_exchanges course, l.reserves_once course, ?_, ?_⟩
  · intro before w rest hcourse hallocated
    obtain ⟨hcreation, hevidence, polls, hexchanges, hpolls⟩ :=
      evidence_of_allocated hcourse hallocated
    refine ⟨hcreation, ?_⟩
    obtain ⟨found, hfound⟩ := addressCheck_of_allocated hcourse hallocated
    rcases hchecked with ⟨f, hf⟩ | ⟨check, hcheck, hshown⟩
    · rw [hf] at hfound
      cases hfound
    · refine ⟨check, hcheck, ?_⟩
      rcases hevidence with ⟨h, hnone⟩ | ⟨h, hpromotes⟩
      · left
        rcases hshown with ⟨hcontent, -⟩ | ⟨-, hmissing⟩
        · refine ⟨hcontent, l.not_establishes_of_polls ?_⟩
          rw [hexchanges, hnone]
          exact hpolls
        · rw [h] at hmissing
          cases hmissing
      · right
        rcases hshown with ⟨-, hfound⟩ | ⟨hstatus, -⟩
        · rw [h] at hfound
          cases hfound
        · exact ⟨hstatus, hpromotes, polls, hexchanges, hpolls⟩
  · intro hrefused before w rest hcourse hallocated
    obtain ⟨-, hevidence, polls, hexchanges, hpolls⟩ := evidence_of_allocated hcourse hallocated
    obtain ⟨found, hfound⟩ := addressCheck_of_allocated hcourse hallocated
    rcases hrefused with hother | ⟨e, he, hrefuses⟩
    · rcases hchecked with ⟨f, hf⟩ | ⟨check, hcheck, hshown⟩
      · rw [hf] at hfound
        cases hfound
      · obtain ⟨hcontent, hstatus⟩ := hother check hcheck
        rcases hshown with ⟨⟨content, hok⟩, -⟩ | ⟨hmissing, -⟩
        · exact hcontent content hok
        · exact hstatus hmissing
    · simp only [exchanges, hexchanges] at he
      rcases List.mem_append.mp he with he | he
      · rcases hevidence with ⟨-, hnone⟩ | ⟨-, hpromotes⟩
        · rw [hnone] at he
          cases he
        · exact hpromotes.not_refuses e he hrefuses
      · exact Server.not_refuses_of_poll (hpolls e he) hrefuses

-- the address is not found, the instance has one, and the operation that reserves it has no name
example :
    let missing : Rule :=
      { urlPart := "addresses/", responses := [{ answer := .reply { status := 404 } }] }
    let described : Rule :=
      { urlPart := "instances/"
        responses := [{ answer := .reply { body := "\x7b\"networkInterfaces\": " ++
          "[\x7b\"accessConfigs\": [\x7b\"natIP\": \"192.0.2.1\"\x7d]\x7d]\x7d" } }] }
    let reserved : Rule := { method := some "POST", responses := [{ answer := .reply {} }] }
    let l := against [missing, described, reserved]
    let r := l.start.after (List.replicate 5 .provision)
    (l.world.requestsSince r.world).map (·.method) = ["GET", "GET", "POST"] ∧
      r.server.state = .ipAllocated := by
  decide +kernel

end Launch

end Fleet
