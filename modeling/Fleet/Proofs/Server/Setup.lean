import Fleet.Proofs.Cloud.Operations
import Fleet.Proofs.Server.Exchanges

/-!
# The exchanges of the setup

If the look for a static address has shown that there is none, the setup describes the instance,
reserves its ephemeral address and waits for the operation that does this, as often as needed.  So
what has been exchanged at a phase of the setup is known, and it is known as well what may have been
exchanged when the setup is left, be it at its end or by a failure.  After it there are only polls.

## Main definitions

- `Json.IsEphemeralAddress`: the address by which a described instance is reached
- `Server.Promotes`: the exchanges by which an address is promoted
- `Server.Reaches`: the exchanges by which provisioning comes to a phase of the setup
- `Server.Asks`: the exchanges that the setup may have had when it is left

## Main statements

- `Run.reaches_step`, `Run.asks_step`: what one phase of the setup adds to its exchanges
- `Run.exchanges_reach`: the exchanges of a course are those of the setup and then polls
-/

namespace Fleet

open Run World Stage Json

/-! ## §1 What answers say -/

/-- The address by which a described instance is reached as long as it has no static one. -/
def Json.IsEphemeralAddress (data address : Json) : Prop :=
  ∃ interface interfaces config configs,
    data.member? "networkInterfaces" = some (.arr (interface :: interfaces)) ∧
    interface.member? "accessConfigs" = some (.arr (config :: configs)) ∧
    config.member? "natIP" = some address

/-- What has members is the first item of an array. -/
theorem Json.eq_arr_of_first {j item value : Json} {name : String} (hfirst : j.first = .ok item)
    (hpart : item.part name = .ok value) : ∃ items, j = .arr (item :: items) := by
  cases j with
  | arr items =>
    cases items with
    | nil => cases hfirst
    | cons first rest =>
      cases hfirst
      exact ⟨rest, rfl⟩
  | str s =>
    -- the first character of a text is a text, which has no members
    simp only [first] at hfirst
    split at hfirst
    · cases hfirst
      cases hpart
    · cases hfirst
  | _ => cases hfirst

theorem ephemeralAddress_eq_ok {data address : Json} :
    ephemeralAddress data = .ok address ↔ data.IsEphemeralAddress address := by
  constructor
  · intro h
    obtain ⟨interfaces, hinterfaces, h⟩ := exists_of_bind_eq_ok h
    obtain ⟨interface, hinterface, h⟩ := exists_of_bind_eq_ok h
    obtain ⟨configs, hconfigs, h⟩ := exists_of_bind_eq_ok h
    obtain ⟨config, hconfig, haddress⟩ := exists_of_bind_eq_ok h
    obtain ⟨others, rfl⟩ := eq_arr_of_first hinterface hconfigs
    obtain ⟨others', rfl⟩ := eq_arr_of_first hconfig haddress
    exact ⟨_, _, _, _, part_eq_ok_iff.mp hinterfaces, part_eq_ok_iff.mp hconfigs,
      part_eq_ok_iff.mp haddress⟩
  · rintro ⟨interface, interfaces, config, configs, hinterfaces, hconfigs, haddress⟩
    unfold ephemeralAddress
    rw [part_eq_ok_iff.mpr hinterfaces]
    show (interface.part "accessConfigs" >>= _) = _
    rw [part_eq_ok_iff.mpr hconfigs]
    exact part_eq_ok_iff.mpr haddress

/-! ## §2 Exchanges of the setup -/

namespace Server

/-- The exchange describes the instance, which has an ephemeral address. -/
structure Describes (s : Server) (data address : Json) (e : Exchange) : Prop where
  request_eq : e.request = s.client.getInstance s.locator
  content_eq : e.content = .ok data
  isEphemeral : data.IsEphemeralAddress address

/-- The request reserves the ephemeral address of a described instance, under the name that the
description gives or else that of the server. -/
structure Submits (s : Server) (region : RegionLocator) (data address : Json) (request : Request) :
    Prop where
  region_eq : s.locator.regionLocator = .ok region
  request_eq : request = s.client.createAddress region request.body
  name_eq : request.body.member? "name" = some ((data.member? "name").getD s.name)
  address_eq : request.body.member? "address" = some address

/-- The exchanges describe the instance and reserve its ephemeral address, by an operation without
errors. -/
def HasReserved (s : Server) (region : RegionLocator) (operation : Json) (es : List Exchange) :
    Prop :=
  ∃ described reserved data address, es = [described, reserved] ∧
    s.Describes data address described ∧ s.Submits region data address reserved.request ∧
    reserved.content = .ok operation ∧ Operation.IsClean operation

/-- The exchange waits for an operation, which has come back without errors. -/
structure Awaits (s : Server) (region : RegionLocator) (name operation : Json) (e : Exchange) :
    Prop where
  request_eq : e.request = s.client.waitRegionOperation region name.text
  content_eq : e.content = .ok operation
  clean : Operation.IsClean operation

/-- The exchange waits for an operation, which goes on. -/
def AwaitsInVain (s : Server) (region : RegionLocator) (name : Json) (e : Exchange) : Prop :=
  ∃ operation, s.Awaits region name operation e ∧ ¬ Operation.SaysDone operation

/-- The exchanges promote the ephemeral address of the instance: it is reserved, and if the
operation has a name, it is waited for until it is done. -/
inductive Promotes (s : Server) : List Exchange → Prop
  | nameless {region : RegionLocator} {operation : Json} {es : List Exchange}
      (hreserved : s.HasReserved region operation es)
      (hname : ∀ name, operation.member? "name" = some name → name.truthy = false) : Promotes s es
  | awaited {region : RegionLocator} {operation name done : Json} {es waits : List Exchange}
      {last : Exchange} (hreserved : s.HasReserved region operation es)
      (hname : operation.member? "name" = some name) (hpresent : name.truthy = true)
      (hwaits : ∀ e ∈ waits, s.AwaitsInVain region name e)
      (hlast : s.Awaits region name done last) (hdone : Operation.SaysDone done) :
      Promotes s (es ++ waits ++ [last])

/-- The exchanges by which provisioning comes to a phase of the setup. -/
def Reaches (s : Server) (es : List Exchange) : Phase → Prop
  | .awaitingInstance => es = []
  | .consultingAddress => s.creation = .ok () ∧ es = []
  | .describingInstance => s.creation = .ok () ∧ s.addressCheck = .ok false ∧ es = []
  | .reservingAddress region resource =>
    s.creation = .ok () ∧ s.addressCheck = .ok false ∧
      ∃ described data address, es = [described] ∧ s.Describes data address described ∧
        s.Submits region data address (s.client.createAddress region resource)
  | .awaitingAddress region name =>
    s.creation = .ok () ∧ s.addressCheck = .ok false ∧
      ∃ operation reserved waits, es = reserved ++ waits ∧
        s.HasReserved region operation reserved ∧ operation.member? "name" = some name ∧
        name.truthy = true ∧ ∀ e ∈ waits, s.AwaitsInVain region name e
  | .confirmingAddress =>
    s.creation = .ok () ∧ (s.addressCheck = .ok true ∧ es = [] ∨
      s.addressCheck = .ok false ∧ s.Promotes es)
  | _ => False

/-- The exchanges that the setup may have had when it is left. An address is looked for first, and
only if there is none the instance is described. -/
inductive Asks (s : Server) : List Exchange → Prop
  | nothing : Asks s []
  | described {e : Exchange} (hcheck : s.addressCheck = .ok false)
      (hrequest : e.request = s.client.getInstance s.locator) : Asks s [e]
  | reserved {region : RegionLocator} {data address : Json} {described e : Exchange}
      {waits : List Exchange} (hcheck : s.addressCheck = .ok false)
      (hdescribed : s.Describes data address described)
      (hrequest : s.Submits region data address e.request)
      (hwaits : ∀ e ∈ waits, ∃ name, e.request = s.client.waitRegionOperation region name) :
      Asks s (described :: e :: waits)

variable {s : Server} {es : List Exchange} {phase : Phase} {region : RegionLocator}

theorem HasReserved.asks {operation : Json} {waits : List Exchange}
    (h : s.HasReserved region operation es) (hcheck : s.addressCheck = .ok false)
    (hwaits : ∀ e ∈ waits, ∃ name, e.request = s.client.waitRegionOperation region name) :
    s.Asks (es ++ waits) := by
  obtain ⟨described, reserved, data, address, rfl, hdescribed, hrequest, -, -⟩ := h
  exact .reserved hcheck hdescribed hrequest hwaits

/-- At every phase of the setup it may be left. -/
theorem Reaches.asks (h : s.Reaches es phase) : s.Asks es := by
  have hvain {region : RegionLocator} {name : Json} {waits : List Exchange}
      (hwaits : ∀ e ∈ waits, s.AwaitsInVain region name e) :
      ∀ e ∈ waits, ∃ name, e.request = s.client.waitRegionOperation region name := by
    intro e he
    obtain ⟨operation, hawaits, -⟩ := hwaits e he
    exact ⟨_, hawaits.request_eq⟩
  cases phase with
  | awaitingInstance =>
    obtain rfl := h
    exact .nothing
  | consultingAddress =>
    obtain ⟨-, rfl⟩ := h
    exact .nothing
  | describingInstance =>
    obtain ⟨-, -, rfl⟩ := h
    exact .nothing
  | reservingAddress =>
    obtain ⟨-, hcheck, described, data, address, rfl, hdescribed, -⟩ := h
    exact .described hcheck hdescribed.request_eq
  | awaitingAddress =>
    obtain ⟨-, hcheck, operation, reserved, waits, rfl, hreserved, -, -, hwaits⟩ := h
    exact hreserved.asks hcheck (hvain hwaits)
  | confirmingAddress =>
    obtain ⟨-, ⟨-, rfl⟩ | ⟨hcheck, hpromotes⟩⟩ := h
    · exact .nothing
    · cases hpromotes with
      | nameless hreserved =>
        rw [← List.append_nil es]
        exact hreserved.asks hcheck nofun
      | @awaited _ _ _ _ es waits last hreserved _ _ hwaits hlast =>
        rw [List.append_assoc]
        apply hreserved.asks hcheck
        intro e he
        rcases List.mem_append.mp he with he | he
        · exact hvain hwaits e he
        · rw [List.mem_singleton.mp he]
          exact ⟨_, hlast.request_eq⟩
  | _ => exact h.elim

end Server

/-! ## §3 Stages that exchange something -/

namespace Run

variable {r m : Run} {request : Request} {next : Phase}

/-- What an exchange comes back with is the content of what was exchanged. -/
theorem exchange_eq_ok {content : Json} (hp : request.headers = .null)
    (h : (ExceptT.run (exchange request)).run r = (.ok content, m)) :
    ∃ e, r.world.exchange? request = some e ∧ e.request = request ∧ e.content = .ok content := by
  apply exchange?_of_ok
  rw [← exchange_result hp]
  exact congrArg Prod.fst h

/-- The instance was described with an ephemeral address, which is to be reserved. -/
theorem describeInstance_eq_ok (h : describeInstance.outcome r = (.ok next, m)) :
    ∃ e data address region resource,
      r.world.exchange? (r.server.client.getInstance r.server.locator) = some e ∧
      r.server.Describes data address e ∧
      r.server.Submits region data address (r.server.client.createAddress region resource) ∧
      next = .reservingAddress region resource := by
  rw [describeInstance, outcome_server_bind] at h
  obtain ⟨data, u, hexchange, h⟩ := exists_of_run_bind_eq_ok h
  obtain ⟨e, he, hrequest, hcontent⟩ := exchange_eq_ok rfl hexchange
  split at h
  · cases h
  · rename_i address haddress
    obtain ⟨region, v, hregion, h⟩ := exists_of_run_bind_eq_ok h
    obtain ⟨-, v', -, h⟩ := exists_of_run_bind_eq_ok h
    obtain ⟨resource, v'', hresource, h⟩ := exists_of_run_bind_eq_ok h
    cases h
    have hregion' : r.server.locator.regionLocator = .ok region := by
      rw [run_ofExcept] at hregion
      exact congrArg Prod.fst hregion
    obtain ⟨hresource', -⟩ := of_run_ofFault hresource
    obtain ⟨name, hname, hresource'⟩ := exists_of_bind_eq_ok hresource'
    obtain ⟨description, -, hresource'⟩ := exists_of_bind_eq_ok hresource'
    cases hresource'
    have hephemeral := ephemeralAddress_eq_ok.mp haddress
    refine ⟨e, data, address, region, _, he, ⟨hrequest, hcontent, hephemeral⟩,
      ⟨hregion', rfl, ?_, rfl⟩, rfl⟩
    exact congrArg some (getD_eq_ok hname)

/-- The address is being reserved by an operation without errors, which is waited for if it has a
name. -/
theorem reserveAddress_eq_ok {region : RegionLocator} {resource : Json}
    (h : (reserveAddress region resource).outcome r = (.ok next, m)) :
    ∃ e operation,
      r.world.exchange? (r.server.client.createAddress region resource) = some e ∧
      e.request = r.server.client.createAddress region resource ∧
      e.content = .ok operation ∧ Operation.IsClean operation ∧
      ((∀ name, operation.member? "name" = some name → name.truthy = false) ∧
          next = .confirmingAddress ∨
        ∃ name, operation.member? "name" = some name ∧ name.truthy = true ∧
          next = .awaitingAddress region name) := by
  rw [reserveAddress, outcome_server_bind] at h
  obtain ⟨operation, u, hexchange, h⟩ := exists_of_run_bind_eq_ok h
  obtain ⟨e, he, hrequest, hcontent⟩ := exchange_eq_ok rfl hexchange
  obtain ⟨errors, v, herrors, h⟩ := exists_of_run_bind_eq_ok h
  obtain ⟨herrors, -⟩ := of_run_ofFault herrors
  split at h
  · cases h
  · rename_i hnone
    obtain ⟨name, v', hname, h⟩ := exists_of_run_bind_eq_ok h
    obtain ⟨hname, -⟩ := of_run_ofFault hname
    have hmember : name = (operation.member? "name").getD .null := getD_eq_ok hname
    refine ⟨e, operation, he, hrequest, hcontent,
      Operation.isClean_of_errors herrors (Bool.eq_false_iff.mpr hnone), ?_⟩
    cases hpresent : name.truthy with
    | false =>
      rw [hpresent] at h
      cases h
      refine Or.inl ⟨fun found hfound => ?_, rfl⟩
      rw [hmember, hfound] at hpresent
      exact hpresent
    | true =>
      rw [hpresent] at h
      cases h
      refine Or.inr ⟨name, ?_, hpresent, rfl⟩
      cases hfound : operation.member? "name" with
      | none =>
        rw [hmember, hfound] at hpresent
        cases hpresent
      | some found =>
        rw [hmember, hfound]
        rfl

/-- The operation has come back without errors, and it is waited for again unless it is done. -/
theorem awaitAddress_eq_ok {region : RegionLocator} {name : Json}
    (h : (awaitAddress region name).outcome r = (.ok next, m)) :
    ∃ e operation,
      r.world.exchange? (r.server.client.waitRegionOperation region name.text) = some e ∧
      r.server.Awaits region name operation e ∧
      (Operation.SaysDone operation ∧ next = .confirmingAddress ∨
        ¬ Operation.SaysDone operation ∧ next = .awaitingAddress region name) := by
  rw [awaitAddress, outcome_server_bind, outcome_log_bind] at h
  obtain ⟨operation, u, hexchange, h⟩ := exists_of_run_bind_eq_ok h
  obtain ⟨e, he, hrequest, hcontent⟩ := exchange_eq_ok rfl hexchange
  obtain ⟨_, v, hchecked, h⟩ := exists_of_run_bind_eq_ok h
  obtain ⟨done, v', hrun, h⟩ := exists_of_run_bind_eq_ok h
  obtain ⟨hdone, -⟩ := of_run_ofFault hrun
  have hclean : Operation.IsClean operation := by
    obtain ⟨value, w, hvalue, -⟩ := exists_of_run_bind_eq_ok hchecked
    have hcall := ofCall_outcome (Operation.checked operation) u
    rw [show (ofCall (Operation.checked operation)).outcome u = (.ok value, w) from hvalue] at hcall
    exact Operation.isClean_of_checked (Prod.ext (congrArg Prod.fst hcall).symm rfl)
  refine ⟨e, operation, ?_, ⟨hrequest, hcontent, hclean⟩, ?_⟩
  · rw [← he]
    exact exchange?_congr rfl rfl _
  · cases done with
    | true =>
      cases h
      exact Or.inl ⟨(Operation.saysDone_iff hdone).mp rfl, rfl⟩
    | false =>
      obtain ⟨-, v'', -, h⟩ := exists_of_run_bind_eq_ok h
      cases h
      refine Or.inr ⟨fun hfinal => ?_, rfl⟩
      cases (Operation.saysDone_iff hdone).mpr hfinal

/-! ## §4 What a phase adds -/

variable {P : Event → Prop} {r₀ : Run} {es : List Exchange} {e : Exchange}
  {region : RegionLocator} {data address name operation : Json}

theorem Onward.answers_eq (h : Onward P r₀ r) :
    r.server.creation = r₀.server.creation ∧ r.server.addressCheck = r₀.server.addressCheck := by
  rw [h.frame]
  exact ⟨rfl, rfl⟩

/-- What an exchange says does not depend on how far the server has come. -/
theorem Onward.describes (h : Onward P r₀ r) (he : r.server.Describes data address e) :
    r₀.server.Describes data address e := by
  rw [h.frame] at he
  exact ⟨he.request_eq, he.content_eq, he.isEphemeral⟩

theorem Onward.submits (h : Onward P r₀ r) (hq : r.server.Submits region data address request) :
    r₀.server.Submits region data address request := by
  rw [h.frame] at hq
  exact ⟨hq.region_eq, hq.request_eq, hq.name_eq, hq.address_eq⟩

theorem Onward.awaits (h : Onward P r₀ r) (he : r.server.Awaits region name operation e) :
    r₀.server.Awaits region name operation e := by
  rw [h.frame] at he
  exact ⟨he.request_eq, he.content_eq, he.clean⟩

theorem exchange?_of_request? (h : r.request? = some request) :
    r.exchange? = r.world.exchange? request := by
  rw [exchange?, h]
  rfl

theorem exchange?_of_no_request (h : r.request? = none) : r.exchange? = none := by
  rw [exchange?, h]
  rfl

/-- A phase of the setup leads to the phase that its stage comes back with, or to the end. -/
theorem phase_step_of_setup? {stage : Stage Phase} (h : r.server.phase.setup? = some stage) :
    r.step.server.phase = .finished ∨
      ∃ next m, stage.outcome r = (.ok next, m) ∧ r.step.server.phase = next := by
  rw [step_of_setup? h, setUp]
  rcases stage.outcome r with ⟨f | next, m⟩
  · exact Or.inl rfl
  · exact Or.inr ⟨next, m, rfl, rfl⟩

theorem phase_step_of_confirming (h : r.server.phase = .confirmingAddress) :
    r.step.server.phase = .settling := by
  have hstep : r.step = r.setUp confirmAddress := step_of_setup? (by rw [h]; rfl)
  rw [hstep, setUp, confirmAddress_outcome]
  rfl

/-- After a phase of the setup it may be left with the exchange of that phase. -/
theorem asks_step (h : Onward P r₀ r) (hes : r₀.server.Reaches es r.server.phase) :
    r₀.server.Asks (es ++ r.exchange?.toList) := by
  obtain ⟨hclient, hlocator, -⟩ := h.resources_eq
  cases hexchange : r.exchange? with
  | none =>
    rw [Option.toList_none, List.append_nil]
    exact hes.asks
  | some e =>
    rw [Option.toList_some]
    obtain ⟨request, hq, he⟩ := Option.bind_eq_some_iff.mp hexchange
    have hrequest : e.request = request := request_of_exchange? he
    -- the phases with a request, in their order
    cases hphase : r.server.phase <;> simp only [request?, hphase] at hq <;> rw [hphase] at hes
    case describingInstance =>
      obtain ⟨-, hcheck, rfl⟩ := hes
      cases hq
      rw [hclient, hlocator] at hrequest
      exact .described hcheck hrequest
    case reservingAddress region resource =>
      obtain ⟨-, hcheck, described, data, address, rfl, hdescribed, hsubmits⟩ := hes
      cases hq
      rw [hclient] at hrequest
      rw [← hrequest] at hsubmits
      exact .reserved hcheck hdescribed hsubmits fun _ he => absurd he List.not_mem_nil
    case awaitingAddress region name =>
      obtain ⟨-, hcheck, operation, reserved, waits, rfl, hreserved, -, -, hwaits⟩ := hes
      cases hq
      rw [hclient] at hrequest
      rw [List.append_assoc]
      apply hreserved.asks hcheck
      intro e' he'
      rcases List.mem_append.mp he' with he' | he'
      · obtain ⟨operation, hawaits, -⟩ := hwaits e' he'
        exact ⟨_, hawaits.request_eq⟩
      · rw [List.mem_singleton.mp he']
        exact ⟨_, hrequest⟩
    case polling => exact hes.elim
    all_goals cases hq

/-- A phase of the setup leads where its stage leads, if it does not fail. -/
theorem reaches_step_of_setup? {stage : Stage Phase} (hstage : r.server.phase.setup? = some stage)
    (h : ∀ next m, stage.outcome r = (.ok next, m) →
      next.setup? = none ∨ r₀.server.Reaches es next) :
    r.step.server.phase.setup? = none ∨ r₀.server.Reaches es r.step.server.phase := by
  rcases phase_step_of_setup? hstage with hend | ⟨next, m, hout, hnext⟩
  · exact Or.inl (by rw [hend]; rfl)
  · rw [hnext]
    exact h next m hout

theorem reaches_of_awaitInstance (h : Onward P r₀ r)
    (hes : r₀.server.Reaches es .awaitingInstance)
    (hout : awaitInstance.outcome r = (.ok next, m)) :
    next.setup? = none ∨ r₀.server.Reaches es next := by
  obtain rfl := hes
  rw [awaitInstance_outcome, h.answers_eq.1] at hout
  cases hcreated : r₀.server.creation with
  | error f =>
    rw [hcreated] at hout
    cases hout
  | ok created =>
    simp only [hcreated] at hout
    split at hout
    · cases hout
      exact Or.inl rfl
    · cases hout
      exact Or.inr ⟨hcreated, rfl⟩

theorem reaches_of_consultAddress (h : Onward P r₀ r)
    (hes : r₀.server.Reaches es .consultingAddress)
    (hout : consultAddress.outcome r = (.ok next, m)) : r₀.server.Reaches es next := by
  obtain ⟨hcreated, rfl⟩ := hes
  rw [consultAddress_outcome, h.answers_eq.2] at hout
  cases hchecked : r₀.server.addressCheck with
  | error f =>
    rw [hchecked] at hout
    cases hout
  | ok isStatic =>
    rw [hchecked] at hout
    cases isStatic with
    | true =>
      cases hout
      exact ⟨hcreated, Or.inl ⟨hchecked, rfl⟩⟩
    | false =>
      cases hout
      exact ⟨hcreated, hchecked, rfl⟩

theorem reaches_of_describeInstance (h : Onward P r₀ r)
    (hes : r₀.server.Reaches es .describingInstance)
    (hout : describeInstance.outcome r = (.ok next, m)) :
    ∃ e, r.world.exchange? (r.server.client.getInstance r.server.locator) = some e ∧
      r₀.server.Reaches (es ++ [e]) next := by
  obtain ⟨hcreated, hchecked, rfl⟩ := hes
  obtain ⟨e, data, address, region, resource, he, hdescribes, hsubmits, rfl⟩ :=
    describeInstance_eq_ok hout
  rw [h.resources_eq.1] at hsubmits
  exact ⟨e, he, hcreated, hchecked, e, data, address, rfl, h.describes hdescribes,
    h.submits hsubmits⟩

theorem reaches_of_reserveAddress {resource : Json} (h : Onward P r₀ r)
    (hes : r₀.server.Reaches es (.reservingAddress region resource))
    (hout : (reserveAddress region resource).outcome r = (.ok next, m)) :
    ∃ e, r.world.exchange? (r.server.client.createAddress region resource) = some e ∧
      r₀.server.Reaches (es ++ [e]) next := by
  obtain ⟨hcreated, hchecked, described, data, address, rfl, hdescribed, hsubmits⟩ := hes
  obtain ⟨e, operation, he, hrequest, hcontent, hclean, hcases⟩ := reserveAddress_eq_ok hout
  rw [← h.resources_eq.1, ← hrequest] at hsubmits
  have hreserved : r₀.server.HasReserved region operation [described, e] :=
    ⟨described, e, data, address, rfl, hdescribed, hsubmits, hcontent, hclean⟩
  refine ⟨e, he, ?_⟩
  rcases hcases with ⟨hnone, rfl⟩ | ⟨name, hname, hpresent, rfl⟩
  · exact ⟨hcreated, Or.inr ⟨hchecked, .nameless hreserved hnone⟩⟩
  · exact ⟨hcreated, hchecked, operation, _, [], rfl, hreserved, hname, hpresent, nofun⟩

theorem reaches_of_awaitAddress (h : Onward P r₀ r)
    (hes : r₀.server.Reaches es (.awaitingAddress region name))
    (hout : (awaitAddress region name).outcome r = (.ok next, m)) :
    ∃ e, r.world.exchange? (r.server.client.waitRegionOperation region name.text) = some e ∧
      r₀.server.Reaches (es ++ [e]) next := by
  obtain ⟨hcreated, hchecked, operation, reserved, waits, rfl, hreserved, hname, hpresent,
    hwaits⟩ := hes
  obtain ⟨e, done, he, hawaits, hcases⟩ := awaitAddress_eq_ok hout
  refine ⟨e, he, ?_⟩
  rcases hcases with ⟨hdone, rfl⟩ | ⟨hgoing, rfl⟩
  · exact ⟨hcreated, Or.inr ⟨hchecked,
      .awaited hreserved hname hpresent hwaits (h.awaits hawaits) hdone⟩⟩
  · -- one more wait was in vain
    refine ⟨hcreated, hchecked, operation, reserved, waits ++ [e], List.append_assoc _ _ _,
      hreserved, hname, hpresent, fun e' he' => ?_⟩
    rcases List.mem_append.mp he' with he' | he'
    · exact hwaits e' he'
    · rw [List.mem_singleton.mp he']
      exact ⟨done, h.awaits hawaits, hgoing⟩

/-- A phase of the setup leads out of it or to another of its phases, with the exchange added. -/
theorem reaches_step (h : Onward P r₀ r) (hes : r₀.server.Reaches es r.server.phase) :
    r.step.server.phase.setup? = none ∨
      r₀.server.Reaches (es ++ r.exchange?.toList) r.step.server.phase := by
  -- one case for every stage, in the order of the phases
  cases hphase : r.server.phase <;> rw [hphase] at hes
  case awaitingInstance =>
    rw [exchange?_of_no_request (by simp only [request?, hphase]), Option.toList_none,
      List.append_nil]
    apply reaches_step_of_setup? (by rw [hphase]; rfl)
    intro next m hout
    exact reaches_of_awaitInstance h hes hout
  case consultingAddress =>
    rw [exchange?_of_no_request (by simp only [request?, hphase]), Option.toList_none,
      List.append_nil]
    apply reaches_step_of_setup? (by rw [hphase]; rfl)
    intro next m hout
    exact Or.inr (reaches_of_consultAddress h hes hout)
  case describingInstance =>
    apply reaches_step_of_setup? (by rw [hphase]; rfl)
    intro next m hout
    obtain ⟨e, he, hreach⟩ := reaches_of_describeInstance h hes hout
    rw [exchange?_of_request? (by simp only [request?, hphase]; rfl), he]
    exact Or.inr hreach
  case reservingAddress region resource =>
    apply reaches_step_of_setup? (by rw [hphase]; rfl)
    intro next m hout
    obtain ⟨e, he, hreach⟩ := reaches_of_reserveAddress h hes hout
    rw [exchange?_of_request? (by simp only [request?, hphase]; rfl), he]
    exact Or.inr hreach
  case awaitingAddress region name =>
    apply reaches_step_of_setup? (by rw [hphase]; rfl)
    intro next m hout
    obtain ⟨e, he, hreach⟩ := reaches_of_awaitAddress h hes hout
    rw [exchange?_of_request? (by simp only [request?, hphase]; rfl), he]
    exact Or.inr hreach
  case confirmingAddress =>
    left
    rw [phase_step_of_confirming hphase]
    rfl
  all_goals exact hes.elim

/-! ## §5 Courses -/

/-- Only provisioning leads to another phase. -/
theorem phase_move (r : Run) {move : Move} (h : move ≠ .provision) :
    (r.move move).server.phase = r.server.phase := by
  cases move with
  | provision => exact absurd rfl h
  | propose next =>
    have hevolves : Evolves (Event.Serves none) r (r.proceed next) := evolves_proceed r next
    show (r.proceed next).server.phase = r.server.phase
    rw [hevolves.frame]
  | apply snapshot =>
    have hevolves : Evolves (Event.Serves none) r ((applySnapshot snapshot).outcome r).2 :=
      applySnapshot_evolves snapshot r
    show ((applySnapshot snapshot).outcome r).2.server.phase = r.server.phase
    rw [hevolves.frame]
  | tell => rfl
  | tearDown =>
    simp only [move]
    split
    · obtain ⟨w, -, -, -, heq⟩ := r.tearDown_eq
      rw [heq]
    · rfl

theorem phase_amid {moves : List (World × Move)} (h : ∀ m ∈ moves, m.2 ≠ .provision) (r : Run) :
    (r.amid moves).server.phase = r.server.phase := by
  induction moves generalizing r with
  | nil => rfl
  | cons move moves ih =>
    obtain ⟨hmove, hmoves⟩ := List.forall_mem_cons.mp h
    calc (r.amid (move :: moves)).server.phase
      _ = ((r.within move.1).move move.2).server.phase := ih hmoves _
      _ = r.server.phase := phase_move _ hmove

/-- A setup that is settled stays as it is. -/
theorem readiness_amid_of_settled (hr : r.Sound) (hs : r.server.readiness.isSettled = true)
    (moves : List (World × Move)) : (r.amid moves).server.readiness = r.server.readiness := by
  induction moves generalizing r with
  | nil => rfl
  | cons move moves ih =>
    let p := r.within move.1
    have hp : p.Sound := within_sound hr move.1
    have hmove : (p.move move.2).server.readiness = r.server.readiness :=
      readiness_move_of_settled hp hs move.2
    calc ((p.move move.2).amid moves).server.readiness
      _ = (p.move move.2).server.readiness := ih (move_sound hp move.2) (hmove ▸ hs)
      _ = r.server.readiness := hmove

theorem setup?_of_isSetup_eq_false {phase : Phase} (h : phase.isSetup = false) :
    phase.setup? = none := by
  cases phase <;> first | rfl | cases h

/-- Once the setup is left, provisioning does not come back to it. -/
theorem setup?_move (h : r.server.phase.setup? = none) (move : Move) :
    (r.move move).server.phase.setup? = none := by
  by_cases hmove : move = .provision
  · subst hmove
    have hsteps := step_steps r
    show r.step.server.phase.setup? = none
    generalize r.step = r' at hsteps ⊢
    cases hsteps with
    | advanced hstage | abandoned hstage =>
      rw [h] at hstage
      cases hstage
    | settled =>
      simp only [settle]
      split <;> rfl
    | polled _ _ _ hnext => exact setup?_of_isSetup_eq_false hnext
    | waited => rfl
    | rested => exact h
  · rw [phase_move r hmove, h]

theorem setup?_amid (h : r.server.phase.setup? = none) (moves : List (World × Move)) :
    (r.amid moves).server.phase.setup? = none := by
  induction moves generalizing r with
  | nil => exact h
  | cons move moves ih => exact ih (setup?_move (r := r.within move.1) h move.2)

/-- After the setup only the guest attributes are fetched. -/
theorem request_of_exchangeOf (h : r.server.phase.setup? = none) {move : Move} {e : Exchange}
    (he : r.exchangeOf move = some e) : e.request = r.server.attributesRequest := by
  cases move with
  | provision =>
    obtain ⟨request, hq, he⟩ := Option.bind_eq_some_iff.mp he
    rw [request_of_exchange? he]
    cases hphase : r.server.phase with
    | polling deadline =>
      simp only [request?, hphase] at hq
      split at hq
      · cases hq
      · exact (Option.some.inj hq).symm
    | settling | pausing | finished =>
      simp only [request?, hphase] at hq
      cases hq
    | _ =>
      rw [hphase] at h
      cases h
  | _ => cases he

theorem requests_of_exchanges_of_setup? (h : r.server.phase.setup? = none)
    (moves : List (World × Move)) :
    ∀ e ∈ r.exchanges moves, e.request = r.server.attributesRequest := by
  induction moves generalizing r with
  | nil => exact nofun
  | cons move moves ih =>
    obtain ⟨surroundings, move⟩ := move
    intro e he
    rcases List.mem_append.mp he with he | he
    · exact request_of_exchangeOf (r := r.within surroundings) h (Option.mem_toList.mp he)
    · rw [ih (setup?_move (r := r.within surroundings) h move) e he]
      exact (move_onward (r.within surroundings) move).attributesRequest_eq

/-- The exchanges of a course are those of the setup and then polls, if the setup is left. -/
theorem exchanges_reach (h : Onward (fun _ => True) r₀ r)
    (hes : r₀.server.Reaches es r.server.phase) (moves : List (World × Move)) :
    ∃ setup polls, es ++ r.exchanges moves = setup ++ polls ∧ r₀.server.Asks setup ∧
      (∀ e ∈ polls, e.request = r₀.server.attributesRequest) ∧
      ((r.amid moves).server.phase.setup? = none ∨
        polls = [] ∧ r₀.server.Reaches setup (r.amid moves).server.phase) := by
  induction moves generalizing r es with
  | nil => exact ⟨es, [], rfl, hes.asks, nofun, Or.inr ⟨rfl, hes⟩⟩
  | cons move moves ih =>
    obtain ⟨surroundings, move⟩ := move
    have hwithin : Onward (fun _ => True) r₀ (r.within surroundings) :=
      h.trans (r.within_onward surroundings)
    have hmoved : Onward (fun _ => True) r₀ ((r.within surroundings).move move) :=
      hwithin.trans ((move_onward _ move).mono fun _ _ => trivial)
    rw [exchanges, amid_cons, ← List.append_assoc]
    by_cases hmove : move = .provision
    · subst hmove
      have hasks := asks_step hwithin hes
      rcases reaches_step hwithin hes with hleft | hreach
      · -- here the setup is left, and only polls follow
        refine ⟨_, _, rfl, hasks, ?_, Or.inl (setup?_amid hleft moves)⟩
        rw [← hmoved.attributesRequest_eq]
        exact requests_of_exchanges_of_setup? hleft moves
      · exact ih hmoved hreach
    · have hnone : (r.within surroundings).exchangeOf move = none := by
        cases move with
        | provision => exact absurd rfl hmove
        | _ => rfl
      rw [hnone, Option.toList_none, List.append_nil]
      apply ih hmoved
      rw [phase_move _ hmove]
      exact hes

end Run

end Fleet
