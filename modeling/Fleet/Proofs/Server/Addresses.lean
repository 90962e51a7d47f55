import Fleet.Proofs.Account.Teardown
import Fleet.Proofs.Server.Promotion

/-!
# The address of a server

The address of a server is looked for, reserved, waited for and removed at different places, and
each of them derives the region from the zone for itself.  Where the zone encodes a region they all
mean one address, that of the server's name in this region.  Where it does not, nothing is ever
requested, and the setup is settled with success only if it did not come to look at the address.

## Main definitions

- `Launch.Sends`: the requests that a server in a region can send
- `Run.Barred`: provisioning has not gone beyond the look for a static address

## Main statements

- `Launch.sends_of_requested`: a server sends no other requests
- `Run.Barred.exchanges_eq_nil`: without a region provisioning exchanges nothing
- `Launch.one_address`: all requests for an address mean the same one
-/

namespace Fleet

open Run World

/-! ## §1 Regions -/

/-- The region of an instance is the one that its zone encodes, in the same project. -/
theorem InstanceLocator.regionLocator_eq_ok_iff {l : InstanceLocator} {region : RegionLocator} :
    l.regionLocator = .ok region ↔ region.project = l.project ∧ region.region ≠ "" ∧
      ∃ last, last ≠ "" ∧ '-' ∉ last.toList ∧ l.zone = region.region ++ "-" ++ last := by
  rw [← Zone.region_eq_ok_iff]
  have hlocated : l.regionLocator = (Zone.region l.zone).map (⟨l.project, ·⟩) := rfl
  rw [hlocated]
  cases Zone.region l.zone with
  | error f => exact ⟨nofun, nofun⟩
  | ok name =>
    constructor
    · intro h
      cases h
      exact ⟨rfl, rfl⟩
    · rintro ⟨hproject, hname⟩
      cases hname
      have hsame : (⟨l.project, region.region⟩ : RegionLocator) = region := by rw [← hproject]
      exact congrArg Except.ok hsame

theorem Client.computeUrl_append (client : Client) (path rest : String) :
    client.computeUrl (path ++ rest) = client.computeUrl path ++ rest := by
  unfold computeUrl
  rw [String.append_assoc, String.append_assoc, String.append_assoc]

theorem Client.computeUrl_regionPath (client : Client) (region : RegionLocator) :
    client.computeUrl (regionPath region) =
      client.computeBase ++ "/projects/" ++ region.project ++ "/regions/" ++ region.region := by
  apply String.toList_inj.mp
  simp [computeUrl, regionPath, String.toList_append]

/-- With a token, the first request of a teardown is that for the first resource. -/
theorem World.TearsDown.head?_requests {w : World} {first second : Request}
    {o : Except Failure Unit} {requests : List Request} {token : String}
    (h : w.TearsDown first second o requests) (htoken : w.tokens.getToken.1 = .ok token) :
    requests.head? = some first := by
  cases hgone : (w.network.respond first.method first.url).1.answer.confirmsGone with
  | false =>
    rw [(h.refused token htoken hgone).2]
    rfl
  | true =>
    rw [h.sent token htoken hgone]
    rfl

/-- In a region a teardown removes the address and the instance in turn. -/
theorem Run.tearDown_tearsDown {r r' : Run} {o : Except Failure Unit} {region : RegionLocator}
    (h : r.tearDown = (o, r')) (hregion : r.server.locator.regionLocator = .ok region) :
    r.world.TearsDown (r.server.client.deleteAddress region r.server.name.text)
      (r.server.client.deleteInstance r.server.locator) o (r.world.requestsSince r'.world) := by
  have hrequests := tearDown_requests h
  rw [InstanceLocator.regionLocator_eq_ok_iff, ← Zone.region_eq_ok_iff] at hregion
  obtain ⟨hproject, hname⟩ := hregion
  rw [hname, ← hproject] at hrequests
  exact hrequests

/-! ## §2 Requests in a region -/

/-- The requests that a server can send whose zone encodes the given region. -/
inductive Launch.Sends (l : Launch) (region : RegionLocator) : Request → Prop
  | looks : Sends l region (l.client.getAddress region l.name.text)
  | describes : Sends l region (l.client.getInstance l.locator)
  | reserves (resource : Json) : Sends l region (l.client.createAddress region resource)
  | waits (operation : String) : Sends l region (l.client.waitRegionOperation region operation)
  | fetches : Sends l region (l.client.getGuestAttributes l.locator attributesNamespace)
  | removesAddress : Sends l region (l.client.deleteAddress region l.name.text)
  | removesInstance : Sends l region (l.client.deleteInstance l.locator)

namespace Launch

variable {l : Launch} {course : List (World × Move)} {region : RegionLocator} {request : Request}

/-- The setup has described the instance, and every other exchange of it is one for its address. -/
theorem sends_of_asks {es : List Exchange} {e : Exchange} (h : l.start.server.Asks es)
    (hregion : l.locator.regionLocator = .ok region) (he : e ∈ es) :
    l.Sends region e.request := by
  cases h with
  | nothing => cases he
  | described _ hrequest =>
    rw [List.mem_singleton.mp he, hrequest]
    exact .describes
  | @reserved region' _ _ _ _ _ _ hdescribed hsubmits hwaits =>
    have hsame : region' = region := Except.ok.inj (hsubmits.region_eq.symm.trans hregion)
    subst hsame
    rcases List.mem_cons.mp he with rfl | he
    · rw [hdescribed.request_eq]
      exact .describes
    · rcases List.mem_cons.mp he with rfl | he
      · rw [hsubmits.request_eq]
        exact .reserves _
      · obtain ⟨name, hname⟩ := hwaits e he
        rw [hname]
        exact .waits name

/-- Whatever deletes removes the address or the instance. -/
theorem mem_removals_of_deletes
    (h : request ∈ l.world.requestsSince (l.start.amid course).world)
    (hdelete : request.method = "DELETE") : request ∈ l.start.server.removals := by
  rw [requestsSince_trans l.start_extends (amid_onward l.start course).journal] at h
  rcases List.mem_append.mp h with h | h
  · exact absurd hdelete (l.not_deletes_start h)
  · obtain ⟨sent, hsent, rfl⟩ := mem_requestsSince.mp h
    obtain ⟨before, w, m, rest, -, hpermits⟩ := mem_since_amid hsent
    obtain ⟨rfl, -⟩ := settled_of_deletes hpermits hdelete
    rcases hpermits with hnone | ⟨-, request, hrequest, hserves⟩
    · cases hnone
    · obtain rfl : request = sent.request := Option.some.inj hserves
      rw [within_server, (amid_onward l.start before).removals_eq] at hrequest
      exact hrequest

/-- Where the zone encodes a region, a server sends no other requests. -/
theorem sends_of_requested (hregion : l.locator.regionLocator = .ok region)
    (h : request ∈ l.world.requestsSince (l.start.amid course).world) :
    l.Sends region request := by
  rcases deletes_or_exchanged h with hdelete | ⟨e, he, rfl⟩
  · have hremoval := mem_removals_of_deletes h hdelete
    have hremovals : l.start.server.removals =
        [l.client.deleteAddress region l.name.text, l.client.deleteInstance l.locator] :=
      Server.removals_of_region (s := l.start.server) hregion
    rw [hremovals] at hremoval
    rcases List.mem_pair.mp hremoval with rfl | rfl
    · exact .removesAddress
    · exact .removesInstance
  · rcases List.mem_append.mp he with he | he
    · -- the look for a static address
      obtain ⟨region', hregion', he⟩ := Option.bind_eq_some_iff.mp (Option.mem_toList.mp he)
      rw [hregion] at hregion'
      cases hregion'
      rw [request_of_exchange? he]
      exact .looks
    · obtain ⟨setup, polls, hsetup, hasks, hpolls, -⟩ :=
        exchanges_reach (.refl l.start) rfl course
      rw [List.nil_append] at hsetup
      rw [hsetup] at he
      rcases List.mem_append.mp he with he | he
      · exact sends_of_asks hasks hregion he
      · rw [hpolls e he]
        exact .fetches

/-- The address that is reserved has the name that the description of the instance gives, or else
that of the server. -/
theorem exists_described_of_reserves (hregion : l.locator.regionLocator = .ok region)
    {earlier later : List Exchange} {e : Exchange}
    (h : l.start.exchanges course = earlier ++ e :: later)
    (hreserves : l.client.ReservesAddress e.request) :
    ∃ described data, earlier = [described] ∧
      described.request = l.client.getInstance l.locator ∧ described.content = .ok data ∧
      e.request = l.client.createAddress region e.request.body ∧
      e.request.body.member? "name" = some ((data.member? "name").getD l.name) := by
  obtain ⟨setup, polls, hsetup, hasks, hpolls, -⟩ := exchanges_reach (.refl l.start) rfl course
  rw [List.nil_append, h] at hsetup
  have hpolled (he : e ∈ polls) : False := by
    rw [hpolls e he] at hreserves
    exact Client.not_reservesAddress_of_get rfl hreserves
  have hdescribed (he : e.request = l.client.getInstance l.locator) : False := by
    rw [he] at hreserves
    exact Client.not_reservesAddress_of_get rfl hreserves
  have hmem : e ∈ setup ++ polls := by
    rw [← hsetup]
    exact List.mem_append_right _ List.mem_cons_self
  cases hasks with
  | nothing => exact (hpolled hmem).elim
  | described _ hrequest =>
    rcases List.mem_cons.mp hmem with rfl | he
    · exact (hdescribed hrequest).elim
    · exact (hpolled he).elim
  | @reserved region' data _ described reserved waits _ hdescribes hsubmits hwaits =>
    have hsame : region' = region := Except.ok.inj (hsubmits.region_eq.symm.trans hregion)
    subst hsame
    cases earlier with
    | nil =>
      obtain ⟨rfl, -⟩ := List.cons.inj hsetup
      exact (hdescribed hdescribes.request_eq).elim
    | cons first earlier =>
      obtain ⟨rfl, hrest⟩ := List.cons.inj hsetup
      cases earlier with
      | nil =>
        obtain ⟨rfl, -⟩ := List.cons.inj hrest
        exact ⟨first, data, rfl, hdescribes.request_eq, hdescribes.content_eq,
          hsubmits.request_eq, hsubmits.name_eq⟩
      | cons second earlier =>
        -- what follows the reservation are waits and polls
        obtain ⟨rfl, hlast⟩ := List.cons.inj hrest
        have he : e ∈ waits ++ polls := by
          rw [← show earlier ++ e :: later = waits ++ polls from hlast]
          exact List.mem_append_right _ List.mem_cons_self
        rcases List.mem_append.mp he with he | he
        · obtain ⟨name, hname⟩ := hwaits e he
          rw [hname] at hreserves
          exact (l.client.not_reservesAddress_wait _ name hreserves).elim
        · exact (hpolled he).elim

/-- Whenever a server in a region is deleted, nothing is deleted until its setup is settled, and
then the first request removes the address. -/
theorem removesAddress_of_delete (hregion : l.locator.regionLocator = .ok region)
    (surroundings : World) {steps : Nat} {o : Except Failure Unit} {r' : Run}
    (h : ((l.start.amid course).within surroundings).delete steps = some (o, r')) :
    ∃ phases,
      let r := (l.start.amid course).within surroundings
      let p := r.cancel.provisioned phases
      (∀ request ∈ r.world.requestsSince p.world, request.method ≠ "DELETE") ∧
      ∀ token, p.world.tokens.getToken.1 = .ok token →
        (p.world.requestsSince r'.world).head? =
          some (l.client.deleteAddress region l.name.text) := by
  let r := (l.start.amid course).within surroundings
  have hsound : r.Sound := within_sound (amid_sound l.start_sound course) surroundings
  obtain ⟨phases, -, htear, -⟩ := delete_eq_some hsound h
  refine ⟨phases, fun request => not_deletes_of_canceled r phases, fun token htoken => ?_⟩
  -- the resources are those of the launch all the way
  have honward : Onward (fun _ => True) l.start (r.cancel.provisioned phases) :=
    ((amid_onward l.start course).trans (within_onward _ surroundings)).trans
      (canceled_onward r phases)
  obtain ⟨hclient, hlocator, hname⟩ := honward.resources_eq
  have hrequests := tearDown_tearsDown htear (by rw [hlocator]; exact hregion)
  rw [hclient, hlocator, hname] at hrequests
  exact hrequests.head?_requests htoken

end Launch

/-! ## §3 Courses without a region -/

namespace Run

variable {r : Run} {f : Failure}

/-- Provisioning has not gone beyond the look for a static address, or it is over. -/
def Barred (r : Run) : Prop :=
  r.server.phase = .awaitingInstance ∨ r.server.phase = .consultingAddress ∨
    r.server.phase.setup? = none ∧ r.server.install.closed = true

/-- A setup that has failed is over. -/
theorem barred_of_failed (hr : r.Sound) (h : r.server.readiness = .failed f) : r.Barred := by
  have hfinished := hr.finished_of_failed f h
  refine Or.inr (Or.inr ⟨?_, hr.closed_of_finished hfinished⟩)
  exact setup?_of_isSetup_eq_false (Server.isSetup_of_isFinished hfinished)

/-- From the first phase provisioning comes to the look for a static address, unless the
installation has ended or the creation of the instance has failed. -/
theorem step_of_awaiting (h : r.server.phase = .awaitingInstance) :
    r.step.server.phase = .consultingAddress ∨
      (r.step.server.phase = .settling ∧ r.server.install.closed = true ∧
        r.step.server.install.closed = true) ∨
      ∃ f, r.step.server.readiness = .failed f := by
  have hstep : r.step = r.setUp awaitInstance := step_of_setup? (by rw [h]; rfl)
  rw [hstep, setUp, awaitInstance_outcome]
  cases r.server.creation with
  | error f => exact Or.inr (Or.inr ⟨f, rfl⟩)
  | ok created =>
    cases hclosed : r.server.install.closed with
    | true => exact Or.inr (Or.inl ⟨rfl, rfl, hclosed⟩)
    | false => exact Or.inl rfl

/-- A failed look for a static address fails the setup. -/
theorem step_of_consulting (h : r.server.phase = .consultingAddress)
    (hcheck : r.server.addressCheck = .error f) : r.step.server.readiness = .failed f := by
  have hstep : r.step = r.setUp consultAddress := step_of_setup? (by rw [h]; rfl)
  rw [hstep, setUp, consultAddress_outcome, hcheck]
  rfl

/-- If the look for a static address fails, no move leads beyond it. -/
theorem Barred.move (h : r.Barred) (hr : r.Sound) (hcheck : r.server.addressCheck = .error f)
    (move : Move) : (r.move move).Barred := by
  by_cases hmove : move = .provision
  · subst hmove
    have hsound : r.step.Sound := step_sound hr
    rcases h with hphase | hphase | ⟨hleft, hclosed⟩
    · rcases step_of_awaiting hphase with hnext | ⟨hnext, -, hclosed⟩ | ⟨f, hfailed⟩
      · exact Or.inr (Or.inl hnext)
      · exact Or.inr (Or.inr ⟨by rw [show (r.move .provision).server.phase = _ from hnext]; rfl,
          hclosed⟩)
      · exact barred_of_failed hsound hfailed
    · exact barred_of_failed hsound (step_of_consulting hphase hcheck)
    · refine Or.inr (Or.inr ⟨setup?_move hleft .provision, ?_⟩)
      rw [((move_onward r .provision).closed hclosed).1]
      exact hclosed
  · unfold Barred
    rw [phase_move r hmove]
    rcases h with hphase | hphase | ⟨hleft, hclosed⟩
    · exact Or.inl hphase
    · exact Or.inr (Or.inl hphase)
    · refine Or.inr (Or.inr ⟨hleft, ?_⟩)
      rw [((move_onward r move).closed hclosed).1]
      exact hclosed

/-- Until then provisioning exchanges nothing, and afterwards neither. -/
theorem Barred.exchangeOf_eq_none (h : r.Barred) (move : Move) : r.exchangeOf move = none := by
  cases move with
  | provision =>
    apply exchange?_of_no_request
    rcases h with hphase | hphase | ⟨hleft, hclosed⟩
    · simp only [request?, hphase]
    · simp only [request?, hphase]
    · cases hphase : r.server.phase with
      | polling deadline => simp only [request?, hphase, hclosed, if_true]
      | settling | pausing | finished => simp only [request?, hphase]
      | _ =>
        rw [hphase] at hleft
        cases hleft
  | _ => rfl

theorem Barred.exchanges_eq_nil (h : r.Barred) (hr : r.Sound)
    (hcheck : r.server.addressCheck = .error f) (moves : List (World × Move)) :
    r.exchanges moves = [] := by
  induction moves generalizing r with
  | nil => rfl
  | cons move moves ih =>
    obtain ⟨surroundings, move⟩ := move
    let p := r.within surroundings
    have hp : p.Sound := within_sound hr surroundings
    have hbarred : p.Barred := h
    have hmoved : (p.move move).server.addressCheck = .error f :=
      (move_onward p move).answers_eq.2.trans hcheck
    rw [exchanges, hbarred.exchangeOf_eq_none,
      ih (hbarred.move hp hcheck move) (move_sound hp move) hmoved]
    rfl

theorem not_ready_of_failed (hr : r.Sound) (h : r.server.readiness = .failed f)
    (moves : List (World × Move)) : (r.amid moves).server.readiness ≠ .ready := by
  rw [readiness_amid_of_settled hr (by rw [h]; rfl), h]
  exact nofun

theorem Sound.not_ready_of_isSetup (hr : r.Sound) (h : r.server.phase.isSetup = true) :
    r.server.readiness ≠ .ready := by
  intro hready
  have hpending := hr.isSettled_eq_false h
  rw [hready] at hpending
  cases hpending

/-- Whoever comes to a look for a static address that has failed is never ready. -/
theorem not_ready_of_consulting (hr : r.Sound) (h : r.server.phase = .consultingAddress)
    (hcheck : r.server.addressCheck = .error f) (moves : List (World × Move)) :
    (r.amid moves).server.readiness ≠ .ready := by
  induction moves generalizing r with
  | nil => exact hr.not_ready_of_isSetup (by rw [h]; rfl)
  | cons move moves ih =>
    obtain ⟨surroundings, move⟩ := move
    let p := r.within surroundings
    have hp : p.Sound := within_sound hr surroundings
    have hmoved : (p.move move).Sound := move_sound hp move
    by_cases hmove : move = .provision
    · subst hmove
      exact not_ready_of_failed hmoved (step_of_consulting h hcheck) moves
    · exact ih hmoved ((phase_move p hmove).trans h)
        ((move_onward p move).answers_eq.2.trans hcheck)

/-- If the look for a static address fails, the setup is settled with success only if it was left
because the installation had ended, and then it has not come to that look. -/
theorem left_of_ready (hr : r.Sound) (h : r.server.phase = .awaitingInstance)
    (hcheck : r.server.addressCheck = .error f) {moves : List (World × Move)}
    (hready : (r.amid moves).server.readiness = .ready) :
    (∃ before w rest, moves = before ++ (w, .provision) :: rest ∧
      (r.amid before).server.phase = .awaitingInstance ∧
      (r.amid before).server.state.isFinal = true) ∧
    ∀ before, before <+: moves → (r.amid before).server.phase ≠ .consultingAddress := by
  induction moves generalizing r with
  | nil => exact absurd hready (hr.not_ready_of_isSetup (by rw [h]; rfl))
  | cons move moves ih =>
    obtain ⟨surroundings, move⟩ := move
    let p := r.within surroundings
    have hp : p.Sound := within_sound hr surroundings
    have hmoved : (p.move move).Sound := move_sound hp move
    have hchecked : (p.move move).server.addressCheck = .error f :=
      (move_onward p move).answers_eq.2.trans hcheck
    -- the run itself has not come to the look, so its moves decide
    have hbefore (hrest : ∀ before, before <+: moves →
        ((p.move move).amid before).server.phase ≠ .consultingAddress) :
        ∀ before, before <+: (surroundings, move) :: moves →
          (r.amid before).server.phase ≠ .consultingAddress := by
      intro before hprefix
      rcases List.prefix_cons_iff.mp hprefix with rfl | ⟨others, rfl, hothers⟩
      · rw [amid_nil, h]
        exact nofun
      · exact hrest others hothers
    by_cases hmove : move = .provision
    · subst hmove
      rcases step_of_awaiting (r := p) h with hnext | ⟨hnext, hclosed, -⟩ | ⟨f', hfailed⟩
      · exact absurd hready (not_ready_of_consulting hmoved hnext hchecked moves)
      · refine ⟨⟨[], surroundings, moves, rfl, h, ?_⟩, hbefore fun before _ => ?_⟩
        · rw [amid_nil, ← hr.closed_eq]
          exact hclosed
        · have hleft : (p.move .provision).server.phase.setup? = none := by
            rw [show (p.move .provision).server.phase = _ from hnext]
            rfl
          intro hphase
          have hleft' := setup?_amid hleft before
          rw [hphase] at hleft'
          cases hleft'
      · exact absurd hready (not_ready_of_failed hmoved hfailed moves)
    · obtain ⟨⟨before, w, rest, rfl, hphase, hfinal⟩, hrest⟩ :=
        ih hmoved ((phase_move p hmove).trans h) hchecked hready
      exact ⟨⟨(surroundings, move) :: before, w, rest, rfl, hphase, hfinal⟩, hbefore hrest⟩

end Run

namespace Launch

variable {l : Launch} {course : List (World × Move)} {f : Failure}

theorem addressCheck_of_noRegion (hregion : l.locator.regionLocator = .error f) :
    l.start.server.addressCheck = .error (.setback (.addressCheck f.message)) := by
  rw [start_addressCheck, Server.checkAddress_of_noRegion hregion]

/-- Without a region nothing is ever requested. -/
theorem requests_eq_nil (hregion : l.locator.regionLocator = .error f) :
    l.world.requestsSince (l.start.amid course).world = [] := by
  apply List.eq_nil_iff_forall_not_mem.mpr
  intro request hrequest
  rcases deletes_or_exchanged hrequest with hdelete | ⟨e, he, -⟩
  · have hremoval := mem_removals_of_deletes hrequest hdelete
    unfold Server.removals at hremoval
    rw [show l.start.server.locator.regionLocator = .error f from hregion] at hremoval
    cases hremoval
  · have hbarred : l.start.Barred := Or.inl rfl
    have hcheck : l.check? = none := by
      unfold check?
      rw [hregion]
      rfl
    rw [hcheck, hbarred.exchanges_eq_nil l.start_sound (addressCheck_of_noRegion hregion)] at he
    cases he

/-- Whatever the zone of a server, all its requests for an address mean one address. If the zone
encodes a region, every request is one of a server in this region: the address that is looked for is
that of the server's name; the one that is reserved has this name as well, unless the instance is
described with another one; it is waited for in the same region; and deleting the server begins with
the removal of the address that was looked for. If the zone encodes no region, nothing is ever
requested, the address is never reported as static, and the setup is settled with success only if
the installation had ended before the look for a static address was consulted. -/
theorem one_address (l : Launch) (course : List (World × Move)) :
    let requests := l.world.requestsSince (l.start.amid course).world
    let encodes (region : String) :=
      region ≠ "" ∧ ∃ last, last ≠ "" ∧ '-' ∉ last.toList ∧ l.locator.zone = region ++ "-" ++ last
    (∀ region, encodes region →
      let here : RegionLocator := ⟨l.locator.project, region⟩
      let root := l.client.computeBase ++ "/projects/" ++ l.locator.project ++ "/regions/" ++ region
      let look := l.client.getAddress here l.name.text
      let removal := l.client.deleteAddress here l.name.text
      (look.url = root ++ "/addresses/" ++ l.name.text ∧ removal.url = look.url ∧
        (∀ resource, (l.client.createAddress here resource).url = root ++ "/addresses") ∧
        ∀ operation, (l.client.waitRegionOperation here operation).url =
          root ++ "/operations/" ++ operation ++ "/wait") ∧
      l.world.requestsSince l.start.world =
        (l.world.exchange? look).toList.map (·.request) ∧
      (∀ request ∈ requests, l.Sends here request) ∧
      requests.filter (·.method != "DELETE") =
        (l.check?.toList ++ l.start.exchanges course).map (·.request) ∧
      (∀ earlier e later, l.start.exchanges course = earlier ++ e :: later →
        l.client.ReservesAddress e.request →
        ∃ described data, earlier = [described] ∧
          described.request = l.client.getInstance l.locator ∧ described.content = .ok data ∧
          ((∀ name, data.member? "name" = some name → name = l.name) →
            e.request.body.member? "name" = some l.name ∧
            removal.url = e.request.url ++ "/" ++ l.name.text)) ∧
      ∀ surroundings steps o r',
        let r := (l.start.amid course).within surroundings
        r.delete steps = some (o, r') → ∃ phases,
          let p := r.cancel.provisioned phases
          (∀ request ∈ r.world.requestsSince p.world, request.method ≠ "DELETE") ∧
          ∀ token, p.world.tokens.getToken.1 = .ok token →
            (p.world.requestsSince r'.world).head? = some removal) ∧
    ((∀ region, ¬ encodes region) → requests = [] ∧
      (∀ before w rest, course = before ++ (w, .provision) :: rest →
        let p := (l.start.amid before).within w
        .ipAllocated ∉ p.world.transitionsSince p.step.world) ∧
      ((l.start.amid course).server.readiness = .ready →
        (∃ before w rest, course = before ++ (w, .provision) :: rest ∧
          (l.start.amid before).server.phase = .awaitingInstance ∧
          (l.start.amid before).server.state.isFinal = true) ∧
        ∀ before, before <+: course →
          (l.start.amid before).server.phase ≠ .consultingAddress)) := by
  intro requests encodes
  constructor
  · intro region hencodes here root look removal
    have hregion : l.locator.regionLocator = .ok here :=
      InstanceLocator.regionLocator_eq_ok_iff.mpr ⟨rfl, hencodes⟩
    have hroot : l.client.computeUrl (Client.regionPath here) = root :=
      l.client.computeUrl_regionPath here
    refine ⟨⟨?_, rfl, ?_, ?_⟩, ?_, ?_, l.requests_of_exchanges course, ?_, ?_⟩
    · simp only [look, Client.getAddress, Client.computeUrl_append, hroot]
    · intro resource
      simp only [Client.createAddress, Client.computeUrl_append, hroot]
    · intro operation
      simp only [Client.waitRegionOperation, Client.computeUrl_append, hroot]
    · rw [l.start_checks.1, check?, hregion]
      rfl
    · intro request hrequest
      exact sends_of_requested hregion hrequest
    · intro earlier e later hsplit hreserves
      obtain ⟨described, data, hearlier, hdescribed, hcontent, hrequest, hname⟩ :=
        exists_described_of_reserves hregion hsplit hreserves
      refine ⟨described, data, hearlier, hdescribed, hcontent, fun hsame => ⟨?_, ?_⟩⟩
      · rw [hname]
        cases hfound : data.member? "name" with
        | none => rfl
        | some name =>
          rw [hsame name hfound]
          rfl
      · rw [hrequest]
        simp only [removal, Client.deleteAddress, Client.createAddress, Client.computeUrl_append,
          String.append_assoc]
        rfl
    · intro surroundings steps o r' r hdelete
      exact removesAddress_of_delete hregion surroundings hdelete
  · intro hnone
    obtain ⟨f, hregion⟩ : ∃ f, l.locator.regionLocator = .error f := by
      cases hlocated : l.locator.regionLocator with
      | error f => exact ⟨f, rfl⟩
      | ok region => exact absurd (InstanceLocator.regionLocator_eq_ok_iff.mp hlocated).2 (hnone _)
    have hcheck := addressCheck_of_noRegion hregion
    refine ⟨requests_eq_nil hregion, ?_, ?_⟩
    · intro before w rest hcourse p hallocated
      obtain ⟨found, hfound⟩ := addressCheck_of_allocated hcourse hallocated
      rw [hcheck] at hfound
      cases hfound
    · intro hready
      exact left_of_ready l.start_sound rfl hcheck hready

-- the zone encodes no region, but the installation is called off before the setup comes to that
example :
    let l : Launch := { against [] with locator := ⟨"project", "zone", "1"⟩ }
    let r := l.start.after [.propose .canceled, .provision, .provision]
    r.server.readiness = .ready ∧ (l.world.requestsSince r.world).length = 0 :=
  ⟨rfl, by decide +kernel⟩

end Launch

end Fleet
