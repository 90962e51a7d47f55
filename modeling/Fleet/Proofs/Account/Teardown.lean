import Fleet.Proofs.Cloud.Rejection
import Fleet.Proofs.Server.Deletion
import Fleet.Proofs.Server.Endpoint
import Fleet.Proofs.Server.Surroundings

/-!
# Tearing down what was created

A server is created in a zone of any name, but it is torn down in a region, and not every name of a
zone encodes one.  Where there is a region, deleting a server goes on to the instance unless the
address may still be there.  Where there is none, deleting fails before anything is requested, and
the instance stays.

## Main definitions

- `Answer.confirmsGone`: an answer after which nothing is left of what was to be deleted
- `World.Removal`, `World.TearsDown`: what the removal of a resource, and of both in turn, requests
  and what comes of it

## Main statements

- `removeResource_removal`: every removal of a resource goes in one of these ways
- `Server.removeResources_tearsDown`: a teardown in a region removes both resources in turn
- `Account.deletion_of_created`: deleting a created server, at any point of its course
-/

namespace Fleet

open Run World

/-! ## §1 Answers to deletions -/

/-- Nothing is left of what was to be deleted: the answer is one of success that can be read, or it
says that nothing was found and is not nested too deep to be read. -/
def Answer.confirmsGone : Answer → Bool
  | .reply r => r.tooDeep?.isNone && (r.status == 404 ||
      Client.isSuccess r.status && (r.body.isEmpty || (Json.read? r.body).isSome))
  | .broken _ => false

namespace Client

theorem isGone_content_iff (request : Request) (r : Reply) :
    IsGone (content request r) ↔ (r.body.isEmpty || (Json.read? r.body).isSome) = true := by
  unfold content IsGone
  cases r.body.isEmpty with
  | true => simp
  | false =>
    cases Json.read? r.body with
    | some value => simp
    | none => simp [Failure.isNotFound, Failure.class?]

/-- What was to be deleted is gone exactly if the answer says so. -/
theorem isGone_read_iff (delivery : Delivery) (w : World) :
    IsGone ((read delivery).outcome w).1 ↔ delivery.response.answer.confirmsGone = true := by
  rw [read_outcome]
  cases delivery.response.answer with
  | broken reason => simp [IsGone, Answer.confirmsGone, Failure.isNotFound, Failure.class?]
  | reply r =>
    simp only [Answer.confirmsGone]
    cases r.tooDeep? with
    | some container => simp [IsGone, Failure.isNotFound, Failure.class?]
    | none =>
      simp only [Option.isNone_none, Bool.true_and]
      cases hsuccess : isSuccess r.status with
      | true =>
        simp only [if_true, not_notFound_of_isSuccess hsuccess, Bool.false_or, Bool.true_and]
        exact isGone_content_iff delivery.request r
      | false => simp [IsGone, isNotFound_refusal]

end Client

/-- A token is not rejected by the answer that what was to be deleted is gone. -/
theorem Answer.rejects_of_confirmsGone {a : Answer} (h : a.confirmsGone = true) :
    a.rejects = false := by
  cases a with
  | broken reason => rfl
  | reply r =>
    by_contra hrejected
    obtain ⟨hstatus, -⟩ := Bool.and_eq_true_iff.mp (Bool.of_not_eq_false hrejected)
    rw [confirmsGone, eq_of_beq hstatus] at h
    simp [Client.isSuccess] at h

/-! ## §2 One resource -/

/-- How the removal of a resource goes: what comes of it, and the world after it. -/
inductive World.Removal (w : World) (request : Request) : Except Failure Unit → World → Prop
  /-- no token can be had for the request -/
  | unsent {f : Failure} {v : World} (htoken : w.tokens.getToken.1 = .error f)
      (hnone : w.requestsSince v = []) : Removal w request (.error f) v
  /-- the resource may be there still -/
  | refused {token : String} {f : Failure} {v : World} (htoken : w.tokens.getToken.1 = .ok token)
      (hanswer :
        (w.network.respond request.method request.url).1.answer.confirmsGone = false)
      (hsent : w.requestsSince v = [request]) : Removal w request (.error f) v
  /-- the resource is gone, and the token is there still -/
  | removed {token : String} {v : World} (htoken : w.tokens.getToken.1 = .ok token)
      (hanswer : (w.network.respond request.method request.url).1.answer.confirmsGone = true)
      (hsent : w.requestsSince v = [request]) (hkept : v.tokens.getToken.1 = .ok token) :
      Removal w request (.ok ()) v

/-- With a token the request is sent. -/
theorem World.Removal.requestsSince_of_token {w v : World} {request : Request} {token : String}
    {o : Except Failure Unit} (h : w.Removal request o v)
    (htoken : w.tokens.getToken.1 = .ok token) : w.requestsSince v = [request] := by
  cases h with
  | unsent hnone =>
    rw [htoken] at hnone
    cases hnone
  | refused _ _ hsent | removed _ _ hsent => exact hsent

/-- Every removal of a resource goes in one of these ways. -/
theorem removeResource_removal (client : Client) {request : Request}
    (hp : request.headers = .null) (absent : String) (w : World) :
    w.Removal request ((removeResource client (pure request) absent).outcome w).1
      ((removeResource client (pure request) absent).outcome w).2 := by
  rw [removeResource_outcome]
  cases htoken : w.tokens.getToken.1 with
  | error f =>
    rw [client.execute_of_no_token request htoken]
    simp only [TokenStore.not_notFound_of_getToken htoken]
    exact .unsent htoken (requestsSince_of_serves_none (Client.accessToken_extends none w))
  | ok token =>
    obtain ⟨v, hv, -, hserves, hsent, houtcome⟩ := client.execute_of_token hp htoken
    let delivery : Delivery :=
      { request, token, response := (w.network.respond request.method request.url).1 }
    have hread : v.Extends (Event.Serves none) ((Client.read delivery).outcome v).2 :=
      Client.read_extends none delivery v
    have hgone := Client.isGone_read_iff delivery v
    have htokens := Client.read_tokens delivery v
    have hone : ∀ u, v.Extends (Event.Serves none) u → w.requestsSince u = [request] := by
      intro u hu
      rw [requestsSince_trans hserves hu, requestsSince_of_serves_none hu, requestsSince_eq_map,
        hsent]
      rfl
    -- if the resource is gone, its answer has not rejected the token
    have hkept : delivery.response.answer.confirmsGone = true →
        ((Client.read delivery).outcome v).2.tokens.getToken.1 = .ok token := by
      intro hconfirms
      rw [htokens, Answer.rejects_of_confirmsGone hconfirms, hv]
      exact TokenStore.getToken_getToken htoken
    rw [houtcome]
    rcases hx : (Client.read delivery).outcome v with ⟨f | value, u⟩
    all_goals
      rw [hx] at hgone hread hkept
      simp only
    · cases hf : f.isNotFound with
      | false =>
        have hrefused : delivery.response.answer.confirmsGone = false := by
          rw [← Bool.not_eq_true, ← hgone]
          intro h
          rw [h f rfl] at hf
          cases hf
        exact .refused htoken hrefused (hone u hread)
      | true =>
        have hconfirms : delivery.response.answer.confirmsGone = true :=
          hgone.mp fun f' hf' => by cases hf'; exact hf
        exact .removed htoken hconfirms (hone _ (hread.trans (.record trivial u)))
          (hkept hconfirms)
    · have hconfirms : delivery.response.answer.confirmsGone = true :=
        hgone.mp fun f' hf' => by cases hf'
      exact .removed htoken hconfirms (hone u hread) (hkept hconfirms)

/-! ## §3 Both resources -/

/-- How far the teardown of an address and an instance gets, told by the token and by the answer to
the first of the two requests: what comes of it, and what is requested. -/
structure World.TearsDown (w : World) (first second : Request) (o : Except Failure Unit)
    (requests : List Request) : Prop where
  /-- without a token nothing is requested -/
  unsent : ∀ f, w.tokens.getToken.1 = .error f → o = .error f ∧ requests = []
  /-- if the first resource may be there still, the second one is not touched -/
  refused : ∀ token, w.tokens.getToken.1 = .ok token →
    (w.network.respond first.method first.url).1.answer.confirmsGone = false →
    (∃ f, o = .error f) ∧ requests = [first]
  /-- if it is gone, the second one is requested to be deleted as well -/
  sent : ∀ token, w.tokens.getToken.1 = .ok token →
    (w.network.respond first.method first.url).1.answer.confirmsGone = true →
    requests = [first, second]

/-- A teardown in a region removes the address and the instance in turn. -/
theorem Server.removeResources_tearsDown {s : Server} {region : RegionLocator}
    (hregion : s.locator.regionLocator = .ok region) (w : World) :
    w.TearsDown (s.client.deleteAddress region s.name.text) (s.client.deleteInstance s.locator)
      (s.removeResources.outcome w).1 (w.requestsSince (s.removeResources.outcome w).2) := by
  let address := s.client.deleteAddress region s.name.text
  let host := s.client.deleteInstance s.locator
  let removal := removeResource s.client (pure address) "Deleted server did not have a static IP"
  let removal' := removeResource s.client (pure host) "No instance for deleted server"
  have hfirst : w.Removal address (removal.outcome w).1 (removal.outcome w).2 :=
    removeResource_removal s.client rfl _ w
  have hremoves : s.client.Removes address w (removal.outcome w).1 (removal.outcome w).2 :=
    removeResource_removes s.client rfl _ w
  rw [s.removeResources_eq hregion]
  rcases hx : removal.outcome w with ⟨f | ⟨⟩, v⟩
  all_goals rw [hx] at hfirst hremoves
  · -- the first removal fails, and so does the teardown
    have houtcome : Call.outcome (do removal; removal') w = (.error f, v) := run_bind_of_error hx
    rw [houtcome]
    cases hfirst with
    | unsent htoken hnone =>
      refine ⟨fun f' hf' => ?_, fun token hok => ?_, fun token hok => ?_⟩
      · rw [htoken] at hf'
        cases hf'
        exact ⟨rfl, hnone⟩
      all_goals
        rw [htoken] at hok
        cases hok
    | refused htoken hanswer hsent =>
      refine ⟨fun f' hf' => ?_, fun _ _ _ => ⟨⟨f, rfl⟩, hsent⟩, fun _ _ hgone => ?_⟩
      · rw [htoken] at hf'
        cases hf'
      · rw [hanswer] at hgone
        cases hgone
  · -- it succeeds, and the token that it has left is there for the second one
    have houtcome : Call.outcome (do removal; removal') w = removal'.outcome v := run_bind_of_ok hx
    have hsecond : v.Removal host (removal'.outcome v).1 (removal'.outcome v).2 :=
      removeResource_removal s.client rfl _ v
    have hremoves' : s.client.Removes host v (removal'.outcome v).1 (removal'.outcome v).2 :=
      removeResource_removes s.client rfl _ v
    rw [houtcome]
    cases hfirst with
    | removed htoken hanswer hsent hkept =>
      refine ⟨fun f' hf' => ?_, fun _ _ hrefused => ?_, fun _ _ _ => ?_⟩
      · rw [htoken] at hf'
        cases hf'
      · rw [hanswer] at hrefused
        cases hrefused
      · rw [requestsSince_trans hremoves.extends hremoves'.extends, hsent,
          hsecond.requestsSince_of_token hkept]
        rfl

namespace Run

variable {r r' : Run} {o : Except Failure Unit}

/-- What a teardown requests depends on the region that the zone of the server encodes. -/
theorem tearDown_requests (h : r.tearDown = (o, r')) :
    match Zone.region r.server.locator.zone with
    | .ok region =>
      r.world.TearsDown
        (r.server.client.deleteAddress ⟨r.server.locator.project, region⟩ r.server.name.text)
        (r.server.client.deleteInstance r.server.locator) o (r.world.requestsSince r'.world)
    | .error f => o = .error f ∧ r.world.requestsSince r'.world = [] := by
  obtain ⟨w, htokens, hnetwork, hquiet, heq⟩ := r.tearDown_eq
  rw [heq] at h
  cases h
  have hlocator : r.server.locator.regionLocator =
      (Zone.region r.server.locator.zone).map (⟨r.server.locator.project, ·⟩) := rfl
  cases hzone : Zone.region r.server.locator.zone with
  | error f =>
    rw [hzone] at hlocator
    rw [Server.removeResources_of_noRegion hlocator]
    exact ⟨rfl, requestsSince_of_serves_none hquiet⟩
  | ok region =>
    rw [hzone] at hlocator
    have htears := Server.removeResources_tearsDown hlocator w
    have hext : w.Extends _ (r.server.removeResources.outcome w).2 :=
      r.server.removeResources_extends w
    have hrequests : r.world.requestsSince (r.server.removeResources.outcome w).2 =
        w.requestsSince (r.server.removeResources.outcome w).2 := by
      rw [requestsSince_trans hquiet hext, requestsSince_of_serves_none hquiet]
      rfl
    simp only [hrequests]
    exact ⟨htokens ▸ htears.unsent, htokens ▸ hnetwork ▸ htears.refused,
      htokens ▸ hnetwork ▸ htears.sent⟩

end Run

/-! ## §4 Created servers -/

/-- A zone encodes a region exactly if its name is that of the region, a dash and a last part. -/
theorem Zone.region_eq_ok_iff {zone region : String} : Zone.region zone = .ok region ↔
    region ≠ "" ∧ ∃ last, last ≠ "" ∧ '-' ∉ last.toList ∧ zone = region ++ "-" ++ last := by
  have hchars : Zone.region zone = .ok region ↔
      regionChars? zone.toList = some region.toList := by
    unfold Zone.region
    cases regionChars? zone.toList with
    | none => simp
    | some chars =>
      simp only [Except.ok.injEq, Option.some.injEq]
      exact ⟨fun h => by rw [← h, String.toList_ofList], fun h => by rw [h, String.ofList_toList]⟩
  rw [hchars, regionChars?_eq_some]
  constructor
  · rintro ⟨hregion, last, hlast, hdash, hzone⟩
    refine ⟨fun h => hregion (by rw [h]; rfl), String.ofList last, ?_, ?_, ?_⟩
    · simpa using hlast
    · rwa [String.toList_ofList]
    · apply String.toList_inj.mp
      rw [hzone, String.toList_append, String.toList_append, String.toList_ofList]
      simp
  · rintro ⟨hregion, last, hlast, hdash, rfl⟩
    refine ⟨by simpa using hregion, last.toList, by simpa using hlast, hdash, ?_⟩
    simp [String.toList_append]

namespace Account

variable {account : Account} {waits : Nat} {project name zone : String} {metrics : Bool}
  {server : Server} {w v : World}

/-- A submitted instance is in the given zone. -/
theorem submitInstance_returns (account : Account) (project name zone : String) (metrics : Bool)
    (instanceName : String) :
    Returns (fun submission => ∃ id, submission.1 = ⟨project, zone, id⟩)
      (account.submitInstance project name zone metrics instanceName) := by
  refine Returns.bind fun operation => .bind fun errors => ?_
  split
  · exact .bind fun _ => .bind fun target => .bind fun _ => .bind fun _ => .pure ⟨_, rfl⟩
  · exact .bind fun target => .bind fun _ => .bind fun _ => .pure ⟨_, rfl⟩

/-- What a created server is made of. -/
theorem createServer_resources
    (h : (account.createServer waits project name zone metrics).outcome w = (.ok server, v)) :
    server.client = account.client ∧ (∃ id, server.locator = ⟨project, zone, id⟩) ∧
      ({ server, world := v } : Run).Sound := by
  obtain ⟨launch, hlaunch⟩ := exists_launch_of_createServer h
  unfold createServer Job.outcome at h
  obtain ⟨_, _, -, h⟩ := exists_of_run_bind_eq_ok h
  obtain ⟨_, _, -, h⟩ := exists_of_run_bind_eq_ok h
  obtain ⟨⟨locator, operation⟩, _, hsubmitted, h⟩ := exists_of_run_bind_eq_ok h
  obtain ⟨creation, u, -, h⟩ := exists_of_run_bind_eq_ok h
  obtain ⟨id, hlocator⟩ := account.submitInstance_returns _ _ _ _ _ _ _
    (congrArg Prod.fst (Job.outcome_of_run_ofCall hsubmitted))
  obtain ⟨hserver, -⟩ := Prod.mk.inj h
  obtain rfl := Except.ok.inj hserver
  exact ⟨rfl, ⟨id, hlocator⟩, hlaunch ▸ launch.start_sound⟩

/-- Deleting a created server, at any point of its course and in any surroundings. It comes back
exactly if the setup is settled or provisioning comes to its end, and nothing is requested to be
deleted before. In a zone that encodes a region the deletion of the instance is requested then,
unless that of the address has failed; in any other zone deleting fails and requests nothing. -/
theorem deletion_of_created
    (h : (account.createServer waits project name zone metrics).outcome w = (.ok server, v))
    (course : List (World × Move)) (surroundings : World) :
    let r := (({ server, world := v } : Run).amid course).within surroundings
    (∀ region, Zone.region zone = .ok region ↔
      region ≠ "" ∧ ∃ last, last ≠ "" ∧ '-' ∉ last.toList ∧ zone = region ++ "-" ++ last) ∧
    (∀ steps, (r.delete steps).isSome = true ↔ r.server.readiness.isSettled = true ∨
      ∃ phases ≤ steps, (r.cancel.provisioned phases).server.isFinished = true) ∧
    ∀ steps o r', r.delete steps = some (o, r') → ∃ phases,
      let p := r.cancel.provisioned phases
      p.server.readiness.isSettled = true ∧
      (∀ request ∈ r.world.requestsSince p.world, request.method ≠ "DELETE") ∧
      match Zone.region zone with
      | .ok region =>
        p.world.TearsDown (account.client.deleteAddress ⟨project, region⟩ server.name.text)
          (account.client.deleteInstance server.locator) o (p.world.requestsSince r'.world)
      | .error f => o = .error f ∧ p.world.requestsSince r'.world = [] := by
  intro r
  obtain ⟨hclient, ⟨id, hlocator⟩, hcreated⟩ := createServer_resources h
  have hsound : r.Sound := within_sound (amid_sound hcreated course) surroundings
  have hcourse : Onward (fun _ => True) ({ server, world := v } : Run) r :=
    (amid_onward _ course).trans (within_onward _ surroundings)
  refine ⟨fun region => Zone.region_eq_ok_iff, fun steps => ?_, fun steps o r' hdelete => ?_⟩
  · have hreadiness : r.cancel.server.readiness = r.server.readiness :=
      readiness_move r (.propose .canceled)
    rw [delete_isSome_iff, hreadiness]
  · obtain ⟨phases, hs, htear, -⟩ := delete_eq_some hsound hdelete
    refine ⟨phases, hs, fun request hrequest => ?_, ?_⟩
    · exact not_deletes_of_canceled r phases hrequest
    · -- the resources are those of the creation all the way
      have honward : Onward (fun _ => True) ({ server, world := v } : Run)
          (r.cancel.provisioned phases) :=
        hcourse.trans (canceled_onward r phases)
      obtain ⟨hclient', hlocator', hname'⟩ := honward.resources_eq
      have hrequests := tearDown_requests htear
      rw [show (r.cancel.provisioned phases).server.client = account.client from
          hclient'.trans hclient,
        show (r.cancel.provisioned phases).server.locator = server.locator from hlocator',
        show (r.cancel.provisioned phases).server.name = server.name from hname'] at hrequests
      rw [hlocator] at hrequests ⊢
      exact hrequests

/-- A network that has a firewall, accepts an instance, and answers everything else with success. -/
def willing : Network :=
  [{ responses :=
      [{ answer := .reply { body := "\x7b\"items\": [1]\x7d" } },
        { answer := .reply { body := "\x7b\"targetId\": \"1\", \"name\": \"operation\"\x7d" } },
        { answer := .reply {} }] }]

theorem deletion_of_created_in_region :
    let account : Account := { id := "account" }
    let w : World := { network := willing, tokens := .make (some "token") none none none }
    ∃ server v, (account.createServer 1 "project" "name" "region-a" true).outcome w =
        (.ok server, v) ∧
      ∃ o r, ∃ p : World, (Run.mk server v).delete 2 = some (o, r) ∧
        p.TearsDown (account.client.deleteAddress ⟨"project", "region"⟩ server.name.text)
          (account.client.deleteInstance server.locator) o (p.requestsSince r.world) ∧
        (v.requestsSince r.world).map (·.method) = ["DELETE", "DELETE"] := by
  intro account w
  have hdeleted :
      let created := (account.createServer 1 "project" "name" "region-a" true).outcome w
      let deleted := created.1.toOption.bind fun server => (Run.mk server created.2).delete 2
      deleted.map (fun done => (created.2.requestsSince done.2.world).map (·.method)) =
        some ["DELETE", "DELETE"] := by
    decide +kernel
  rcases hserver : (account.createServer 1 "project" "name" "region-a" true).outcome w with
    ⟨halt | server, v⟩
  all_goals rw [hserver] at hdeleted
  · cases hdeleted
  · obtain ⟨⟨o, r⟩, hdelete, hmethods⟩ := Option.map_eq_some_iff.mp hdeleted
    obtain ⟨-, -, hdeletion⟩ := deletion_of_created hserver [] v
    obtain ⟨phases, -, -, htears⟩ := hdeletion 2 o r hdelete
    exact ⟨server, v, rfl, o, r, _, hdelete, htears, hmethods⟩

/-- A zone whose name has no dash encodes no region. A server is created in it, and deleting it
fails for that, with no request that deletes. -/
theorem no_deletion_of_created_without_region :
    let account : Account := { id := "account" }
    let w : World := { network := willing, tokens := .make (some "token") none none none }
    let created := (account.createServer 1 "project" "name" "zone1" true).outcome w
    let deleted := created.1.toOption.bind fun server => (Run.mk server created.2).delete 2
    deleted.map (fun (o, r) => (o.mapError (·.message), (w.requestsSince r.world).map (·.method))) =
      some (.error "Zone name does not encode a region: 'zone1'", ["GET", "POST", "POST"]) := by
  decide +kernel

end Account

end Fleet
