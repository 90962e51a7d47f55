import Fleet.Proofs.Cloud.Rejection
import Fleet.Proofs.Cloud.Routing
import Fleet.Proofs.Server.Endpoint
import Fleet.Proofs.Server.Deletion

/-!
# Commands that delete a server

A command deletes a server by calling its installation off, letting its setup settle and tearing it
down.  Only the teardown deletes anything, and it deletes the address and the instance of that
server in turn.  Whatever it fails with is one of the failures that a command reports, unless a
response to it is nested too deep: that is a fault, and a command passes it on.

## Main definitions

- `World.deletionsSince`: the requests between two worlds that delete
- `Event.Spares`: an event that deletes nothing

## Main statements

- `Server.removeResources_failure`: what a teardown fails with
- `Run.delete_deletions`: what deleting a server deletes, and what comes of it
- `CommandLine.deleteServer_outcome`: deleting a server as a part of a command
- `CommandLine.perform_of_ok`, `CommandLine.perform_of_failure`, `CommandLine.perform_of_unhandled`:
  how a command ends
-/

namespace Fleet

open Run World

/-! ## §1 Requests that delete -/

/-- An event that deletes nothing. -/
def Event.Spares (e : Event) : Prop :=
  ∀ request, e.request? = some request → request.method ≠ "DELETE"

theorem Event.Serves.spares {e : Event} (h : e.Serves none) : e.Spares := by
  intro request hrequest
  rw [h.request?_eq] at hrequest
  cases hrequest

theorem Event.Serves.spares_of_method {request : Request} (hmethod : request.method ≠ "DELETE")
    {e : Event} (h : e.Serves (some request)) : e.Spares := by
  cases e with
  | requested sent =>
    intro request' hrequest'
    cases hrequest'
    rwa [← Option.some.inj h]
  | _ => exact nofun

namespace World

variable {P Q : Event → Prop} {u v w : World}

/-- The requests between two worlds that delete, the oldest first. -/
def deletionsSince (w v : World) : List Request :=
  (w.requestsSince v).filter (·.method == "DELETE")

theorem deletionsSince_trans (h : Extends P u v) (h' : Extends Q v w) :
    u.deletionsSince w = u.deletionsSince v ++ v.deletionsSince w := by
  rw [deletionsSince, requestsSince_trans h h', List.filter_append]
  rfl

theorem deletionsSince_eq_nil_iff :
    w.deletionsSince v = [] ↔ ∀ request ∈ w.requestsSince v, request.method ≠ "DELETE" := by
  simp [deletionsSince, List.filter_eq_nil_iff]

theorem deletionsSince_of_spares (h : Extends Event.Spares w v) : w.deletionsSince v = [] := by
  rw [deletionsSince_eq_nil_iff]
  intro request hrequest
  obtain ⟨sent, hsent, rfl⟩ := mem_requestsSince.mp hrequest
  exact h.mem_since hsent sent.request rfl

theorem deletionsSince_of_serves_none (h : Extends (Event.Serves none) w v) :
    w.deletionsSince v = [] :=
  deletionsSince_of_spares (h.mono fun _ he => he.spares)

theorem extends_spares (h : Extends P w v) (hnone : w.deletionsSince v = []) :
    Extends Event.Spares w v := by
  obtain ⟨events, hj, -⟩ := h
  refine ⟨events, hj, fun e he request hrequest => ?_⟩
  apply deletionsSince_eq_nil_iff.mp hnone
  rw [requestsSince, since_eq events hj]
  exact List.mem_filterMap.mpr ⟨e, List.mem_reverse.mpr he, hrequest⟩

theorem log_spares (w : World) (level : Level) (message : String) :
    Extends Event.Spares w (w.log level message) :=
  .record nofun w

/-- What deletes nothing before and afterwards makes no difference. -/
theorem deletionsSince_eq_of_spares {x : World} (hbefore : Extends Event.Spares u v)
    (h : Extends P v w) (hafter : Extends Event.Spares w x) :
    u.deletionsSince x = v.deletionsSince w := by
  have hrest : Extends (fun _ => True) v x :=
    (h.mono fun _ _ => trivial).trans (hafter.mono fun _ _ => trivial)
  rw [deletionsSince_trans hbefore hrest, deletionsSince_of_spares hbefore,
    deletionsSince_trans h hafter, deletionsSince_of_spares hafter, List.append_nil]
  rfl

/-- Where everything deletes, the deletions are all requests. -/
theorem deletionsSince_of_prefix {requests : List Request}
    (hall : ∀ request ∈ requests, request.method = "DELETE")
    (h : w.requestsSince v <+: requests) : w.deletionsSince v = w.requestsSince v := by
  rw [deletionsSince, List.filter_eq_self]
  intro request hrequest
  rw [hall request (h.subset hrequest)]
  rfl

end World

/-! ## §2 Deleting a server -/

section Removal

variable {client : Client} {request : Request} {absent : String} {w v : World} {f : Failure}

/-- A removal fails with no other fault than that of a response nested too deep. -/
theorem removeResource_failure (hp : request.headers = .null)
    (h : (removeResource client (pure request) absent).outcome w = (.error f, v)) :
    f.isA .general = true ∨
      ∃ container,
        (w.network.respond request.method request.url).1.answer.tooDeep? = some container ∧
          f = .fault (.nestedTooDeep container) := by
  rw [removeResource_outcome] at h
  rcases hx : (client.execute request).outcome w with ⟨f' | value, u⟩
  all_goals rw [hx] at h
  · cases hf : f'.isNotFound
    all_goals
      simp only [hf] at h
      cases h
    exact client.execute_failure hp hx
  · cases h

/-- A removal that has succeeded has made the network respond once. -/
theorem removeResource_network (hp : request.headers = .null)
    (h : (removeResource client (pure request) absent).outcome w = (.ok (), v)) :
    v.network = (w.network.respond request.method request.url).2 := by
  cases htoken : w.tokens.getToken.1 with
  | error f =>
    -- that there is no token is not the answer that nothing was found
    rw [removeResource_outcome, client.execute_of_no_token request htoken] at h
    simp only [TokenStore.not_notFound_of_getToken htoken] at h
    cases h
  | ok token =>
    have hnetwork := client.network_execute hp htoken
    rw [removeResource_outcome] at h
    rcases hx : (client.execute request).outcome w with ⟨f | value, u⟩
    all_goals rw [hx] at h hnetwork
    · cases hf : f.isNotFound
      all_goals
        simp only [hf] at h
        cases h
      exact hnetwork
    · cases h
      exact hnetwork

end Removal

/-- A removal of an address and an instance deletes what it requests. -/
theorem Client.RemovesInTurn.deletionsSince_eq {client : Client} {region : RegionLocator}
    {name : String} {l : InstanceLocator} {w v : World} {o : Except Failure Unit}
    (h : client.RemovesInTurn (client.deleteAddress region name) (client.deleteInstance l) w o v) :
    w.deletionsSince v = w.requestsSince v := by
  refine deletionsSince_of_prefix (fun request hrequest => ?_)
    (h.requestsSince_prefix rfl rfl).1
  rcases List.mem_cons.mp hrequest with rfl | hrequest
  · rfl
  · rw [List.mem_singleton.mp hrequest]
    rfl

/-- That a zone encodes no region is no fault. -/
theorem InstanceLocator.isA_general_of_regionLocator {l : InstanceLocator} {f : Failure}
    (h : l.regionLocator = .error f) : f.isA .general = true := by
  unfold regionLocator ZoneLocator.regionLocator Zone.region at h
  split at h
  · cases h
  · cases h
    rfl

/-- A teardown fails with no other fault than that of a response to it that is nested too deep. -/
theorem Server.removeResources_failure {s : Server} {w v : World} {f : Failure}
    (h : s.removeResources.outcome w = (.error f, v)) :
    f.isA .general = true ∨
      ∃ container, f = .fault (.nestedTooDeep container) ∧
        ∃ response ∈ w.network.responses s.removals,
          response.answer.tooDeep? = some container := by
  cases hregion : s.locator.regionLocator with
  | error f' =>
    rw [removeResources_of_noRegion hregion] at h
    cases h
    exact .inl (InstanceLocator.isA_general_of_regionLocator hregion)
  | ok region =>
    let address := s.client.deleteAddress region s.name.text
    rw [removeResources_eq hregion] at h
    rw [removals_of_region hregion]
    rcases hx : (removeResource s.client (pure address)
      "Deleted server did not have a static IP").outcome w with ⟨f' | ⟨⟩, u⟩
    · rw [show Call.outcome _ w = _ from run_bind_of_error hx] at h
      cases h
      refine (removeResource_failure rfl hx).imp_right ?_
      rintro ⟨container, hdeep, hf⟩
      exact ⟨container, hf, _, List.mem_cons_self, hdeep⟩
    · -- the second removal has the network as the first one has left it
      rw [show Call.outcome _ w = _ from run_bind_of_ok hx] at h
      have hnetwork : u.network = (w.network.respond address.method address.url).2 :=
        removeResource_network rfl hx
      refine (removeResource_failure rfl h).imp_right ?_
      rintro ⟨container, hdeep, hf⟩
      rw [hnetwork] at hdeep
      exact ⟨container, hf, _, List.mem_cons_of_mem _ List.mem_cons_self, hdeep⟩

namespace Run

variable {r r' : Run}

/-- Whatever is called off has ended. -/
theorem Sound.isFinal_of_canceled (hr : r.Sound) (phases : Nat) :
    (r.cancel.provisioned phases).server.state.isFinal = true := by
  have hcanceled : r.cancel.Sound := move_sound hr (.propose .canceled)
  have hclosed : r.cancel.server.install.closed = true :=
    closed_enter_of_isFinal hr.toCoherent rfl none
  have hlater := after_onward r.cancel (List.replicate phases .provision)
  rw [provisioned, ← (hlater.coherent hcanceled.toCoherent).closed_eq, (hlater.closed hclosed).1]
  exact hclosed

/-- Calling off and provisioning delete nothing. -/
theorem deletionsSince_provisioned (r : Run) (phases : Nat) :
    r.world.deletionsSince (r.cancel.provisioned phases).world = [] := by
  rw [deletionsSince_eq_nil_iff]
  intro request hrequest
  exact not_deletes_of_canceled r phases hrequest

/-- Deleting a server ends its installation before it deletes anything. Then the address and the
instance of the server are removed in turn, unless its zone has no region; a failure of that is no
fault, unless a response to it is nested too deep. -/
theorem delete_deletions {steps : Nat} {o : Except Failure Unit} (hr : r.Sound)
    (h : r.delete steps = some (o, r')) :
    ∃ phases w, let p := r.cancel.provisioned phases
      r.world.Extends (fun _ => True) p.world ∧ p.server.state.isFinal = true ∧
      r.world.deletionsSince p.world = [] ∧ p.world.Extends (Event.Serves none) w ∧
      (∀ f, o = .error f → f.isA .general = true ∨
        ∃ container, f = .fault (.nestedTooDeep container) ∧
          ∃ response ∈ p.world.network.responses r.server.removals,
            response.answer.tooDeep? = some container) ∧
      (∀ region, r.server.locator.regionLocator = .ok region →
        r.server.client.RemovesInTurn (r.server.client.deleteAddress region r.server.name.text)
          (r.server.client.deleteInstance r.server.locator) w o r'.world) ∧
      ∀ f, r.server.locator.regionLocator = .error f → o = .error f ∧ r'.world = w := by
  obtain ⟨phases, -, htear, -⟩ := delete_eq_some hr h
  let p := r.cancel.provisioned phases
  have honward : Onward (fun _ => True) r p := canceled_onward r phases
  obtain ⟨hclient, hlocator, hname⟩ := honward.resources_eq
  obtain ⟨w, -, hnetwork, hw, heq⟩ := p.tearDown_eq
  rw [show p.tearDown = _ from htear] at heq
  cases heq
  have hturn : ∀ region, r.server.locator.regionLocator = .ok region →
      r.server.client.RemovesInTurn (r.server.client.deleteAddress region r.server.name.text)
        (r.server.client.deleteInstance r.server.locator) w
        (p.server.removeResources.outcome w).1 (p.server.removeResources.outcome w).2 := by
    intro region hregion
    have hturn := Server.removeResources_removesInTurn (hlocator ▸ hregion) w
    rwa [hclient, hlocator, hname] at hturn
  have hnone : ∀ f, r.server.locator.regionLocator = .error f →
      p.server.removeResources.outcome w = (.error f, w) :=
    fun f hf => Server.removeResources_of_noRegion (hlocator ▸ hf) w
  refine ⟨phases, w, honward.journal, hr.isFinal_of_canceled phases,
    r.deletionsSince_provisioned phases, hw, fun f hf => ?_, hturn, fun f hf => ?_⟩
  · rw [← honward.removals_eq, ← hnetwork]
    exact Server.removeResources_failure (Prod.ext hf rfl)
  · rw [hnone f hf]
    exact ⟨rfl, rfl⟩

/-- If the response to the deletion of the address is nested too deep, a teardown ends with that. -/
theorem tearDown_of_tooDeep {region : RegionLocator} {token : String} {container : Json.Container}
    (hregion : r.server.locator.regionLocator = .ok region)
    (htoken : r.world.tokens.getToken.1 = .ok token)
    (hdeep : let address := r.server.client.deleteAddress region r.server.name.text
      (r.world.network.respond address.method address.url).1.answer.tooDeep? = some container) :
    r.tearDown.1 = .error (.fault (.nestedTooDeep container)) := by
  obtain ⟨w, htokens, hnetwork, -, heq⟩ := r.tearDown_eq
  rw [← htokens] at htoken
  rw [← hnetwork] at hdeep
  obtain ⟨v, hexecute, -⟩ := r.server.client.execute_of_tooDeep rfl htoken hdeep
  have hturn := Server.removeResources_removesInTurn hregion w
  obtain ⟨-, -, hstopped⟩ := hturn.requestsSince_prefix rfl rfl
  rw [heq]
  exact (hstopped _ (congrArg Prod.fst hexecute) rfl).1

/-- If the deletion of a server succeeds, its zone has a region, and both its address and its
instance were deleted: when its state was final, and nothing was deleted before. -/
theorem deletions_of_deleted {steps : Nat} (hr : r.Sound)
    (h : r.delete steps = some (.ok (), r')) :
    ∃ region phases, let p := r.cancel.provisioned phases
      r.server.locator.regionLocator = .ok region ∧ p.server.state.isFinal = true ∧
      r.world.Extends Event.Spares p.world ∧
      p.world.deletionsSince r'.world =
        [r.server.client.deleteAddress region r.server.name.text,
          r.server.client.deleteInstance r.server.locator] := by
  obtain ⟨phases, w, hjournal, hfinal, hnone, hlog, -, hremoves, hnoRegion⟩ :=
    delete_deletions hr h
  cases hregion : r.server.locator.regionLocator with
  | error f => cases (hnoRegion f hregion).1
  | ok region =>
    have hturn := hremoves region hregion
    obtain ⟨-, hboth, -⟩ := hturn.requestsSince_prefix rfl rfl
    refine ⟨region, phases, rfl, hfinal, extends_spares hjournal hnone, ?_⟩
    rw [deletionsSince_trans hlog hturn.extends, deletionsSince_of_serves_none hlog,
      hturn.deletionsSince_eq, hboth rfl]
    rfl

end Run

/-! ## §3 Deleting in a command -/

/-- What is done to a server and does not come back is given up on. -/
theorem Server.run_onRun_of_none {α : Type} {s : Server} {act : Run → Option (α × Run)} {w : World}
    (h : act { server := s, world := w } = none) :
    (ExceptT.run (s.onRun act)).run w = (.error .unfinished, w) := by
  simp only [Server.onRun, ExceptT.run, StateT.run, h]

namespace CommandLine

variable {bound : Nat} {command : Command} {settings : Settings} {interrupt : Option Nat}
  {w v : World}

/-- Deleting a server as a part of a command comes back as deleting it does. -/
theorem deleteServer_outcome {r r' : Run} {o : Except Failure Unit}
    (h : r.delete bound = some (o, r')) :
    (deleteServer bound r.server).outcome r.world = (o.mapError .failure, r'.world) := by
  refine (run_bind_of_ok (Server.run_onRun h)).trans ?_
  cases o <;> rfl

theorem deleteServer_of_none {r : Run} (h : r.delete bound = none) :
    (deleteServer bound r.server).outcome r.world = (.error .unfinished, r.world) :=
  run_bind_of_error (Server.run_onRun_of_none h)

/-- A command that comes back with a code ends with it. -/
theorem perform_of_ok {code : Nat}
    (h : (run bound command settings interrupt).outcome w = (.ok code, v)) :
    (perform bound command settings interrupt).outcome w = (.ok code, v) :=
  run_tryCatch_of_ok h

/-- A command that fails reports the failure, if it is no fault. -/
theorem perform_of_failure {f : Failure} (hf : f.isA .general = true)
    (h : (run bound command settings interrupt).outcome w = (.error (.failure f), v)) :
    (perform bound command settings interrupt).outcome w =
      (.ok 1, v.log .error s!"{command.word} failed: {f.message}") := by
  refine (run_tryCatch_of_error h).trans ?_
  simp only [hf, if_true]
  rfl

/-- A command that fails otherwise, with a fault, passes the failure on. -/
theorem perform_of_unhandled {f : Failure} (hf : f.isA .general = false)
    (h : (run bound command settings interrupt).outcome w = (.error (.failure f), v)) :
    (perform bound command settings interrupt).outcome w = (.error (.failure f), v) := by
  refine (run_tryCatch_of_error h).trans ?_
  simp only [hf, Bool.false_eq_true, if_false]
  rfl

theorem perform_of_unfinished
    (h : (run bound command settings interrupt).outcome w = (.error .unfinished, v)) :
    (perform bound command settings interrupt).outcome w = (.error .unfinished, v) :=
  run_tryCatch_of_error h

end CommandLine

end Fleet
