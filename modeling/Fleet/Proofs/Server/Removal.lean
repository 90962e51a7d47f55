import Fleet.Proofs.Journal
import Fleet.Server.Teardown

/-!
# Removing the resources of a server

A teardown makes two requests, one for the address and one for the instance.  That a resource does
not exist is no obstacle to it; any other failure is, and ends it with that failure.

## Main definitions

- `Client.Removes`: how the removal of one resource goes
- `Client.RemovesInTurn`: how the removal of two resources goes, one after the other

## Main statements

- `Server.removeResources_removesInTurn`: a teardown in a region removes the address and then the
  instance
- `Server.removeResources_extends`: a teardown makes no other requests
-/

namespace Fleet

open World

/-! ## §1 One resource -/

/-- A call that deletes has succeeded, or what it deletes does not exist. -/
def IsGone (x : Except Failure Json) : Prop :=
  ∀ f, x = .error f → f.isNotFound = true

/-- How the removal of a resource goes: what comes of it, and the world after it. -/
inductive Client.Removes (client : Client) (request : Request) (w : World) :
    Except Failure Unit → World → Prop
  /-- the call fails, and the resource may be there still -/
  | kept {f : Failure} {v : World} (hw : (client.execute request).outcome w = (.error f, v))
      (hf : f.isNotFound = false) : Removes client request w (.error f) v
  /-- the request was sent, and the resource is gone -/
  | gone {x : Except Failure Json} {v v' : World}
      (hw : (client.execute request).outcome w = (x, v)) (hx : IsGone x)
      (hv : v.Extends (Event.Serves none) v') (hsent : w.requestsSince v' = [request]) :
      Removes client request w (.ok ()) v'

namespace Client

variable {client : Client} {request : Request} {w v : World} {o : Except Failure Unit}

theorem Removes.extends (h : client.Removes request w o v) :
    w.Extends (Event.Serves (some request)) v := by
  cases h with
  | kept hw => exact (client.execute_extends request).of_run hw
  | gone hw hx hv =>
    have hexecuted := (client.execute_extends request).of_run hw
    exact hexecuted.trans (hv.mono fun _ he => he.weaken)

/-- A removal sends its request, unless no token can be had for it. -/
theorem Removes.requestsSince_eq (hp : request.headers = .null) (h : client.Removes request w o v) :
    w.requestsSince v = [request] ∨ w.requestsSince v = [] := by
  cases h with
  | kept hw =>
    have hsent := client.execute_cases hp w
    rw [hw] at hsent
    rcases hsent with ⟨-, -, -, hnone⟩ | hone
    · exact Or.inr hnone
    · exact Or.inl hone
  | gone _ _ _ hsent => exact Or.inl hsent

end Client

/-- A removal goes as its call does, but that nothing was found is passed over. -/
theorem removeResource_outcome (client : Client) (request : Request) (absent : String)
    (w : World) :
    (removeResource client (pure request) absent).outcome w =
      match (client.execute request).outcome w with
      | (.ok _, v) => (.ok (), v)
      | (.error f, v) =>
        if f.isNotFound then (.ok (), v.log .warning absent) else (.error f, v) := by
  have hbody : (ExceptT.run (do discard (client.execute (← pure request)) : Call Unit)).run w =
      (((client.execute request).outcome w).1.map fun _ => (),
        ((client.execute request).outcome w).2) := by
    refine (run_bind_of_ok rfl).trans ?_
    rcases hx : (client.execute request).outcome w with ⟨f | value, v⟩
    · exact run_bind_of_error hx
    · exact run_bind_of_ok hx
  rcases hx : (client.execute request).outcome w with ⟨f | value, v⟩
  all_goals rw [hx] at hbody
  · refine (run_tryCatch_of_error hbody).trans ?_
    cases hf : f.isNotFound <;> simp only [hf] <;> rfl
  · exact run_tryCatch_of_ok hbody

/-- Every removal of a resource goes in one of these ways. -/
theorem removeResource_removes (client : Client) {request : Request}
    (hp : request.headers = .null) (absent : String) (w : World) :
    client.Removes request w ((removeResource client (pure request) absent).outcome w).1
      ((removeResource client (pure request) absent).outcome w).2 := by
  have hsent := client.execute_cases hp w
  rw [removeResource_outcome]
  rcases hx : (client.execute request).outcome w with ⟨f | value, v⟩
  all_goals
    rw [hx] at hsent
    simp only
  · -- the call has failed, and it depends on the failure whether the resource is there still
    have hext : w.Extends (Event.Serves (some request)) v :=
      (client.execute_extends request).of_run hx
    cases hf : f.isNotFound with
    | false => exact .kept hx hf
    | true =>
      have hlog : v.Extends (Event.Serves none) (v.log .warning absent) := .record trivial v
      have hone : w.requestsSince (v.log .warning absent) = [request] := by
        -- had no token been there, the failure would be another one
        rcases hsent with ⟨f', hf', hother, -⟩ | hsent
        · cases hf'
          rw [hf] at hother
          cases hother
        · rw [requestsSince_trans hext hlog, hsent, requestsSince_of_serves_none hlog]
          rfl
      exact .gone hx (fun f' hf' => by cases hf'; exact hf) hlog hone
  · rcases hsent with ⟨f, hf, -⟩ | hsent
    · cases hf
    · exact .gone hx (fun f' hf' => by cases hf') (.refl v) hsent

/-! ## §2 Both resources -/

/-- How the removal of two resources in turn goes: what comes of it, and the world after it. -/
inductive Client.RemovesInTurn (client : Client) (first second : Request) (w : World) :
    Except Failure Unit → World → Prop
  /-- the first may be there still, and the second is not touched -/
  | stopped {f : Failure} {v : World} (h : client.Removes first w (.error f) v) :
      RemovesInTurn client first second w (.error f) v
  /-- the first is gone, and the rest is the matter of the second -/
  | continued {o : Except Failure Unit} {v v' : World} (h : client.Removes first w (.ok ()) v)
      (h' : client.Removes second v o v') : RemovesInTurn client first second w o v'

namespace Client

variable {client : Client} {first second : Request} {w v : World} {o : Except Failure Unit}

theorem RemovesInTurn.extends (h : client.RemovesInTurn first second w o v) :
    w.Extends (fun e => e.Serves (some first) ∨ e.Serves (some second)) v := by
  cases h with
  | stopped h => exact h.extends.mono fun _ => Or.inl
  | continued h h' =>
    exact (h.extends.mono fun _ => Or.inl).trans (h'.extends.mono fun _ => Or.inr)

/-- Both requests are sent in turn, or the first of them only, or none: both if nothing stands in
the way, and not the second if what the first deletes may be there still. -/
theorem RemovesInTurn.requestsSince_prefix (hp : first.headers = .null)
    (hp' : second.headers = .null) (h : client.RemovesInTurn first second w o v) :
    w.requestsSince v <+: [first, second] ∧ (o = .ok () → w.requestsSince v = [first, second]) ∧
      ∀ f, ((client.execute first).outcome w).1 = .error f → f.isNotFound = false →
        o = .error f ∧ w.requestsSince v <+: [first] := by
  cases h with
  | @stopped f v h =>
    have hfirst : w.requestsSince v <+: [first] := by
      rcases h.requestsSince_eq hp with hone | hnone
      · simp [hone]
      · simp [hnone]
    refine ⟨hfirst.trans ⟨[second], rfl⟩, nofun, fun f' hf' _ => ⟨?_, hfirst⟩⟩
    -- the failure of the first call is the one that ends it all
    cases h with
    | kept hw =>
      rw [hw] at hf'
      cases hf'
      rfl
  | @continued o u v h h' =>
    have hsent : w.requestsSince u = [first] := by
      cases h with
      | gone _ _ _ hsent => exact hsent
    rw [World.requestsSince_trans h.extends h'.extends, hsent]
    refine ⟨?_, ?_, ?_⟩
    · -- for the second request there may be no token any more
      rcases h'.requestsSince_eq hp' with hone | hnone
      · rw [hone]
        exact List.prefix_rfl
      · rw [hnone]
        exact ⟨[second], rfl⟩
    · rintro rfl
      cases h' with
      | gone _ _ _ hsent' =>
        rw [hsent']
        rfl
    · -- the first is gone, so its call has not failed like that
      intro f hf hother
      cases h with
      | gone hw hx =>
        rw [hw] at hf
        rw [hx f hf] at hother
        cases hother

end Client

/-- Every removal of two resources in turn goes in one of these ways. -/
theorem removeInTurn_removes (client : Client) {first second : Request}
    (hp : first.headers = .null) (hp' : second.headers = .null) (absent absent' : String)
    (w : World) :
    let call : Call Unit := do
      removeResource client (pure first) absent
      removeResource client (pure second) absent'
    client.RemovesInTurn first second w (call.outcome w).1 (call.outcome w).2 := by
  intro call
  have hfirst := removeResource_removes client hp absent w
  rcases hx : (removeResource client (pure first) absent).outcome w with ⟨f | ⟨⟩, v⟩
  · have hcall : call.outcome w = (.error f, v) := run_bind_of_error hx
    rw [hx] at hfirst
    rw [hcall]
    exact .stopped hfirst
  · have hcall : call.outcome w = (removeResource client (pure second) absent').outcome v :=
      run_bind_of_ok hx
    rw [hx] at hfirst
    rw [hcall]
    exact .continued hfirst (removeResource_removes client hp' absent' v)

/-- The requests of a teardown in their order. Without a region there are none. -/
def Server.removals (s : Server) : List Request :=
  match s.locator.regionLocator with
  | .ok region =>
    [s.client.deleteAddress region s.name.text, s.client.deleteInstance s.locator]
  | .error _ => []

theorem Server.removals_of_region {s : Server} {region : RegionLocator}
    (hregion : s.locator.regionLocator = .ok region) :
    s.removals =
      [s.client.deleteAddress region s.name.text, s.client.deleteInstance s.locator] := by
  rw [removals, hregion]

theorem Server.method_of_mem_removals {s : Server} {request : Request}
    (h : request ∈ s.removals) : request.method = "DELETE" := by
  unfold removals at h
  split at h
  · rcases List.mem_cons.mp h with rfl | h
    · rfl
    · rw [List.mem_singleton.mp h]
      rfl
  · cases h

/-- That a zone encodes no region is not the answer that something does not exist. -/
theorem InstanceLocator.not_notFound_of_regionLocator {l : InstanceLocator} {f : Failure}
    (h : l.regionLocator = .error f) : f.isNotFound = false := by
  unfold regionLocator ZoneLocator.regionLocator Zone.region at h
  split at h
  · cases h
  · cases h
    rfl

namespace Server

variable {s : Server} {region : RegionLocator}

/-- A teardown in a region consists of two removals. -/
theorem removeResources_eq (hregion : s.locator.regionLocator = .ok region) :
    s.removeResources = (do
      removeResource s.client (pure (s.client.deleteAddress region s.name.text))
        "Deleted server did not have a static IP"
      removeResource s.client (pure (s.client.deleteInstance s.locator))
        "No instance for deleted server") := by
  unfold removeResources
  rw [hregion]
  rfl

/-- A teardown in a region removes the address and the instance in turn. -/
theorem removeResources_removesInTurn (hregion : s.locator.regionLocator = .ok region)
    (w : World) :
    s.client.RemovesInTurn (s.client.deleteAddress region s.name.text)
      (s.client.deleteInstance s.locator) w (s.removeResources.outcome w).1
      (s.removeResources.outcome w).2 := by
  rw [removeResources_eq hregion]
  exact removeInTurn_removes s.client rfl rfl _ _ w

/-- Without a region a teardown fails at once. -/
theorem removeResources_of_noRegion {f : Failure} (hregion : s.locator.regionLocator = .error f)
    (w : World) : s.removeResources.outcome w = (.error f, w) := by
  have hf : f.isNotFound = false := InstanceLocator.not_notFound_of_regionLocator hregion
  have haddress : Call.outcome (removeResource s.client
      (do return s.client.deleteAddress (← ofExcept s.locator.regionLocator) s.name.text)
      "Deleted server did not have a static IP") w = (.error f, w) := by
    rw [hregion]
    refine (run_tryCatch_of_error (e := f) (t := w) rfl).trans ?_
    simp only [hf, Bool.false_eq_true, if_false]
    rfl
  exact run_bind_of_error haddress

/-- A teardown makes no other requests. -/
theorem removeResources_extends (s : Server) :
    Within (Extends fun e => ∃ request ∈ s.removals, e.Serves (some request))
      s.removeResources := by
  intro w
  show Extends _ w (s.removeResources.outcome w).2
  cases hregion : s.locator.regionLocator with
  | error f =>
    rw [removeResources_of_noRegion hregion]
    exact .refl w
  | ok region =>
    have hturn := removeResources_removesInTurn hregion w
    apply hturn.extends.mono
    intro e he
    simpa [removals, hregion] using he

end Server

end Fleet
