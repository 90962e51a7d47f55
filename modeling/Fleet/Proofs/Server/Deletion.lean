import Fleet.Proofs.Server.Settlement

/-!
# Deleting a server

A teardown waits until the setup is settled, and a settled setup makes no further requests.  So
nothing that belongs to the server is brought about any more once the first request of a teardown
has been sent.

## Main definitions

- `Server.Establishes`: the requests with which the setup brings a server about

## Main statements

- `Run.settled_of_deletes`: requests that delete belong to teardowns of a settled setup
- `Run.not_establishes_of_settled`: a settled setup makes no requests of its own
- `Launch.deletion_follows_setup`: the order of requests in every course of a server, and how
  deleting it goes
-/

namespace Fleet

open Run World

/-! ## §1 Requests of the setup -/

/-- The requests with which the setup brings a server about: it describes the instance, and it
reserves an address and waits for that. -/
def Server.Establishes (s : Server) (request : Request) : Prop :=
  request.method = "POST" ∨
    (request.method = "GET" ∧ request.url = (s.client.getInstance s.locator).url)

/-- The guest attributes have a URL of their own. -/
theorem Server.not_establishes_attributesRequest (s : Server) :
    ¬ s.Establishes s.attributesRequest := by
  rintro (hpost | ⟨-, hurl⟩)
  · exact absurd hpost (by simp [attributesRequest, Client.getGuestAttributes])
  · -- the one URL goes on where the other ends
    have hlength := congrArg String.length hurl
    simp [attributesRequest, Client.getGuestAttributes, Client.getInstance, Client.computeUrl,
      String.length_append] at hlength

namespace Run

variable {P : Event → Prop} {r r' : Run}

/-- The phases themselves do not delete. -/
theorem method_of_request? {request : Request} (h : r.request? = some request) :
    request.method = "GET" ∨ request.method = "POST" := by
  unfold request? at h
  dsimp only at h
  split at h
  · cases h
    exact Or.inl rfl
  · cases h
    exact Or.inr rfl
  · cases h
    exact Or.inr rfl
  · split at h
    · cases h
    · cases h
      exact Or.inl rfl
  · cases h

/-- Whatever deletes is sent by a teardown, and the setup is settled then. -/
theorem settled_of_deletes {m : Move} {sent : SentRequest} (h : r.Permits m (.requested sent))
    (hmethod : sent.request.method = "DELETE") :
    m = .tearDown ∧ r.server.readiness.isSettled = true := by
  cases m with
  | provision =>
    -- provisioning brings resources about and looks at them, but takes none away
    rcases method_of_request? h with hget | hpost
    · rw [hget] at hmethod
      exact absurd hmethod (by decide)
    · rw [hpost] at hmethod
      exact absurd hmethod (by decide)
  | tearDown =>
    rcases h with hnone | ⟨hs, -⟩
    · cases hnone
    · exact ⟨rfl, hs⟩
  | _ => exact h.elim

/-- Of the phases after the setup only the polls make a request. -/
theorem request?_of_isSetup_eq_false (hphase : r.server.phase.isSetup = false)
    {request : Request} (h : r.request? = some request) :
    request = r.server.attributesRequest := by
  unfold request? at h
  cases hp : r.server.phase with
  | polling deadline =>
    simp only [hp] at h
    split at h
    · cases h
    · exact (Option.some.inj h).symm
  | pausing | finished =>
    simp only [hp] at h
    cases h
  | _ =>
    rw [hp] at hphase
    cases hphase

/-- Once the setup is settled, no move makes a request of the setup. -/
theorem not_establishes_of_settled (hr : r.Sound) (hs : r.server.readiness.isSettled = true)
    {m : Move} {sent : SentRequest} (h : r.Permits m (.requested sent)) :
    ¬ r.server.Establishes sent.request := by
  cases m with
  | provision =>
    have hphase : r.server.phase.isSetup = false := hr.isSetup_eq_false hs
    rw [request?_of_isSetup_eq_false hphase h]
    exact r.server.not_establishes_attributesRequest
  | tearDown =>
    rcases h with hnone | ⟨-, request, hrequest, hserves⟩
    · cases hnone
    · obtain rfl : request = sent.request := Option.some.inj hserves
      have hdelete : sent.request.method = "DELETE" := Server.method_of_mem_removals hrequest
      rintro (hpost | ⟨hget, -⟩)
      · rw [hdelete] at hpost
        exact absurd hpost (by decide)
      · rw [hdelete] at hget
        exact absurd hget (by decide)
  | _ => exact h.elim

theorem Onward.establishes_iff (h : Onward P r r') (request : Request) :
    r'.server.Establishes request ↔ r.server.Establishes request := by
  rw [Server.Establishes, Server.Establishes, h.frame]

theorem Onward.resources_eq (h : Onward P r r') :
    r'.server.client = r.server.client ∧ r'.server.locator = r.server.locator ∧
      r'.server.name = r.server.name := by
  rw [h.frame]
  exact ⟨rfl, rfl, rfl⟩

/-- The teardown of a server consists of the same requests all the way. -/
theorem Onward.removals_eq (h : Onward P r r') : r'.server.removals = r.server.removals := by
  obtain ⟨hclient, hlocator, hname⟩ := h.resources_eq
  rw [Server.removals, Server.removals, hclient, hlocator, hname]

/-! ## §2 The order of requests -/

/-- The requests of a course. If the setup is settled to begin with, none of them belongs to the
setup, and in any case none that follows one that deletes. -/
theorem requests_after (hr : r.Sound) (moves : List Move) :
    (r.server.readiness.isSettled = true →
      ∀ request ∈ r.world.requestsSince (r.after moves).world,
        ¬ r.server.Establishes request) ∧
    (r.world.requestsSince (r.after moves).world).Pairwise fun request later =>
      request.method = "DELETE" → ¬ r.server.Establishes later := by
  induction moves generalizing r with
  | nil =>
    rw [after_nil, requestsSince_self]
    exact ⟨nofun, .nil⟩
  | cons m moves ih =>
    have hmove := move_onward r m
    obtain ⟨hrest, hordered⟩ := ih (move_sound hr m)
    simp only [hmove.establishes_iff] at hrest hordered
    rw [after_cons, requestsSince_trans hmove.journal (after_onward (r.move m) moves).journal]
    have hsettled : r.server.readiness.isSettled = true →
        ∀ request ∈ r.world.requestsSince (r.move m).world ++
          (r.move m).world.requestsSince ((r.move m).after moves).world,
          ¬ r.server.Establishes request := by
      intro hs request hrequest
      rcases List.mem_append.mp hrequest with hfirst | hlater
      · obtain ⟨sent, hsent, rfl⟩ := mem_requestsSince.mp hfirst
        exact not_establishes_of_settled hr hs (hmove.journal.mem_since hsent)
      · exact hrest (by rw [readiness_move_of_settled hr hs]; exact hs) request hlater
    refine ⟨hsettled, ?_⟩
    -- if the first move deletes, the setup is settled, and nothing of it follows any more
    have hfirst : ∀ request ∈ r.world.requestsSince (r.move m).world,
        ∀ later ∈ r.world.requestsSince (r.move m).world ++
          (r.move m).world.requestsSince ((r.move m).after moves).world,
        request.method = "DELETE" → ¬ r.server.Establishes later := by
      intro request hrequest later hlater hmethod
      obtain ⟨sent, hsent, rfl⟩ := mem_requestsSince.mp hrequest
      obtain ⟨-, hs⟩ := settled_of_deletes (hmove.journal.mem_since hsent) hmethod
      exact hsettled hs later hlater
    refine List.pairwise_append.mpr ⟨?_, hordered, ?_⟩
    · apply List.pairwise_of_forall_mem_list
      intro request hrequest later hlater
      exact hfirst request hrequest later (List.mem_append_left _ hlater)
    · intro request hrequest later hlater
      exact hfirst request hrequest later (List.mem_append_right _ hlater)

/-- Moves among which there is no teardown do not delete. -/
theorem not_deletes_of_sparing {moves : List Move} (h : Sparing moves) {request : Request}
    (hrequest : request ∈ r.world.requestsSince (r.after moves).world) :
    request.method ≠ "DELETE" := by
  intro hmethod
  obtain ⟨sent, hsent, rfl⟩ := mem_requestsSince.mp hrequest
  obtain ⟨before, m, rest, rfl, -, hpermits⟩ := mem_since_after hsent
  obtain ⟨rfl, -⟩ := settled_of_deletes hpermits hmethod
  exact h .tearDown (by simp) rfl

/-- Calling an installation off and provisioning after that delete nothing. -/
theorem not_deletes_of_canceled (r : Run) (phases : Nat) {request : Request}
    (h : request ∈ r.world.requestsSince (r.cancel.provisioned phases).world) :
    request.method ≠ "DELETE" := by
  have hsparing : Sparing (.propose .canceled :: List.replicate phases .provision) := by
    intro m hm
    rcases List.mem_cons.mp hm with rfl | hm
    · exact nofun
    · exact sparing_replicate phases m hm
  exact not_deletes_of_sparing hsparing h

theorem canceled_onward (r : Run) (phases : Nat) :
    Onward (fun _ => True) r (r.cancel.provisioned phases) :=
  ((onward_enter r (by simp)).mono fun _ _ => trivial).trans (after_onward r.cancel _)

/-! ## §3 Deleting a server -/

/-- Deleting comes back exactly if the setup is settled or provisioning comes to its end within the
given steps. -/
theorem delete_isSome_iff {steps : Nat} :
    (r.delete steps).isSome = true ↔ r.cancel.server.readiness.isSettled = true ∨
      ∃ phases ≤ steps, (r.cancel.provisioned phases).server.isFinished = true := by
  rw [delete, Option.isSome_map, awaitSettled]
  split
  · rename_i hs
    exact ⟨fun _ => Or.inl hs, fun _ => rfl⟩
  · rename_i hs
    rw [toEnd_isSome_iff]
    exact ⟨Or.inr, fun h => h.resolve_left hs⟩

/-- In a region, tearing down removes the address and the instance in turn, after at most a log
line. -/
theorem tearDown_removesInTurn {o : Except Failure Unit} (h : r.tearDown = (o, r')) :
    ∃ w, r.world.Extends (Event.Serves none) w ∧
      ∀ region, r.server.locator.regionLocator = .ok region →
        r.server.client.RemovesInTurn
          (r.server.client.deleteAddress region r.server.name.text)
          (r.server.client.deleteInstance r.server.locator) w o r'.world := by
  obtain ⟨w, -, -, hw, heq⟩ := r.tearDown_eq
  rw [heq] at h
  cases h
  exact ⟨w, hw, fun region hregion => Server.removeResources_removesInTurn hregion w⟩

end Run

namespace Launch

/-- The launch does not delete. -/
theorem not_deletes_start (l : Launch) {request : Request}
    (h : request ∈ l.world.requestsSince l.start.world) : request.method ≠ "DELETE" := by
  obtain ⟨sent, hsent, rfl⟩ := mem_requestsSince.mp h
  obtain ⟨region, haddress⟩ := l.start_extends.mem_since hsent
  rw [haddress]
  simp [Client.getAddress]

/-- After the first request that deletes nothing of the setup is requested. -/
theorem requests_ordered (l : Launch) (moves : List Move) :
    (l.world.requestsSince (l.start.after moves).world).Pairwise fun request later =>
      request.method = "DELETE" → ¬ l.start.server.Establishes later := by
  rw [requestsSince_trans l.start_extends (after_onward l.start moves).journal]
  refine List.pairwise_append.mpr ⟨?_, (requests_after l.start_sound moves).2, ?_⟩
  · apply List.pairwise_of_forall_mem_list
    intro request hrequest later _ hmethod
    exact absurd hmethod (l.not_deletes_start hrequest)
  · intro request hrequest later _ hmethod
    exact absurd hmethod (l.not_deletes_start hrequest)

/-- Wherever in the course of a server: a request that deletes is sent by a teardown whose setup is
settled, and after the first of them nothing of the setup is requested any more. Of the operations
only deleting the server deletes: it calls the installation off, lets provisioning go on until the
setup is settled, and ends with a teardown, before which nothing is deleted. In a region the address
and the instance are removed in this order: either both requests are sent and nothing stands in the
way, or the first call that fails in another way than that nothing exists gives its failure, and if
this is the call for the address, then nothing is requested for the instance. -/
theorem deletion_follows_setup (l : Launch) (moves : List Move) :
    let r := l.start.after moves
    (∀ before m rest, moves = before ++ m :: rest →
      let p := l.start.after before
      ∀ request ∈ p.world.requestsSince (p.move m).world, request.method = "DELETE" →
        m = .tearDown ∧ p.server.readiness.isSettled = true) ∧
    ((l.world.requestsSince r.world).Pairwise fun request later =>
      request.method = "DELETE" → ¬ l.start.server.Establishes later) ∧
    (∀ a r', r.act a = some r' → (∀ steps, a ≠ .delete steps) →
      ∀ request ∈ r.world.requestsSince r'.world, request.method ≠ "DELETE") ∧
    (∀ steps, (r.delete steps).isSome = true ↔ r.server.readiness.isSettled = true ∨
      ∃ phases ≤ steps, (r.cancel.provisioned phases).server.isFinished = true) ∧
    ∀ steps o r', r.delete steps = some (o, r') → ∃ phases w,
      let p := r.cancel.provisioned phases
      p.server.readiness.isSettled = true ∧ r' = p.move .tearDown ∧
      (∀ request ∈ r.world.requestsSince p.world, request.method ≠ "DELETE") ∧
      p.world.Extends (Event.Serves none) w ∧
      ∀ region, l.locator.regionLocator = .ok region →
        let address := l.client.deleteAddress region l.name.text
        let both := [address, l.client.deleteInstance l.locator]
        l.client.RemovesInTurn address (l.client.deleteInstance l.locator) w o r'.world ∧
        w.requestsSince r'.world <+: both ∧ (o = .ok () → w.requestsSince r'.world = both) ∧
        ∀ f, ((l.client.execute address).outcome w).1 = .error f → f.isNotFound = false →
          o = .error f ∧ w.requestsSince r'.world <+: [address] := by
  intro r
  have hsound : r.Sound := after_sound l.start_sound moves
  refine ⟨?_, l.requests_ordered moves, ?_, ?_, ?_⟩
  · intro before m rest _ p request hrequest hmethod
    obtain ⟨sent, hsent, rfl⟩ := mem_requestsSince.mp hrequest
    exact settled_of_deletes ((move_onward p m).journal.mem_since hsent) hmethod
  · intro a r' hact hne request hrequest
    obtain ⟨moves', rfl, hsparing⟩ := act_after hsound hact
    exact not_deletes_of_sparing (hsparing hne) hrequest
  · intro steps
    have hreadiness : r.cancel.server.readiness = r.server.readiness :=
      readiness_move r (.propose .canceled)
    rw [delete_isSome_iff, hreadiness]
  · intro steps o r' hdelete
    -- the call-off and the phases up to the teardown are moves that spare the resources
    obtain ⟨phases, hs, htear, hr'⟩ := delete_eq_some hsound hdelete
    obtain ⟨w, hw, hremoves⟩ := tearDown_removesInTurn htear
    refine ⟨phases, w, hs, hr', ?_, hw, ?_⟩
    · intro request hrequest
      exact not_deletes_of_canceled r phases hrequest
    · intro region hregion address both
      -- the resources are those of the launch all the way
      have honward : Onward (fun _ => True) l.start (r.cancel.provisioned phases) :=
        (after_onward l.start moves).trans (canceled_onward r phases)
      obtain ⟨hclient, hlocator, hname⟩ := honward.resources_eq
      rw [hclient, hlocator, hname] at hremoves
      have hturn := hremoves region hregion
      exact ⟨hturn, hturn.requestsSince_prefix rfl rfl⟩

-- where nothing is found neither resource exists, and the teardown passes over both
example :
    let r := (against []).start
    ((r.delete 2).map fun (_, r') => (r.world.requestsSince r'.world).map (·.method)) =
      some ["DELETE", "DELETE"] := by
  decide +kernel

end Launch

end Fleet
