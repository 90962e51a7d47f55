import Fleet.Proofs.Server.Deletion
import Fleet.Proofs.Server.Fetching
import Fleet.Proofs.Server.Surroundings

/-!
# What provisioning asks and is answered

In a phase at most one exchange takes place, and it is that of the request of the phase; the teardown
apart, a server sends nothing else.  So what provisioning knows at a point of its course can be read
off the exchanges up to there.  The first of all exchanges is the look for a static address, which
takes place when the server is made.

## Main definitions

- `Run.exchanges`: the exchanges of provisioning in a course
- `Launch.check?`: the look for a static address

## Main statements

- `Run.requests_of_exchanges`: whatever does not delete is one of the exchanges
- `Launch.start_checks`: what the look for a static address requests and shows
-/

namespace Fleet

open Run World Stage

/-! ## §1 Exchanges of a course -/

namespace Run

variable {r : Run} {request : Request}

/-- The exchange of the next phase, if there is one. -/
def exchange? (r : Run) : Option Exchange :=
  r.request?.bind r.world.exchange?

/-- The exchange of provisioning in a move, if there is one. -/
def exchangeOf (r : Run) : Move → Option Exchange
  | .provision => r.exchange?
  | _ => none

/-- The exchanges of provisioning in a course, the earliest first. -/
def exchanges (r : Run) : List (World × Move) → List Exchange
  | [] => []
  | (surroundings, m) :: moves =>
    ((r.within surroundings).exchangeOf m).toList ++
      ((r.within surroundings).move m).exchanges moves

theorem exchanges_append (r : Run) (moves moves' : List (World × Move)) :
    r.exchanges (moves ++ moves') = r.exchanges moves ++ (r.amid moves).exchanges moves' := by
  induction moves generalizing r with
  | nil => rfl
  | cons move moves ih =>
    obtain ⟨surroundings, m⟩ := move
    rw [List.cons_append, exchanges, exchanges, ih, amid_cons, List.append_assoc]

/-- Until the response is delivered, the request is sent if it is exchanged. -/
theorem requestsSince_delivered (hp : request.headers = .null) (r : Run) :
    r.world.requestsSince (r.delivered request).world =
      (r.world.exchange? request).toList.map (·.request) := by
  let v := ((r.server.client.dispatch request).outcome r.world).2
  have hsent : r.world.Extends (Event.Serves (some request)) v :=
    r.server.client.dispatch_extends request r.world
  have hrest : v.Extends Event.Announces (r.delivered request).world := by
    unfold delivered
    dsimp only
    split
    · exact enter_extends _ _ _
    · exact .refl _
  rw [requestsSince_trans hsent hrest, requestsSince_eq_nil (hrest.mono fun _ he => he.request?_eq),
    List.append_nil]
  exact requestsSince_dispatch r.server.client hp r.world

/-- A phase sends the request of its exchange and nothing else. -/
theorem requestsSince_step (r : Run) :
    r.world.requestsSince r.step.world = r.exchange?.toList.map (·.request) := by
  unfold exchange?
  cases hq : r.request? with
  | none =>
    apply requestsSince_eq_nil
    apply (step_onward r).journal.mono
    intro e he
    cases e with
    | requested sent =>
      rw [Brings, hq] at he
      cases he
    | _ => rfl
  | some request =>
    -- before the request there is at most a log line, and after the delivery no other request
    obtain ⟨n, hn, hrest⟩ := step_delivered hq
    have hstart : r.world.Extends (Event.Serves none) n.world ∧
        n.world.exchange? request = r.world.exchange? request := by
      rcases hn with rfl | ⟨level, message, rfl⟩
      · exact ⟨.refl _, rfl⟩
      · exact ⟨(quiet_log r level message).2, exchange?_congr rfl rfl request⟩
    have hdelivered := (evolves_delivered n request).onward.journal
    have hquiet : (n.delivered request).world.requestsSince r.step.world = [] :=
      requestsSince_eq_nil (hrest.journal.mono fun _ he =>
        he.elim Event.Serves.request?_eq Event.Announces.request?_eq)
    have hafter : n.world.Extends (fun _ => True) r.step.world :=
      (hdelivered.mono fun _ _ => trivial).trans (hrest.journal.mono fun _ _ => trivial)
    rw [requestsSince_trans hstart.1 hafter, requestsSince_of_serves_none hstart.1,
      requestsSince_trans hdelivered hrest.journal, hquiet, List.append_nil, List.nil_append,
      requestsSince_delivered (headers_of_request? hq), hstart.2]
    rfl

/-- In a move the exchange of provisioning is all that does not delete. -/
theorem requestsSince_move (r : Run) (m : Move) :
    (r.world.requestsSince (r.move m).world).filter (·.method != "DELETE") =
      (r.exchangeOf m).toList.map (·.request) := by
  have hnone (h : ∀ sent, ¬ r.Permits m (.requested sent)) :
      r.world.requestsSince (r.move m).world = [] := by
    apply List.eq_nil_iff_forall_not_mem.mpr
    intro request hrequest
    obtain ⟨sent, hsent, -⟩ := mem_requestsSince.mp hrequest
    exact h sent ((move_onward r m).journal.mem_since hsent)
  cases m with
  | provision =>
    rw [show r.move .provision = r.step from rfl, requestsSince_step]
    apply List.filter_eq_self.mpr
    intro request hrequest
    obtain ⟨e, he, rfl⟩ := List.mem_map.mp hrequest
    obtain ⟨request, hq, he⟩ := Option.bind_eq_some_iff.mp (Option.mem_toList.mp he)
    rw [request_of_exchange? he]
    rcases method_of_request? hq with hget | hpost
    · simp [hget]
    · simp [hpost]
  | tearDown =>
    -- a teardown only deletes
    apply List.filter_eq_nil_iff.mpr
    intro request hrequest
    obtain ⟨sent, hsent, rfl⟩ := mem_requestsSince.mp hrequest
    rcases (move_onward r .tearDown).journal.mem_since hsent with hserves | ⟨-, q, hq, hserves⟩
    · cases hserves
    · obtain rfl : q = sent.request := Option.some.inj hserves
      simp [Server.method_of_mem_removals hq]
  | propose | apply | tell => rw [hnone fun _ h => h]; rfl

/-- In a course whatever does not delete is one of the exchanges of provisioning. -/
theorem requests_of_exchanges (r : Run) (moves : List (World × Move)) :
    (r.world.requestsSince (r.amid moves).world).filter (·.method != "DELETE") =
      (r.exchanges moves).map (·.request) := by
  induction moves generalizing r with
  | nil =>
    rw [amid_nil, requestsSince_self]
    rfl
  | cons move moves ih =>
    obtain ⟨surroundings, m⟩ := move
    let p := r.within surroundings
    -- the surroundings do not touch the journal
    have hwithin : r.world.Extends (fun _ => True) p.world := .of_journal_eq rfl
    have hmove := (move_onward p m).journal
    have hnone : r.world.requestsSince p.world = [] :=
      requestsSince_eq_nil (.of_journal_eq rfl)
    have hfirst : r.world.Extends (fun _ => True) (p.move m).world :=
      hwithin.trans (hmove.mono fun _ _ => trivial)
    rw [amid_cons, exchanges, List.map_append, ← ih, ← requestsSince_move,
      requestsSince_trans hfirst (amid_onward (p.move m) moves).journal, List.filter_append,
      requestsSince_trans hwithin hmove, hnone, List.nil_append]

end Run

/-! ## §2 The look for a static address -/

namespace Server

variable {client : Client} {locator : InstanceLocator} {name : Json}

/-- Without a region no address is looked for. -/
theorem checkAddress_of_noRegion {f : Failure} (hregion : locator.regionLocator = .error f)
    (w : World) : (checkAddress client locator name).outcome w =
      (.error (.setback (.addressCheck f.message)), w) := by
  have hf : f.isNotFound = false := InstanceLocator.not_notFound_of_regionLocator hregion
  refine (run_tryCatch_of_error (e := f) (t := w) ?_).trans ?_
  · rw [hregion]
    rfl
  · rw [hf]
    rfl

/-- In a region the address of the name is asked for. That it does not exist is an answer, and any
other failure is a setback. -/
theorem checkAddress_of_region {region : RegionLocator}
    (hregion : locator.regionLocator = .ok region) (w : World) :
    (checkAddress client locator name).outcome w =
      match (client.execute (client.getAddress region name.text)).outcome w with
      | (.ok _, v) => (.ok true, v)
      | (.error f, v) =>
        (if f.isNotFound then .ok false else .error (.setback (.addressCheck f.message)), v) := by
  let request := client.getAddress region name.text
  rcases hx : (client.execute request).outcome w with ⟨f | content, v⟩
  · have hasked : (ExceptT.run (discard (client.execute request) : Call PUnit)).run w =
        (.error f, v) := run_bind_of_error hx
    refine (run_tryCatch_of_error (e := f) (t := v) ?_).trans ?_
    · rw [hregion]
      exact (run_bind_of_ok rfl).trans (run_bind_of_error hasked)
    · simp only
      cases f.isNotFound <;> rfl
  · have hasked : (ExceptT.run (discard (client.execute request) : Call PUnit)).run w =
        (.ok ⟨⟩, v) := run_bind_of_ok hx
    refine (run_tryCatch_of_ok (a := true) (t := v) ?_).trans ?_
    · rw [hregion]
      exact (run_bind_of_ok rfl).trans (run_bind_of_ok hasked)
    · rfl

end Server

namespace Launch

/-- The exchange in which a server, when it is made, looks for a static address. -/
def check? (l : Launch) : Option Exchange :=
  l.locator.regionLocator.toOption.bind fun region =>
    l.world.exchange? (l.client.getAddress region l.name.text)

theorem start_addressCheck (l : Launch) : l.start.server.addressCheck =
    ((Server.checkAddress l.client l.locator l.name).outcome l.world).1 := rfl

/-- The look for a static address sends the request of its exchange. Any answer but a readable one
of success and the one that nothing was found is a failure, and so is every other obstacle. -/
theorem start_checks (l : Launch) :
    l.world.requestsSince l.start.world = l.check?.toList.map (·.request) ∧
    ((∃ f, l.start.server.addressCheck = .error f) ∨ ∃ e, l.check? = some e ∧
      ((∃ content, e.content = .ok content) ∧ l.start.server.addressCheck = .ok true ∨
        e.answer.status? = some 404 ∧ l.start.server.addressCheck = .ok false)) := by
  rw [start_addressCheck, start_world, check?]
  cases hregion : l.locator.regionLocator with
  | error f =>
    rw [Server.checkAddress_of_noRegion hregion]
    exact ⟨requestsSince_self _, Or.inl ⟨_, rfl⟩⟩
  | ok region =>
    have hp : (l.client.getAddress region l.name.text).headers = .null := rfl
    obtain ⟨hrequests, hresult⟩ := l.client.execute_exchange hp l.world
    rw [Server.checkAddress_of_region hregion]
    show _ ∧ (_ ∨ ∃ e, l.world.exchange? (l.client.getAddress region l.name.text) = some e ∧ _)
    rcases hx : (l.client.execute (l.client.getAddress region l.name.text)).outcome l.world with
      ⟨f | content, v⟩
    all_goals
      rw [hx] at hrequests hresult
      refine ⟨hrequests, ?_⟩
    · -- it depends on the failure whether it is an answer
      simp only
      cases hf : f.isNotFound with
      | false => exact Or.inl ⟨_, rfl⟩
      | true =>
        rcases hresult with ⟨e, he, hcontent⟩ | ⟨f', hf', hother⟩
        · exact Or.inr ⟨e, he, Or.inr ⟨Answer.status?_of_isNotFound hcontent.symm hf, rfl⟩⟩
        · cases hf'
          rw [hf] at hother
          cases hother
    · rcases hresult with ⟨e, he, hcontent⟩ | ⟨f, hf, -⟩
      · exact Or.inr ⟨e, he, Or.inl ⟨⟨content, hcontent.symm⟩, rfl⟩⟩
      · cases hf

end Launch

end Fleet
