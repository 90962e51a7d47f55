import Fleet.Proofs.Server.Repetition

/-!
# Servers that share a world

The servers of one account send their requests with one token, to one network, and enter what they
do in one journal; a wait of one of them moves the clock of all.  They do not get in each other's
way as long as they have no deadlines, the token is not rejected, and no rule of the network is
taken by requests of two servers: whatever is done with one of them comes out as if the others were
left alone.

The proof sets beside the group one run for every server, in which nothing is done with the other
servers.  Each of these runs has the same server as the group, and a world that gives the same
answers to the requests of this server.  A step of the group is a step of one of these runs, because
it is uniform; and it does not disturb the others, because it plays rules that they do not take.

## Main definitions

- `Deed`, `Run.deed`: what somebody may do with a server, and what it comes back with
- `Report`, `Run.reports`: what shows of a deed, and of several deeds one after the other
- `Group`, `Group.reports`: servers in one world, and what shows of deeds with any of them
- `Group.Mirrors`: each server is as it is in a run of its own

## Main statements

- `Run.deed_uniform`: every deed is uniform
- `Group.Mirrors.deed`, `Group.Mirrors.reports`: what one deed keeps, and so every list of deeds
- `Group.reports_of_alone`: each server of a group does what it does alone
-/

namespace Fleet

open Run Stage World

/-! ## §1 Deeds -/

/-- What somebody may do with a server. -/
inductive Deed where
  /-- somebody follows the installation, for at most `wanted` states -/
  | progress (wanted : Option Nat)
  /-- provisioning goes on to its end -/
  | run
  | delete
  /-- the installation is only called off -/
  | callOff
  | set (next : InstallState)
  | apply (snapshot : Json)
deriving Inhabited

/-- What a deed comes back with. -/
inductive Outcome where
  | done
  | followed (states : List InstallState) (finish : FollowEnd)
  | deleted (outcome : Except Failure Unit)
  /-- whether the state was accepted -/
  | set (accepted : Bool)
  /-- whether the snapshot ends the installation -/
  | applied (outcome : Except Failure Bool)

/-- What shows of a deed: what it came back with, the server after it, and what happened. -/
structure Report where
  outcome : Outcome
  server : Server
  events : List Event

/-- Being told of a state is reported. -/
def World.tell (state : InstallState) (w : World) : World :=
  w.record (.reported state)

/-- What a deed comes back with, and the run after it. Provisioning and following have so many
steps. -/
def Run.deed (bound : Nat) (r : Run) : Deed → Option (Outcome × Run)
  | .progress wanted => (r.follow World.tell bound wanted).map fun followed =>
      (.followed followed.states followed.finish, followed.run)
  | .run => (r.toEnd bound).map fun r => (.done, r)
  | .delete => (r.delete bound).map fun (outcome, r) => (.deleted outcome, r)
  | .callOff => some (.done, r.cancel)
  | .set next =>
    let (accepted, r) := r.enter next
    some (.set accepted, r)
  | .apply snapshot =>
    let (outcome, r) := (applySnapshot snapshot).outcome r
    some (.applied outcome, r)

/-- What shows of some deeds, one after the other, and the run after them. -/
def Run.reports (bound : Nat) : Run → List Deed → Option (List Report × Run)
  | r, [] => some ([], r)
  | r, d :: deeds =>
    (r.deed bound d).bind fun (outcome, m) =>
      (reports bound m deeds).map fun (later, r') =>
        (⟨outcome, m.server, r.world.since m.world⟩ :: later, r')

namespace Run

variable {asked : Request → Prop} {bound : Nat}

/-- Every deed is uniform. -/
theorem deed_uniform (bound : Nat) (d : Deed) :
    Uniform Plays (.runs asked) fun r => r.deed bound d := by
  cases d with
  | progress wanted =>
    have hfollow : Uniform Plays (.runs asked)
        (shown (followFrom World.tell bound (bound + 1) wanted .start [])) :=
      followFrom_uniform (fun state => ⟨.reported state, .of_record rfl⟩) _ _ _ _ _
    refine (hfollow.bind fun p => Uniform.pure (Outcome.followed p.1 p.2)).of_eq fun r => ?_
    simp only [deed, follow, shown]
    cases followFrom World.tell bound (bound + 1) wanted .start [] r <;> rfl
  | run =>
    refine ((toEnd_uniform bound).bind fun _ => Uniform.pure Outcome.done).of_eq fun r => ?_
    simp only [deed, silent]
    cases toEnd bound r <;> rfl
  | delete =>
    refine ((delete_uniform bound).bind fun o => Uniform.pure (Outcome.deleted o)).of_eq fun r => ?_
    simp only [deed]
    cases r.delete bound <;> rfl
  | callOff =>
    exact ((proceed_uniform .canceled).bind fun _ => Uniform.pure Outcome.done).of_eq fun _ => rfl
  | set next =>
    exact ((enter_uniform next none).bind fun o => Uniform.pure (Outcome.set o)).of_eq fun _ => rfl
  | apply snapshot =>
    have happly : Uniform Plays (.runs asked) (total (applySnapshot snapshot)) :=
      applySnapshot_uniform snapshot
    exact (happly.bind fun o => Uniform.pure (Outcome.applied o)).of_eq fun _ => rfl

theorem deed_plays {r r' : Run} {d : Deed} {o : Outcome} (hr : r.server.Untimed)
    (h : r.deed bound d = some (o, r')) : r'.server.Untimed ∧ r.world.Plays r'.world := by
  have huniform : Uniform Plays (.runs fun _ => True) fun r => r.deed bound d :=
    deed_uniform bound d
  exact huniform.onward hr h

theorem reports_cons_eq_some {r r' : Run} {d : Deed} {deeds : List Deed} {reports : List Report}
    (h : r.reports bound (d :: deeds) = some (reports, r')) :
    ∃ outcome m later, r.deed bound d = some (outcome, m) ∧
      m.reports bound deeds = some (later, r') ∧
      reports = ⟨outcome, m.server, r.world.since m.world⟩ :: later := by
  obtain ⟨⟨outcome, m⟩, hdeed, hrest⟩ := Option.bind_eq_some_iff.mp h
  obtain ⟨⟨later, r''⟩, hlater, heq⟩ := Option.map_eq_some_iff.mp hrest
  cases heq
  exact ⟨outcome, m, later, hdeed, hlater, rfl⟩

theorem reports_plays {r r' : Run} {deeds : List Deed} {reports : List Report}
    (hr : r.server.Untimed) (h : r.reports bound deeds = some (reports, r')) :
    r.world.Plays r'.world := by
  induction deeds generalizing r reports with
  | nil =>
    cases h
    exact refl_of Plays _
  | cons d deeds ih =>
    obtain ⟨outcome, m, later, hdeed, hlater, -⟩ := reports_cons_eq_some h
    obtain ⟨hm, hstep⟩ := deed_plays hr hdeed
    exact hstep.trans (ih hm hlater)

/-- What the reports tell of is what has happened. -/
theorem flatMap_events_reports {r r' : Run} {deeds : List Deed} {reports : List Report}
    (hr : r.server.Untimed) (h : r.reports bound deeds = some (reports, r')) :
    reports.flatMap Report.events = r.world.since r'.world := by
  induction deeds generalizing r reports with
  | nil =>
    cases h
    exact (since_self _).symm
  | cons d deeds ih =>
    obtain ⟨outcome, m, later, hdeed, hlater, rfl⟩ := reports_cons_eq_some h
    obtain ⟨hm, hstep⟩ := deed_plays hr hdeed
    rw [List.flatMap_cons, ih hm hlater, since_trans hstep.grows (reports_plays hm hlater).grows]

end Run

/-! ## §2 Groups -/

/-- On the way to a later world only the given requests are made, and no response to them rejects
the token. -/
structure World.Accepts (asked : Request → Prop) (u v : World) : Prop where
  asked_of_mem : ∀ q ∈ u.requestsSince v, asked q
  accepted : ∀ response ∈ u.network.responses (u.requestsSince v), response.answer.rejects = false

/-- What holds on the way holds on both parts of it. -/
theorem World.Accepts.split {asked : Request → Prop} {u v w : World} (h : Accepts asked u w)
    (huv : u.Plays v) (hvw : v.Plays w) : Accepts asked u v ∧ Accepts asked v w := by
  obtain ⟨hasked, haccepted⟩ := h
  rw [requestsSince_trans huv.grows hvw.grows] at hasked haccepted
  rw [Network.responses_append, ← huv.network_eq] at haccepted
  exact
    ⟨⟨fun q hq => hasked q (List.mem_append_left _ hq),
      fun response hr => haccepted response (List.mem_append_left _ hr)⟩,
    ⟨fun q hq => hasked q (List.mem_append_right _ hq),
      fun response hr => haccepted response (List.mem_append_right _ hr)⟩⟩

/-- Servers that share a world. -/
structure Group (ι : Type) where
  servers : ι → Server
  world : World

/-- Those entries of a list that belong to the given server. -/
def shareOf {ι α : Type} [DecidableEq ι] (i : ι) (entries : List (ι × α)) : List α :=
  entries.filterMap fun (j, a) => if j = i then some a else none

section Share

variable {ι α : Type} [DecidableEq ι] {i j : ι}

@[simp] theorem shareOf_cons_self (i : ι) (a : α) (entries : List (ι × α)) :
    shareOf i ((i, a) :: entries) = a :: shareOf i entries := by
  simp [shareOf]

theorem shareOf_cons_of_ne (h : j ≠ i) (a : α) (entries : List (ι × α)) :
    shareOf i ((j, a) :: entries) = shareOf i entries := by
  simp [shareOf, h]

end Share

namespace Group

variable {ι : Type}

/-- A server of the group in the world of all. -/
def run (g : Group ι) (i : ι) : Run :=
  ⟨g.servers i, g.world⟩

variable [DecidableEq ι]

/-- The group after something was done with one server of it. -/
def put (g : Group ι) (i : ι) (r : Run) : Group ι :=
  { servers := Function.update g.servers i r.server, world := r.world }

/-- What shows of some deeds with servers of the group, one after the other, and the group after
them. -/
def reports (bound : Nat) : Group ι → List (ι × Deed) → Option (List (ι × Report) × Group ι)
  | g, [] => some ([], g)
  | g, (i, d) :: deeds =>
    ((g.run i).deed bound d).bind fun (outcome, m) =>
      (reports bound (g.put i m) deeds).map fun (later, g') =>
        ((i, ⟨outcome, m.server, g.world.since m.world⟩) :: later, g')

/-! ## §3 What a deed keeps -/

/-- Each server of the group is as it is in the run of its own: the worlds give the same answers to
its requests, of which none takes a rule that a request of another server takes. -/
structure Mirrors (asked : ι → Request → Prop) (g : Group ι) (own : ι → Run) : Prop where
  untimed : ∀ i, (own i).server.Untimed
  alike : ∀ i, (Comparison.runs (asked i)).Alike (own i) (g.run i)
  token : (TokenStore.usable g.world.tokens.cached).isSome = true
  apart : ∀ i j, i ≠ j → g.world.network.Apart (asked i) (asked j)

namespace Mirrors

variable {asked : ι → Request → Prop} {g : Group ι} {own finals : ι → Run} {bound : Nat}

/-- A deed with one server comes out as in the run of this server, and does not disturb the runs of
the others. -/
theorem deed (h : g.Mirrors asked own) {i : ι} {d : Deed} {o : Outcome} {m : Run}
    (hdeed : (own i).deed bound d = some (o, m))
    (haccepts : (own i).world.Accepts (asked i) m.world) :
    ∃ t, (g.run i).deed bound d = some (o, t) ∧ t.server = m.server ∧
      g.world.since t.world = (own i).world.since m.world ∧
      (g.put i t).Mirrors asked (Function.update own i m) := by
  obtain ⟨t, ht, hbetween, hserver, halike⟩ :=
    (deed_uniform bound d).again (h.untimed i) (h.alike i) hdeed haccepts.asked_of_mem
  obtain ⟨hm, hown⟩ := deed_plays (h.untimed i) hdeed
  have hfits : (g.run i).server.Untimed :=
    (Comparison.runs (asked i)).fits_of_alike (h.untimed i) (h.alike i)
  have hplays : g.world.Plays t.world := (deed_plays hfits ht).2
  have hsince : g.world.since t.world = (own i).world.since m.world := hbetween
  have hrequests : ∀ q ∈ g.world.requestsSince t.world, asked i q := by
    rw [requestsSince, hsince]
    exact haccepts.asked_of_mem
  -- the token is kept, since no response in the run of this server rejects it
  have htokens : t.world.tokens = g.world.tokens := by
    have hbefore : g.world.tokens = (own i).world.tokens := (h.alike i).2.tokens_eq
    have htoken := h.token
    rw [hbefore] at htoken
    rw [halike.tokens_eq, hbefore]
    exact hown.tokens_eq htoken haccepts.accepted
  refine ⟨t, ht, hserver, hsince, ?_, ?_, ?_, fun j k hjk => ?_⟩
  · exact (Function.forall_update_iff own fun _ r => r.server.Untimed).mpr
      ⟨hm, fun j _ => h.untimed j⟩
  · refine (Function.forall_update_iff own fun j r =>
      (Comparison.runs (asked j)).Alike r ((g.put i t).run j)).mpr
        ⟨⟨?_, halike⟩, fun j hj => ⟨?_, ?_, ?_⟩⟩
    · show Function.update g.servers i t.server i = m.server
      rw [Function.update_self, hserver]
    · show Function.update g.servers i t.server j = _
      rw [Function.update_of_ne hj]
      exact (h.alike j).1
    · exact htokens.trans (h.alike j).2.tokens_eq
    · -- the rules that were used are not those of the other servers
      have hagree : Network.Agree (asked j) (own j).world.network g.world.network :=
        (h.alike j).2.agree
      show Network.Agree (asked j) (own j).world.network t.world.network
      rw [hplays.network_eq]
      exact hagree.after_apart hrequests
        ((h.apart j i hj).of_route_eq fun q => (hagree.route_eq q).symm)
  · show (TokenStore.usable t.world.tokens.cached).isSome = true
    rw [htokens]
    exact h.token
  · refine (h.apart j k hjk).of_route_eq fun q => ?_
    show t.world.network.route? q = _
    rw [hplays.network_eq, Network.route?_after]

/-- So every list of deeds comes out as in the runs of the servers. -/
theorem reports (h : g.Mirrors asked own) {deeds : List (ι × Deed)} {alone : ι → List Report}
    (halone : ∀ i, (own i).reports bound (shareOf i deeds) = some (alone i, finals i))
    (haccepts : ∀ i, (own i).world.Accepts (asked i) (finals i).world) :
    ∃ shown g', g.reports bound deeds = some (shown, g') ∧
      (∀ i, shareOf i shown = alone i) ∧ g'.Mirrors asked finals := by
  induction deeds generalizing g own alone with
  | nil =>
    have hnone (i : ι) : ([], own i) = (alone i, finals i) := Option.some.inj (halone i)
    obtain rfl : own = finals := funext fun i => congrArg Prod.snd (hnone i)
    exact ⟨[], g, rfl, fun i => congrArg Prod.fst (hnone i), h⟩
  | cons entry deeds ih =>
    obtain ⟨i, d⟩ := entry
    have hi := halone i
    rw [shareOf_cons_self] at hi
    obtain ⟨o, m, later, hdeed, hlater, hreport⟩ := reports_cons_eq_some hi
    obtain ⟨hm, hown⟩ := deed_plays (h.untimed i) hdeed
    -- the run of this server goes on after the deed, and the other runs are left as they are
    obtain ⟨hnow, hthen⟩ := (haccepts i).split hown (reports_plays hm hlater)
    obtain ⟨t, ht, hserver, hsince, hmirrors⟩ := h.deed hdeed hnow
    have halone' : ∀ j, (Function.update own i m j).reports bound (shareOf j deeds) =
        some (Function.update alone i later j, finals j) := by
      refine (Function.forall_update_iff own fun j r => r.reports bound (shareOf j deeds) =
        some (Function.update alone i later j, finals j)).mpr ⟨?_, fun j hj => ?_⟩
      · rw [Function.update_self]
        exact hlater
      · rw [Function.update_of_ne hj, ← halone j, shareOf_cons_of_ne (Ne.symm hj)]
    have haccepts' : ∀ j, (Function.update own i m j).world.Accepts (asked j) (finals j).world :=
      (Function.forall_update_iff own fun j r => r.world.Accepts (asked j) (finals j).world).mpr
        ⟨hthen, fun j _ => haccepts j⟩
    obtain ⟨shown, g', hshown, hshare, hmirrors'⟩ := ih hmirrors halone' haccepts'
    refine ⟨(i, ⟨o, t.server, g.world.since t.world⟩) :: shown, g', ?_, fun j => ?_, hmirrors'⟩
    · simp only [Group.reports, ht, Option.bind_some, hshown, Option.map_some]
    · by_cases hj : j = i
      · subst hj
        rw [shareOf_cons_self, hshare, Function.update_self, hserver, hsince, hreport]
      · rw [shareOf_cons_of_ne (Ne.symm hj), hshare, Function.update_of_ne hj]

end Mirrors

/-- Servers that share a world do not interfere. They have no deadlines, and a token that can be
sent. Alone, that is if only the deeds with itself are done, every server comes to the end of them;
no response to its requests rejects the token, and no rule of the network is the first that fits
both a request of it and one of another server. Then the deeds with all of them come to their end
in any order, and each server does the same as alone: every deed with it comes back with the same,
leaves the same server behind and brings about the same events. -/
theorem reports_of_alone (bound : Nat) (g : Group ι) (deeds : List (ι × Deed))
    (alone : ι → List Report × Run)
    (huntimed : ∀ i, (g.servers i).Untimed)
    (htoken : (TokenStore.usable g.world.tokens.cached).isSome = true)
    (halone : ∀ i, (g.run i).reports bound (shareOf i deeds) = some (alone i))
    (haccepted : ∀ i, ∀ response ∈
      g.world.network.responses (g.world.requestsSince (alone i).2.world),
      response.answer.rejects = false)
    (hapart : ∀ i j, i ≠ j → g.world.network.Apart
      (· ∈ g.world.requestsSince (alone i).2.world)
      (· ∈ g.world.requestsSince (alone j).2.world)) :
    ∃ shown g', g.reports bound deeds = some (shown, g') ∧
      ∀ i,
        -- every deed has the same result, server and events as in the run of this server
        shareOf i shown = (alone i).1 ∧
        -- so the server has the same requests, waits and transitions in the same order
        (shareOf i shown).flatMap Report.events = g.world.since (alone i).2.world ∧
        g'.servers i = (alone i).2.server := by
  let asked (i : ι) (q : Request) : Prop := q ∈ g.world.requestsSince (alone i).2.world
  have hstart : g.Mirrors asked g.run :=
    ⟨huntimed, fun _ => ⟨rfl, rfl, .refl _⟩, htoken, hapart⟩
  obtain ⟨shown, g', hshown, hshare, hend⟩ :=
    hstart.reports halone fun i => ⟨fun _ hq => hq, haccepted i⟩
  refine ⟨shown, g', hshown, fun i => ⟨hshare i, ?_, (hend.alike i).1⟩⟩
  rw [hshare i]
  exact flatMap_events_reports (huntimed i) (halone i)

/-- Two servers with static addresses. The network answers no poll of the guest attributes, and it
carries out what deletes a server. -/
def pair : Group Bool where
  servers second :=
    { id := if second then "account:2" else "account:1"
      locator := ⟨"project", "region-a", if second then "2" else "1"⟩
      name := .str (if second then "outline-2" else "outline-1")
      client := {}
      pollInterval := defaultPollInterval
      installTimeout := none
      creation := .ok ()
      addressCheck := .ok true }
  world :=
    { network :=
        [{ method := some "GET", responses := [{ answer := .broken "timeout" }] },
          { method := some "DELETE", responses := [{ answer := .reply { status := 204 } }] }]
      tokens := .make (some "token") none none none }

/-- The first server is followed for two states, then the second one is deleted, and then the
installation of the first one comes to its end. -/
def pairDeeds : List (Bool × Deed) :=
  [(false, .progress (some 2)), (true, .delete), (false, .run)]

theorem isSome_reports_pair (i : Bool) :
    ((pair.run i).reports 10 (shareOf i pairDeeds)).isSome = true := by
  cases i <;> decide +kernel

/-- What each of the two servers does alone. -/
def pairAlone (i : Bool) : List Report × Run :=
  ((pair.run i).reports 10 (shareOf i pairDeeds)).get (isSome_reports_pair i)

/-- The first server only polls and the second one is only deleted, so they take different rules;
and no response rejects the token. -/
theorem accepts_pair (i : Bool) :
    pair.world.Accepts (pair.world.network.route? · = some i.toNat) (pairAlone i).2.world := by
  let requests := pair.world.requestsSince (pairAlone i).2.world
  have h : (∀ q ∈ requests, pair.world.network.route? q = some i.toNat) ∧
      ∀ response ∈ pair.world.network.responses requests, response.answer.rejects = false := by
    cases i <;> decide +kernel
  exact ⟨h.1, h.2⟩

theorem reports_of_alone_pair :
    ∃ shown g', pair.reports 10 pairDeeds = some (shown, g') ∧
      ∀ i,
        shareOf i shown = (pairAlone i).1 ∧
        (shareOf i shown).flatMap Report.events = pair.world.since (pairAlone i).2.world ∧
        g'.servers i = (pairAlone i).2.server := by
  refine pair.reports_of_alone 10 pairDeeds pairAlone (fun _ => ⟨rfl, rfl⟩) (by decide +kernel)
    (fun i => (Option.some_get (isSome_reports_pair i)).symm)
    (fun i => (accepts_pair i).accepted) ?_
  intro i j hij q q' k hq hq' hk hk'
  have hi : pair.world.network.route? q = some i.toNat := (accepts_pair i).asked_of_mem q hq
  have hj : pair.world.network.route? q' = some j.toNat := (accepts_pair j).asked_of_mem q' hq'
  rw [hi] at hk
  rw [hj, ← hk, Option.some.injEq] at hk'
  cases i <;> cases j <;> first | exact hij rfl | cases hk'

end Group

end Fleet
