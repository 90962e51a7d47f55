import Mathlib.Data.List.Forall2
import Fleet.Proofs.Cloud.Pages
import Fleet.Proofs.CommandLine.Creation

/-!
# Deleting the server of an instance

The command that deletes a server lists the instances of a project and deletes the first one with
the given id.  Between the id and the two requests that delete stand the pages of the listing, the
zone of the instance and the region of that zone.

## Main definitions

- `Account.LaunchesFor`: the server that an account makes for a listed instance

## Main statements

- `Account.exists_instances_of_listServers`: the servers of a project are those of its instances
- `Account.LaunchesFor.delete_isSome`: deleting such a server comes back after two phases
- `CommandLine.delete_removes_only`: the contract of the command
-/

namespace Fleet

open Run World

theorem Event.Reads.spares {e : Event} (h : e.Reads) : e.Spares := by
  intro request hrequest hmethod
  cases e with
  | requested sent =>
    cases hrequest
    rw [show sent.request.method = "GET" from h] at hmethod
    exact absurd hmethod (by decide)
  | _ => cases hrequest

/-- That a text is not the URL of a zone is no fault. -/
theorem ZoneLocator.isA_general_of_ofUrl {url : String} {f : Failure}
    (h : ofUrl (.str url) = .error f) : f.isA .general = true := by
  have htext : (Json.str url).orElse (.str "") = .str url := by
    unfold Json.orElse
    split
    · rfl
    · rename_i hempty
      have hurl : url = "" := by simpa [Json.truthy] using hempty
      rw [hurl]
  unfold ofUrl at h
  rw [htext] at h
  simp only at h
  split at h
  · cases h
  · cases h
    rfl

namespace Account

variable {account : Account} {project : String} {data : Json} {s : Server} {w v : World}

/-! ## §1 The servers of listed instances -/

theorem listedInstance_eq_ok {l : InstanceLocator} {name : Json} :
    listedInstance project data = .ok (l, name) ↔
      ∃ url zone id, data.part "zone" = .ok url ∧ ZoneLocator.ofUrl url = .ok zone ∧
        data.part "id" = .ok id ∧ data.part "name" = .ok name ∧
        l = ⟨project, zone.zone, id.text⟩ := by
  unfold listedInstance
  constructor
  · intro h
    cases hurl : data.part "zone" with
    | error fault =>
      rw [hurl] at h
      cases h
    | ok url =>
      rw [hurl] at h
      cases hzone : ZoneLocator.ofUrl url with
      | error f =>
        simp only [Except.mapError, bind, Except.bind, hzone] at h
        cases h
      | ok zone =>
        cases hid : data.part "id" with
        | error fault =>
          simp only [Except.mapError, bind, Except.bind, hzone, hid] at h
          cases h
        | ok id =>
          cases hname : data.part "name" with
          | error fault =>
            simp only [Except.mapError, bind, Except.bind, hzone, hid, hname] at h
            cases h
          | ok name' =>
            simp only [Except.mapError, bind, Except.bind, hzone, hid, hname] at h
            cases h
            exact ⟨url, zone, id, rfl, hzone, rfl, rfl, rfl⟩
  · rintro ⟨url, zone, id, hurl, hzone, hid, hname, rfl⟩
    simp only [Except.mapError, bind, Except.bind, hurl, hzone, hid, hname]
    rfl

/-- The server that an account makes for a listed instance: it has the locator and the name of the
instance, and nothing has to be created for it. -/
structure LaunchesFor (account : Account) (project : String) (data : Json) (s : Server) :
    Prop where
  listed : listedInstance project data = .ok (s.locator, s.name)
  client_eq : s.client = account.client
  creation_eq : s.creation = .ok ()
  launched : ∃ l : Launch, l.start.server = s

/-- The id of a listed instance, as text, is the given one. -/
def Identifies (data : Json) (instanceId : String) : Prop :=
  ∃ id, data.part "id" = .ok id ∧ id.text = instanceId

/-- The server of an instance has its id. -/
theorem LaunchesFor.identifies_iff (h : account.LaunchesFor project data s) (instanceId : String) :
    Identifies data instanceId ↔ s.locator.instanceId = instanceId := by
  obtain ⟨_, _, id, -, -, hid, -, hlocator⟩ := listedInstance_eq_ok.mp h.listed
  rw [hlocator, Identifies, hid]
  exact ⟨fun ⟨_, hsame, htext⟩ => Except.ok.inj hsame ▸ htext, fun htext => ⟨id, rfl, htext⟩⟩

/-- The first instance with the given id gives the first server with it. -/
theorem exists_find?_eq_some {earlier later : List Json} {servers : List Server}
    {instanceId : String}
    (h : List.Forall₂ (account.LaunchesFor project) (earlier ++ data :: later) servers)
    (hdata : Identifies data instanceId)
    (hearlier : ∀ other ∈ earlier, ¬ Identifies other instanceId) :
    ∃ s, servers.find? (·.locator.instanceId == instanceId) = some s ∧
      account.LaunchesFor project data s := by
  induction earlier generalizing servers with
  | nil =>
    obtain ⟨s, servers', hs, -, rfl⟩ := List.forall₂_cons_left_iff.mp h
    refine ⟨s, List.find?_cons_of_pos ?_, hs⟩
    exact beq_iff_eq.mpr ((hs.identifies_iff instanceId).mp hdata)
  | cons other earlier ih =>
    obtain ⟨hother, hearlier⟩ := List.forall_mem_cons.mp hearlier
    obtain ⟨s, servers', hs, hrest, rfl⟩ := List.forall₂_cons_left_iff.mp h
    obtain ⟨s', hfind, hs'⟩ := ih hrest hearlier
    refine ⟨s', ?_, hs'⟩
    rw [List.find?_cons_of_neg, hfind]
    exact mt beq_iff_eq.mp (mt (hs.identifies_iff instanceId).mpr hother)

theorem find?_eq_none {instances : List Json} {servers : List Server} {instanceId : String}
    (h : List.Forall₂ (account.LaunchesFor project) instances servers)
    (hnone : ∀ data ∈ instances, ¬ Identifies data instanceId) :
    servers.find? (·.locator.instanceId == instanceId) = none := by
  induction h with
  | nil => rfl
  | cons hs _ ih =>
    obtain ⟨hfirst, hrest⟩ := List.forall_mem_cons.mp hnone
    rw [List.find?_cons_of_neg, ih hrest]
    exact mt beq_iff_eq.mp (mt (hs.identifies_iff instanceId).mpr hfirst)

theorem serversOf_launches {instances : List Json} {servers : List Server}
    (h : (account.serversOf project instances).outcome w = (.ok servers, v)) :
    List.Forall₂ (account.LaunchesFor project) instances servers := by
  induction instances generalizing w servers with
  | nil =>
    cases h
    exact .nil
  | cons data rest ih =>
    obtain ⟨⟨l, name⟩, u, hread, h⟩ := exists_of_run_bind_eq_ok h
    rw [run_ofExcept] at hread
    have hlisted : listedInstance project data = .ok (l, name) := congrArg Prod.fst hread
    obtain ⟨s, u', hmake, h⟩ := exists_of_run_bind_eq_ok h
    obtain ⟨servers', v', hrest, h⟩ := exists_of_run_bind_eq_ok h
    obtain ⟨hservers, rfl⟩ := Prod.mk.inj h
    obtain rfl := Except.ok.inj hservers
    obtain ⟨hserver, rfl⟩ := Prod.mk.inj hmake
    obtain rfl := Except.ok.inj hserver
    refine .cons ⟨hlisted, rfl, rfl, ?_⟩ (ih hrest)
    exact ⟨⟨account.client, account.id ++ ":" ++ l.instanceId, l, name, .ok (),
      account.pollInterval, account.installTimeout, _⟩, rfl⟩

theorem serversOf_spares (account : Account) (project : String) (instances : List Json) :
    Within (Extends Event.Spares) (account.serversOf project instances) := by
  induction instances with
  | nil => exact .pure _
  | cons data rest ih =>
    refine Within.bind (.ofExcept _) fun listed => ?_
    refine Within.bind (fun w => ?_) fun server => ih.bind fun servers => .pure _
    exact Server.checkAddress_spares account.client listed.1 listed.2 w

/-- The servers of a project are those of its instances, on all pages of the listing. -/
theorem exists_instances_of_listServers {pages : Nat} {servers : List Server}
    (h : (account.listServers pages project).outcome w = (.ok servers, v)) :
    ∃ instances u,
      account.client.Lists project (some s!"labels.{managedLabel}=true") .null w instances u ∧
        List.Forall₂ (account.LaunchesFor project) instances servers := by
  obtain ⟨instances, u, hlists, h⟩ := exists_of_run_bind_eq_ok h
  obtain ⟨servers', u', hservers, h⟩ := exists_of_run_bind_eq_ok h
  refine ⟨instances, u, Client.lists_of_outcome hlists, ?_⟩
  have hmade : (account.serversOf project instances).outcome u = (.ok servers', u') :=
    Job.outcome_of_run_ofCall hservers
  cases h
  exact serversOf_launches hmade

/-- Listing the servers of a project deletes nothing. -/
theorem listServers_spares (account : Account) (pages : Nat) (project : String) :
    Within (Extends Event.Spares) (account.listServers pages project) := by
  refine Within.bind (fun w => ?_) fun instances => ?_
  · exact (account.client.listInstancesFrom_extends project _ pages .null w).mono fun _ he =>
      he.spares
  · refine (Job.within_ofCall (account.serversOf_spares project instances)).bind fun servers => ?_
    exact Within.bind (.modify fun w => w.log_spares _ _) fun _ => .pure _

/-- Nothing has to be created for such a server, so its setup is settled two phases after it was
called off. -/
theorem LaunchesFor.delete_isSome (h : account.LaunchesFor project data s) (w : World)
    (bound : Nat) : (Run.delete ⟨s, w⟩ (bound + 2)).isSome = true := by
  obtain ⟨l, rfl⟩ := h.launched
  let c := Run.cancel ⟨l.start.server, w⟩
  have hsound : Run.Sound ⟨l.start.server, w⟩ := l.start_sound.of_world w
  have hclosed : c.server.install.closed = true :=
    closed_enter_of_isFinal hsound.toCoherent rfl none
  have hframe : Evolves (fun _ => True) ⟨l.start.server, w⟩ c := evolves_proceed _ .canceled
  have hphase : c.server.phase = .awaitingInstance := by
    rw [hframe.frame]
    rfl
  have hcreation : c.server.creation = .ok () := by
    rw [hframe.frame]
    exact h.creation_eq
  -- the first phase finds the installation called off, and the second one settles the setup
  have hfirst : c.step = c.goTo .settling := by
    simp only [step, hphase, setUp, awaitInstance_outcome, hcreation, hclosed, if_true]
  have hsecond : c.step.step.server.isFinished = true := by
    have hgone : (c.goTo .settling).step = (c.goTo .settling).settle := rfl
    have hclosed' : (c.goTo .settling).server.install.closed = true := hclosed
    rw [hfirst, hgone]
    simp only [settle, hclosed', if_true]
    rfl
  exact delete_isSome_iff.mpr (.inr ⟨2, by omega, hsecond⟩)

end Account

/-! ## §2 The ends of the command -/

namespace CommandLine

variable {bound : Nat} {account : Account} {settings : Settings} {instanceId : String}
  {interrupt : Option Nat} {w v : World} {servers : List Server} {s : Server}

/-- If there is a server with the id, the command ends as deleting it does. -/
theorem delete_of_found {o : Except Failure Unit} {r : Run}
    (hlisting : (account.listServers bound settings.project).outcome w = (.ok servers, v))
    (hfind : servers.find? (·.locator.instanceId == instanceId) = some s)
    (hdelete : Run.delete ⟨s, v⟩ bound = some (o, r)) :
    (delete bound account settings instanceId).outcome w =
      match o with
      | .ok () => (.ok 0, r.world.log .info s!"Deleted server {s.id}")
      | .error f => (.error (.failure f), r.world) := by
  refine (run_bind_of_ok hlisting).trans ?_
  rw [hfind]
  have hdeleted := deleteServer_outcome hdelete
  cases o with
  | ok => exact run_bind_of_ok hdeleted
  | error f => exact run_bind_of_error hdeleted

theorem delete_of_not_found
    (hlisting : (account.listServers bound settings.project).outcome w = (.ok servers, v))
    (hfind : servers.find? (·.locator.instanceId == instanceId) = none) :
    (delete bound account settings instanceId).outcome w =
      (.ok 1, v.log .error s!"No server with instance ID {instanceId} in {settings.project}") := by
  refine (run_bind_of_ok hlisting).trans ?_
  rw [hfind]
  rfl

/-- A command that fails gives exit code one, whether it handles the failure or not. -/
theorem perform_of_error {command : Command} {f : Failure}
    (h : (run bound command settings interrupt).outcome w = (.error (.failure f), v)) :
    ∃ e u, (perform bound command settings interrupt).outcome w = (e, u) ∧
      exitStatus? e = some 1 ∧ (e = .ok 1 ↔ f.isA .general = true) ∧
      (e = .ok 1 ∨ e = .error (.failure f)) ∧ v.Extends Event.Spares u := by
  cases hf : f.isA .general with
  | true =>
    exact ⟨_, _, perform_of_failure hf h, rfl, by simp, .inl rfl, log_spares _ _ _⟩
  | false => exact ⟨_, v, perform_of_unhandled hf h, rfl, by simp, .inr rfl, .refl v⟩

/-- The exit code says whether the deletion of the server succeeded. -/
theorem perform_delete_of_found {o : Except Failure Unit} {r : Run}
    (hlisting : (settings.account.listServers bound settings.project).outcome w = (.ok servers, v))
    (hfind : servers.find? (·.locator.instanceId == instanceId) = some s)
    (hdelete : Run.delete ⟨s, v⟩ bound = some (o, r)) :
    ∃ e code u, (perform bound (.delete instanceId) settings interrupt).outcome w = (e, u) ∧
      exitStatus? e = some code ∧ (code = 0 ↔ o = .ok ()) ∧ (code = 0 ∨ code = 1) ∧
      (∀ f, o = .error f → (e = .ok 1 ↔ f.isA .general = true)) ∧
      (e = .ok code ∨ ∃ f, o = .error f ∧ e = .error (.failure f)) ∧
      r.world.Extends Event.Spares u := by
  have hrun := delete_of_found hlisting hfind hdelete
  cases o with
  | ok =>
    exact ⟨.ok 0, 0, _, perform_of_ok hrun, rfl, by simp, .inl rfl, nofun, .inl rfl,
      log_spares _ _ _⟩
  | error f =>
    have hfailed : (run bound (.delete instanceId) settings interrupt).outcome w =
        (.error (.failure f), r.world) := hrun
    obtain ⟨e, u, hperform, hcode, hhandled, hends, hu⟩ := perform_of_error hfailed
    refine ⟨e, 1, u, hperform, hcode, by simp, .inr rfl, ?_, ?_, hu⟩
    · rintro _ ⟨⟩
      exact hhandled
    · exact hends.imp_right fun he => ⟨f, rfl, he⟩

/-! ## §3 What the command deletes -/

/-- Whatever the platform answers and whichever id is given. -/
theorem delete_removes_only (bound : Nat) (settings : Settings) (instanceId : String)
    (interrupt : Option Nat) (w : World) :
    let account := settings.account
    let client := account.client
    let selection := some s!"labels.{Account.managedLabel}=true"
    let listing := (account.listServers (bound + 2) settings.project).outcome w
    let outcome := (perform (bound + 2) (.delete instanceId) settings interrupt).outcome w
    -- a listing that succeeds has the instances of all pages in their order
    (∀ servers v, listing = (.ok servers, v) → ∃ instances u,
      client.Lists settings.project selection .null w instances u ∧
      List.Forall₂ (account.LaunchesFor settings.project) instances servers ∧
      -- the first instance with the id is the one that is deleted
      (∀ earlier data later, instances = earlier ++ data :: later →
        Account.Identifies data instanceId →
        (∀ other ∈ earlier, ¬ Account.Identifies other instanceId) →
        ∃ url zone name e code u', data.part "zone" = .ok url ∧ ZoneLocator.ofUrl url = .ok zone ∧
          data.part "name" = .ok name ∧ outcome = (e, u') ∧
          -- the exit code is that of the command, or one if a response is nested too deep for it
          exitStatus? e = some code ∧ (code = 0 ∨ code = 1) ∧
          (e = .ok code ∨ ∃ container, e = .error (.failure (.fault (.nestedTooDeep container)))) ∧
          let l : InstanceLocator := ⟨settings.project, zone.zone, instanceId⟩
          -- without a region nothing is deleted
          (∀ f, l.regionLocator = .error f → e = .ok 1 ∧ w.deletionsSince u' = []) ∧
          -- in a region the address and the instance are removed in turn, and nothing else is
          ∀ region, l.regionLocator = .ok region →
            let address := client.deleteAddress region name.text
            let both := [address, client.deleteInstance l]
            ∃ w₁ o w₂, w.Extends Event.Spares w₁ ∧
              client.RemovesInTurn address (client.deleteInstance l) w₁ o w₂ ∧
              w₂.Extends Event.Spares u' ∧ (code = 0 ↔ o = .ok ()) ∧
              w.deletionsSince u' <+: both ∧ (o = .ok () → w.deletionsSince u' = both) ∧
              ∀ f, ((client.execute address).outcome w₁).1 = .error f → f.isNotFound = false →
                code = 1 ∧ w.deletionsSince u' <+: [address]) ∧
      -- without such an instance nothing is deleted
      ((∀ data ∈ instances, ¬ Account.Identifies data instanceId) →
        ∃ u', outcome = (.ok 1, u') ∧ w.deletionsSince u' = [])) ∧
    -- nor is it if the listing fails; the command handles every failure that is no fault, as there
    -- is one if the platform refuses a page or if the URL of a zone cannot be read
    (∀ f v, listing = (.error (.failure f), v) → ∃ e u', outcome = (e, u') ∧
      exitStatus? e = some 1 ∧ (e = .ok 1 ↔ f.isA .general = true) ∧ w.deletionsSince u' = []) ∧
    (∀ pageToken u f v,
      (client.execute (client.listInstances settings.project selection pageToken)).outcome u =
        (.error f, v) →
      f.isA .general = true ∨ ∃ container, f = .fault (.nestedTooDeep container)) ∧
    (∀ url f, ZoneLocator.ofUrl (.str url) = .error f → f.isA .general = true) ∧
    -- a number and its decimal text are the same id
    ∀ (members : List (String × Json)) (n : Int),
      Account.Identifies (.obj (("id", .int n) :: members)) instanceId ↔
        Account.Identifies (.obj (("id", .str (toString n)) :: members)) instanceId := by
  intro account client selection listing outcome
  have hquiet : w.Extends Event.Spares listing.2 :=
    account.listServers_spares (bound + 2) settings.project w
  refine ⟨?_, ?_, ?_, ?_, ?_⟩
  · intro servers v hlisting
    rw [hlisting] at hquiet
    obtain ⟨instances, u, hlists, hservers⟩ := Account.exists_instances_of_listServers hlisting
    refine ⟨instances, u, hlists, hservers, ?_, ?_⟩
    · rintro earlier data later rfl hdata hearlier
      obtain ⟨s, hfind, hs⟩ := Account.exists_find?_eq_some hservers hdata hearlier
      obtain ⟨⟨o, r⟩, hdelete⟩ := Option.isSome_iff_exists.mp (hs.delete_isSome v bound)
      obtain ⟨url, zone, id, hurl, hzone, hid, hname, hlocator⟩ :=
        Account.listedInstance_eq_ok.mp hs.listed
      have hclient : s.client = client := hs.client_eq
      obtain ⟨l, hl⟩ := hs.launched
      have hsound : Run.Sound ⟨s, v⟩ := hl ▸ l.start_sound.of_world v
      obtain ⟨phases, w₁, hjournal, -, hnone, hlog, hfailure, hremoves, hnoRegion⟩ :=
        delete_deletions hsound hdelete
      have hbefore : w.Extends Event.Spares w₁ :=
        (hquiet.trans (extends_spares hjournal hnone)).trans (hlog.mono fun _ he => he.spares)
      -- the id that was found is the one that was asked for
      obtain ⟨id', hid', htext⟩ := hdata
      obtain rfl : id = id' := Except.ok.inj (hid.symm.trans hid')
      rw [htext] at hlocator
      obtain ⟨e, code, u', houtcome, hstatus, hcode, hcodes, hhandled, hends, hafter⟩ :=
        perform_delete_of_found hlisting hfind hdelete
      refine ⟨url, zone, s.name, e, code, u', hurl, hzone, hname, houtcome, hstatus, hcodes,
        ?_, ?_, ?_⟩
      · rcases hends with he | ⟨f, hf, he⟩
        · exact .inl he
        · -- what the command does not handle is a fault
          rcases hfailure f hf with hgeneral | ⟨container, rfl, -⟩
          · have hone := (hhandled f hf).mpr hgeneral
            rw [he] at hone
            cases hone
          · exact .inr ⟨container, he⟩
      · intro f hf
        obtain ⟨ho, hworld⟩ := hnoRegion f (hlocator ▸ hf)
        refine ⟨(hhandled f ho).mpr (InstanceLocator.isA_general_of_regionLocator hf), ?_⟩
        exact deletionsSince_of_spares (hbefore.trans (hworld ▸ hafter))
      · intro region hregion address both
        have hturn := hremoves region (hlocator ▸ hregion)
        simp only [hclient, hlocator] at hturn
        obtain ⟨hstart, hboth, hstopped⟩ := hturn.requestsSince_prefix rfl rfl
        have hdeleted : w.deletionsSince u' = w₁.requestsSince r.world :=
          (deletionsSince_eq_of_spares hbefore hturn.extends hafter).trans hturn.deletionsSince_eq
        refine ⟨w₁, o, r.world, hbefore, hturn, hafter, hcode, ?_, ?_, ?_⟩
        · rw [hdeleted]
          exact hstart
        · rw [hdeleted]
          exact hboth
        · intro f hf hother
          obtain ⟨rfl, hfirst⟩ := hstopped f hf hother
          rw [hdeleted]
          exact ⟨hcodes.resolve_left (mt hcode.mp nofun), hfirst⟩
    · intro hnone
      have hperform : outcome = _ :=
        perform_of_ok (delete_of_not_found hlisting (Account.find?_eq_none hservers hnone))
      exact ⟨_, hperform, deletionsSince_of_spares (hquiet.trans (log_spares _ _ _))⟩
  · intro f v hlisting
    rw [hlisting] at hquiet
    have hrun : (run (bound + 2) (.delete instanceId) settings interrupt).outcome w =
        (.error (.failure f), v) := run_bind_of_error hlisting
    obtain ⟨e, u', hperform, hstatus, hhandled, -, hafter⟩ := perform_of_error hrun
    exact ⟨e, u', hperform, hstatus, hhandled, deletionsSince_of_spares (hquiet.trans hafter)⟩
  · intro pageToken u f v hpage
    rcases client.execute_failure rfl hpage with hgeneral | ⟨container, -, hf⟩
    · exact .inl hgeneral
    · exact .inr ⟨container, hf⟩
  · intro url f hurl
    exact ZoneLocator.isA_general_of_ofUrl hurl
  · intro members n
    simp [Account.Identifies, Json.part, Json.lookup, Json.text, Json.literal]

end CommandLine

end Fleet
