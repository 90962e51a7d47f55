import Fleet.Account.Project
import Fleet.Proofs.Cloud.Listing

/-!
# Only the first page of a collection is seen

The platform may split a collection over pages that name their successors.  An account asks for the
first page of its locations, its projects, its billing accounts and the services of a project, and
for no other page.  So what it finds is what is on the first page, and it is the whole collection
only if nothing that counts is on the later ones.

## Main definitions

- `Collection`: what can be listed, and what its entries are read as
- `Network.HoldsCollection`: a collection that the network holds ready in pages
- `Collection.EndsWithFirstPage`: what a listing does that asks for one page only
- `Account.locations`, `Account.projects`, `Account.openBillingAccounts`,
  `Account.enabledServices`: the collections of an account

## Main statements

- `Collection.list_endsWithFirstPage`: what is found of a collection
- `Account.only_first_pages_count`: what an account finds, and which projects are healthy for it
-/

namespace Fleet

open World

/-! ## §1 Collections in pages -/

/-- A collection: how its first page is asked for, the member of a page that has its entries, and
what entries are read as. -/
structure Collection (α : Type) where
  request : Request
  name : String
  read : List Json → Except Fault (List α)
  headers_eq : request.headers = .null
  /-- entries are read one after the other -/
  read_append : ∀ earlier later, read (earlier ++ later) =
    (read earlier).bind fun found => (read later).map (found ++ ·)

variable {α : Type}

/-- The entries of pages, page after page. -/
def Collection.entries (c : Collection α) (pages : List Json) : List Json :=
  pages.flatMap (Json.entries c.name)

/-- The network holds a collection ready: all pages but the last one name a successor. -/
structure Network.HoldsCollection (n : Network) (c : Collection α) (first : Json)
    (later : List Json) : Prop where
  reply_eq : ∀ i page, (first :: later)[i]? = some page → n.reply c.request i = .ok page
  mayList : ∀ page ∈ first :: later, page.MayList c.name
  named : ∀ page ∈ (first :: later).dropLast, page.successor.truthy = true
  last : ((first :: later).getLast (List.cons_ne_nil _ _)).successor.truthy = false

/-- Ask for the first page, and read its entries. -/
def Collection.list (c : Collection α) (client : Client) : Call (List α) := do
  let page ← client.execute c.request
  Call.ofFault do c.read (← Account.listedItems page c.name)

/-- A listing asks for the first page of a collection and comes back with what is on it. -/
structure Collection.EndsWithFirstPage (c : Collection α) (listing : Call (List α)) : Prop where
  of_no_token : ∀ w f, w.tokens.getToken.1 = .error f →
    (listing.outcome w).1 = .error f ∧ w.requestsSince (listing.outcome w).2 = []
  of_failure : ∀ w token f, w.tokens.getToken.1 = .ok token →
    w.network.reply c.request 0 = .error f →
    (listing.outcome w).1 = .error f ∧ w.requestsSince (listing.outcome w).2 = [c.request]
  of_pages : ∀ w token first later, w.tokens.getToken.1 = .ok token →
    w.network.HoldsCollection c first later →
    (listing.outcome w).1 = (c.read (c.entries [first])).mapError .fault ∧
      w.requestsSince (listing.outcome w).2 = [c.request]
  /-- the whole collection is found exactly if the later pages have nothing to add -/
  eq_whole_iff : ∀ w token first later found, w.tokens.getToken.1 = .ok token →
    w.network.HoldsCollection c first later → c.read (c.entries (first :: later)) = .ok found →
    ((listing.outcome w).1 = .ok found ↔ c.read (c.entries later) = .ok [])

namespace Collection

variable {c : Collection α} {w : World} {token : String} {first : Json} {later : List Json}

/-- What is read of all pages is what is read of the first one, and then of the others. -/
theorem exists_of_read_eq_ok {found : List α}
    (h : c.read (c.entries (first :: later)) = .ok found) :
    ∃ early late, c.read (c.entries [first]) = .ok early ∧ c.read (c.entries later) = .ok late ∧
      found = early ++ late := by
  have hentries : c.entries (first :: later) = c.entries [first] ++ c.entries later := by
    simp [entries]
  rw [hentries, c.read_append] at h
  obtain ⟨early, hearly, h⟩ := exists_of_bind_eq_ok h
  cases hlate : c.read (c.entries later) with
  | error fault =>
    rw [hlate] at h
    cases h
  | ok late =>
    rw [hlate] at h
    cases h
    exact ⟨early, late, hearly, rfl, rfl⟩

/-- A listing comes back with what is read of the reply to its one request. -/
theorem list_reply (c : Collection α) (client : Client) (htoken : w.tokens.getToken.1 = .ok token) :
    let outcome := (c.list client).outcome w
    let read (page : Json) := (Account.listedItems page c.name).bind c.read
    outcome.1 = (w.network.reply c.request 0).bind (fun page => (read page).mapError .fault) ∧
      w.requestsSince outcome.2 = [c.request] := by
  intro outcome read
  obtain ⟨hresult, hrequests, -⟩ := client.execute_reply c.headers_eq htoken
  rcases hx : (client.execute c.request).outcome w with ⟨f | page, v⟩
  all_goals
    rw [hx] at hresult hrequests
    replace hresult := hresult.symm
    rw [hresult]
  · have houtcome : outcome = (.error f, v) := run_bind_of_error hx
    rw [houtcome]
    exact ⟨rfl, hrequests⟩
  · have houtcome : outcome = ((read page).mapError .fault, v) :=
      (run_bind_of_ok hx).trans (run_ofExcept _ v)
    rw [houtcome]
    exact ⟨rfl, hrequests⟩

theorem list_of_pages (client : Client) (htoken : w.tokens.getToken.1 = .ok token)
    (hpages : w.network.HoldsCollection c first later) :
    ((c.list client).outcome w).1 = (c.read (c.entries [first])).mapError .fault := by
  have hitems : Account.listedItems first c.name = .ok (c.entries [first]) := by
    rw [entries, List.flatMap_singleton]
    exact (hpages.mayList first List.mem_cons_self).elements_eq
  rw [(c.list_reply client htoken).1, hpages.reply_eq 0 first rfl]
  show ((Account.listedItems first c.name).bind c.read).mapError Failure.fault = _
  rw [hitems]
  rfl

/-- What is found of a collection is what is on its first page. -/
theorem list_endsWithFirstPage (c : Collection α) (client : Client) :
    c.EndsWithFirstPage (c.list client) where
  of_no_token w f htoken := by
    have hnone : (c.list client).outcome w = (.error f, (Client.accessToken.outcome w).2) :=
      run_bind_of_error (client.execute_of_no_token c.request htoken)
    rw [hnone]
    exact ⟨rfl, requestsSince_of_serves_none (Client.accessToken_extends none w)⟩
  of_failure w token f htoken hf := by
    obtain ⟨hresult, hrequests⟩ := c.list_reply client htoken
    rw [hf] at hresult
    exact ⟨hresult, hrequests⟩
  of_pages w token first later htoken hpages :=
    ⟨list_of_pages client htoken hpages, (c.list_reply client htoken).2⟩
  eq_whole_iff w token first later found htoken hpages hfound := by
    obtain ⟨early, late, hearly, hlate, rfl⟩ := exists_of_read_eq_ok hfound
    rw [list_of_pages client htoken hpages, hearly, hlate]
    simp [Except.mapError]

end Collection

/-! ## §2 The collections of an account -/

namespace Account

/-- Entries that are read one by one are read one after the other. -/
theorem mapM_read_append (f : Json → Except Fault α) (earlier later : List Json) :
    (earlier ++ later).mapM f =
      (earlier.mapM f).bind fun found => (later.mapM f).map (found ++ ·) := by
  rw [List.mapM_append]
  cases earlier.mapM f with
  | error fault => rfl
  | ok found => cases later.mapM f <;> rfl

/-- What is read of a zone. -/
def locationOf (zone : Json) : Except Fault ZoneOption := do
  let name ← zone.part "name"
  let status ← zone.get "status"
  return { zone := name, available := status.isText "UP" }

/-- What is read of a project. -/
def projectOf (project : Json) : Except Fault Project := do
  let id ← project.part "projectId"
  let name ← project.getD "name" (.str "")
  return { id, name }

/-- The zones of a project. -/
def locations (account : Account) (project : String) : Collection ZoneOption where
  request := account.client.listZones project
  name := "items"
  read := (·.mapM locationOf)
  headers_eq := rfl
  read_append := mapM_read_append locationOf

/-- The projects for managed servers. -/
def projects : Collection Project where
  request := Client.listProjects s!"labels.{managedLabel}=true AND lifecycleState=ACTIVE"
  name := "projects"
  read := (·.mapM projectOf)
  headers_eq := rfl
  read_append := mapM_read_append projectOf

/-- The billing accounts that are open. -/
def openBillingAccounts : Collection BillingAccount where
  request := Client.listBillingAccounts
  name := "billingAccounts"
  read entries := do
    let accounts ← entries.mapM openBillingAccount?
    return accounts.filterMap fun found => found
  headers_eq := rfl
  read_append earlier later := by
    rw [mapM_read_append]
    cases earlier.mapM openBillingAccount? with
    | error fault => rfl
    | ok found =>
      cases later.mapM openBillingAccount? with
      | error fault => rfl
      | ok more => exact congrArg Except.ok (List.filterMap_append ..)

/-- The names of the services that are switched on. -/
def enabledServices (project : String) : Collection Json where
  request := Client.listEnabledServices project
  name := "services"
  read := (·.mapM serviceName)
  headers_eq := rfl
  read_append := mapM_read_append serviceName

/-- All services that a project needs are among the names. -/
def HasRequired (names : List Json) : Prop :=
  ∀ service ∈ requiredServices, .str service ∈ names

/-! ## §3 Healthy projects -/

variable {account : Account} {project : String} {w : World} {token : String}

theorem required_iff {names : List Json} :
    (requiredServices.all fun service => names.any (·.isText service)) = true ↔
      HasRequired names := by
  simp [HasRequired, Json.isText_iff]

/-- Whether the required services are switched on. -/
def hasServices (account : Account) (project : String) : Call Bool := do
  let names ← (enabledServices project).list account.client
  return requiredServices.all fun service => names.any (·.isText service)

/-- What is decided about a project is decided by its billing, and then by its services. -/
theorem isProjectHealthy_eq (account : Account) (project : String) :
    account.isProjectHealthy project =
      account.client.execute (Client.getBillingInfo project) >>= fun billing =>
        Call.ofFault (billing.get "billingEnabled") >>= fun enabled =>
          if enabled.truthy then account.hasServices project else pure false := by
  unfold isProjectHealthy hasServices Collection.list
  congr 1
  funext billing
  congr 1
  funext enabled
  cases enabled.truthy with
  | false => rfl
  | true =>
    simp only [bind_assoc]
    rfl

/-- The services on the first page decide. -/
theorem hasServices_of_pages {names : List Json} {first : Json} {later : List Json}
    (htoken : w.tokens.getToken.1 = .ok token)
    (hpages : w.network.HoldsCollection (enabledServices project) first later)
    (hnames : (enabledServices project).read ((enabledServices project).entries [first]) =
      .ok names) :
    let outcome := (account.hasServices project).outcome w
    w.requestsSince outcome.2 = [Client.listEnabledServices project] ∧
      ∃ healthy, outcome.1 = .ok healthy ∧ (healthy = true ↔ HasRequired names) := by
  intro outcome
  obtain ⟨hlist, hasked⟩ := ((enabledServices project).list_endsWithFirstPage
    account.client).of_pages w token first later htoken hpages
  rw [hnames] at hlist
  rcases hl : ((enabledServices project).list account.client).outcome w with ⟨x, v⟩
  rw [hl] at hlist hasked
  obtain rfl : x = .ok names := hlist
  have houtcome : outcome = _ := run_bind_of_ok hl
  rw [houtcome]
  exact ⟨hasked, _, rfl, required_iff⟩

theorem hasServices_extends (account : Account) (project : String) (w : World) :
    w.Extends (fun _ => True) ((account.hasServices project).outcome w).2 := by
  have hlist : Within (World.Extends fun _ => True) (account.hasServices project) := by
    refine Within.bind (Within.bind ?_ fun _ => .ofExcept _) fun _ => .pure _
    exact (account.client.execute_extends _).mono fun _ _ h => h.mono fun _ _ => trivial
  exact hlist w

/-- Without billing nothing more is asked for; with it, the services decide. -/
theorem isProjectHealthy_outcome {billing enabled : Json}
    (htoken : w.tokens.getToken.1 = .ok token)
    (hbilling : w.network.reply (Client.getBillingInfo project) 0 = .ok billing)
    (henabled : billing.get "billingEnabled" = .ok enabled) :
    ∃ v, w.Answered token [Client.getBillingInfo project] v ∧
      (account.isProjectHealthy project).outcome w =
        if enabled.truthy then (account.hasServices project).outcome v else (.ok false, v) := by
  let question := Client.getBillingInfo project
  obtain ⟨hresult, -, hanswered⟩ :=
    account.client.execute_reply (show question.headers = .null from rfl) htoken
  rcases hx : (account.client.execute question).outcome w with ⟨x, v⟩
  rw [hbilling, hx] at hresult
  rw [hx] at hanswered
  obtain rfl : x = .ok billing := hresult
  refine ⟨v, hanswered billing rfl, ?_⟩
  have hask : (Call.ofFault (billing.get "billingEnabled")).outcome v = (.ok enabled, v) := by
    rw [henabled]
    rfl
  rw [isProjectHealthy_eq]
  refine (run_bind_of_ok hx).trans ((run_bind_of_ok hask).trans ?_)
  cases enabled.truthy <;> rfl

/-! ## §4 What an account sees -/

/-- Whatever pages there are, an account finds what is on the first one, and it takes a project for
healthy if billing is enabled and the required services are on the first page of its services. -/
theorem only_first_pages_count (account : Account) :
    (∀ project,
      (account.locations project).EndsWithFirstPage (account.listLocations project)) ∧
    projects.EndsWithFirstPage account.listProjects ∧
    openBillingAccounts.EndsWithFirstPage account.listOpenBillingAccounts ∧
    ∀ project w token billing enabled, w.tokens.getToken.1 = .ok token →
      w.network.reply (Client.getBillingInfo project) 0 = .ok billing →
      billing.get "billingEnabled" = .ok enabled →
      let services := enabledServices project
      let outcome := (account.isProjectHealthy project).outcome w
      (enabled.truthy = false →
        outcome.1 = .ok false ∧ w.requestsSince outcome.2 = [Client.getBillingInfo project]) ∧
      (enabled.truthy = true → ∀ first later names,
        (w.network.after [Client.getBillingInfo project]).HoldsCollection services first later →
        services.read (services.entries (first :: later)) = .ok names →
        w.requestsSince outcome.2 =
          [Client.getBillingInfo project, Client.listEnabledServices project] ∧
        ∃ early late healthy, services.read (services.entries [first]) = .ok early ∧
          services.read (services.entries later) = .ok late ∧ names = early ++ late ∧
          outcome.1 = .ok healthy ∧ (healthy = true ↔ HasRequired early) ∧
          -- all pages would tell otherwise exactly if a later one has what the first one lacks
          ((healthy = true ↔ HasRequired names) ↔ (HasRequired names → HasRequired early))) := by
  refine ⟨fun project => (account.locations project).list_endsWithFirstPage account.client,
    projects.list_endsWithFirstPage account.client,
    openBillingAccounts.list_endsWithFirstPage account.client, ?_⟩
  intro project w token billing enabled htoken hbilling henabled services outcome
  obtain ⟨v, hfirst, houtcome⟩ := isProjectHealthy_outcome htoken hbilling henabled
  replace houtcome : outcome = _ := houtcome
  constructor
  · intro hnone
    rw [houtcome, hnone]
    exact ⟨rfl, hfirst.requests_eq⟩
  · intro hpresent first later names hpages hnames
    obtain ⟨early, late, hearly, hlate, rfl⟩ := Collection.exists_of_read_eq_ok hnames
    rw [← hfirst.network_eq] at hpages
    obtain ⟨hasked, healthy, hresult, hhealthy⟩ :=
      hasServices_of_pages hfirst.token_eq hpages hearly
    rw [if_pos hpresent] at houtcome
    rw [houtcome]
    refine ⟨?_, early, late, healthy, hearly, hlate, rfl, hresult, hhealthy, ?_⟩
    · rw [requestsSince_trans hfirst.grows (account.hasServices_extends project v),
        hfirst.requests_eq]
      exact congrArg (Client.getBillingInfo project :: ·) hasked
    · have hmore : HasRequired early → HasRequired (early ++ late) :=
        fun h service hservice => List.mem_append_left _ (h service hservice)
      rw [hhealthy]
      exact ⟨Iff.mpr, fun h => ⟨hmore, h⟩⟩

/-- Billing is enabled and the required service is switched on, but it is on the second page. -/
theorem services_on_second_page_are_missed :
    let reply (body : String) : Response := { answer := .reply { body } }
    let last :=
      "\x7b\"services\": [\x7b\"config\": \x7b\"name\": \"compute.googleapis.com\"\x7d\x7d]\x7d"
    let w : World :=
      { network :=
          [{ urlPart := "/billingInfo", responses := [reply "\x7b\"billingEnabled\": true\x7d"] },
            { urlPart := "/services"
              responses :=
                [reply "\x7b\"services\": [], \"nextPageToken\": \"2\"\x7d", reply last] }]
        tokens := .make (some "token") none none none }
    let first : Json := .obj [("services", .arr []), ("nextPageToken", .str "2")]
    let second : Json :=
      .obj [("services", .arr [.obj [("config", .obj [("name", .str "compute.googleapis.com")])]])]
    let services := enabledServices "project"
    w.tokens.getToken.1.toOption = some "token" ∧
      w.network.reply (Client.getBillingInfo "project") 0 =
        .ok (.obj [("billingEnabled", .bool true)]) ∧
      (w.network.after [Client.getBillingInfo "project"]).HoldsCollection services first [second] ∧
      (∃ names, services.read (services.entries [first, second]) = .ok names ∧
        HasRequired names) ∧
      ((isProjectHealthy { id := "account" } "project").outcome w).1.toOption = some false := by
  -- without its abbreviations the statement is closed, and everything in it can be computed
  dsimp only
  refine ⟨rfl, by rfl, ⟨?_, ?_, ?_, rfl⟩, ⟨_, rfl, ?_⟩, by decide +kernel⟩
  · intro i found hfound
    match i with
    | 0 =>
      cases hfound
      rfl
    | 1 =>
      cases hfound
      rfl
  · intro found hfound
    rcases List.mem_pair.mp hfound with rfl | rfl
    all_goals
      refine ⟨_, rfl, fun value hvalue _ => ?_⟩
      cases hvalue
      exact ⟨_, rfl⟩
  · intro found hfound
    cases List.mem_singleton.mp hfound
    rfl
  · intro name hname
    cases List.mem_singleton.mp hname
    exact List.mem_singleton_self _

end Account

end Fleet
