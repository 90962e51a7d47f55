import Fleet.Proofs.Cloud.Exchanges
import Fleet.Proofs.Json

/-!
# The instances of a listing

The network holds a reply ready for each page that will be asked for.  A listing asks for one page
after the other, each with the token that the page before it names, and it comes back with the
instances of all these pages: page after page, and scope after scope in a page.  So it depends on
the scopes in their order, and not on where one page ends and the next one begins.

## Main definitions

- `Json.IsPage`: pages of a listing, and `Json.scopes`, `Json.instances`, `Json.successor`: what is
  on them
- `Client.pageRequest`: the request for a page
- `Network.HoldsPages`, `Network.HoldsListing`: the pages that the network holds ready

## Main statements

- `Client.pageInstances_of_isPage`: the instances of a page
- `Client.listInstancesFrom_of_pages`: a listing after pages that name successors
- `Client.listing_loses_and_repeats_nothing`: what a listing requests and comes back with
-/

namespace Fleet

open World

/-! ## §1 Pages -/

namespace Json

/-- A scope has a list of instances or none. -/
def IsScope : Json → Prop :=
  MayHave "instances" fun instances => ∃ listed, instances = .arr listed

/-- A page has an object of scopes or none. -/
def IsPage : Json → Prop :=
  MayHave "items" fun items =>
    ∃ scopes, items = .obj scopes ∧ ∀ scope ∈ scopes, scope.2.IsScope

/-- The scopes of a page in their order. -/
def scopes (page : Json) : List Json :=
  match page.member? "items" with
  | some (.obj scopes) => scopes.map (·.2)
  | _ => []

/-- The instances of a scope in their order. -/
def instances (scope : Json) : List Json :=
  match scope.member? "instances" with
  | some (.arr listed) => listed
  | _ => []

/-- The token of the next page, null if the page names none. -/
def successor (page : Json) : Json :=
  (page.member? "nextPageToken").getD .null

end Json

open Json

namespace Client

theorem scopeInstances_of_isScope {scope : Json} (h : scope.IsScope) :
    scopeInstances scope = .ok scope.instances :=
  MayList.elements_eq h

theorem mapM_scopeInstances {scopes : List Json} (h : ∀ scope ∈ scopes, scope.IsScope) :
    scopes.mapM scopeInstances = .ok (scopes.map Json.instances) := by
  induction scopes with
  | nil => rfl
  | cons scope scopes ih =>
    obtain ⟨hscope, hrest⟩ := List.forall_mem_cons.mp h
    rw [List.mapM_cons, scopeInstances_of_isScope hscope, ih hrest]
    rfl

/-- The instances of a page are those of its scopes, one scope after the other. -/
theorem pageInstances_of_isPage {page : Json} (h : page.IsPage) :
    pageInstances page = .ok (page.scopes.flatMap Json.instances) := by
  unfold pageInstances Json.scopes
  rcases MayHave.cases h with
    ⟨_, hmember, hget, hpresent, scopes, rfl, hscopes⟩ | ⟨value, hget, hnone, hmember⟩
  · rw [hget, hmember]
    show (orElse (.obj scopes) (.obj [])).values >>= _ = _
    rw [orElse_of_truthy hpresent]
    show (scopes.map (·.2)).mapM scopeInstances >>= _ = _
    rw [mapM_scopeInstances (List.forall_mem_map.mpr hscopes)]
    rfl
  · rw [hget]
    show (orElse value (.obj [])).values >>= _ = _
    rw [orElse_of_not_truthy hnone]
    split
    · -- an object that is not present is empty
      rename_i scopes hscopes
      have hempty := hmember _ hscopes
      cases scopes with
      | nil => rfl
      | cons => cases hempty
    · rfl

theorem get_nextPageToken {page : Json} (h : page.IsPage) :
    page.get "nextPageToken" = .ok page.successor := by
  obtain ⟨members, rfl, -⟩ := h
  rfl

/-! ## §2 Requests for pages -/

/-- The request for a page: for the first one, or for the one that a page token names. An empty
filter is none. -/
def pageRequest (client : Client) (project : String) (selection : Option String)
    (pageToken : Option Json) : Request where
  method := "GET"
  url := client.computeUrl ("projects/" ++ project ++ "/aggregated/instances")
  params := .obj
    ((TokenStore.usable selection).toList.map (fun filter => ("filter", .str filter)) ++
      pageToken.toList.map fun pageToken => ("pageToken", pageToken))

variable {client : Client} {project : String} {selection : Option String} {pageToken : Json}

theorem listInstances_null :
    client.listInstances project selection .null = client.pageRequest project selection none := by
  unfold listInstances pageRequest
  cases TokenStore.usable selection <;> rfl

theorem listInstances_of_truthy (h : pageToken.truthy = true) :
    client.listInstances project selection pageToken =
      client.pageRequest project selection (some pageToken) := by
  unfold listInstances pageRequest
  rw [if_pos h]
  cases TokenStore.usable selection <;> rfl

end Client

/-! ## §3 One page after the other -/

/-- The network holds pages ready that all name a successor. -/
def Network.HoldsPages (n : Network) (request : Request) (pages : List Json) : Prop :=
  ∀ i page, pages[i]? = some page →
    n.reply request i = .ok page ∧ page.IsPage ∧ page.successor.truthy = true

/-- The network holds a whole listing ready: pages that name a successor, and one that does not. -/
structure Network.HoldsListing (n : Network) (request : Request) (earlier : List Json)
    (last : Json) : Prop where
  holdsPages : n.HoldsPages request earlier
  last_eq : n.reply request earlier.length = .ok last
  isPage : last.IsPage
  isLast : last.successor.truthy = false

theorem Network.HoldsPages.truthy_of_mem {n : Network} {request : Request} {pages : List Json}
    (h : n.HoldsPages request pages) {page : Json} (hpage : page ∈ pages) :
    page.successor.truthy = true := by
  obtain ⟨i, hi⟩ := List.mem_iff_getElem?.mp hpage
  exact (h i page hi).2.2

theorem Network.HoldsPages.of_cons {n m : Network} {request : Request} {page : Json}
    {pages : List Json} (h : n.HoldsPages request (page :: pages))
    (hreply : ∀ i, m.reply request i = n.reply request (i + 1)) : m.HoldsPages request pages := by
  intro i found hfound
  rw [hreply]
  exact h (i + 1) found hfound

namespace Client

variable {client : Client} {project : String} {selection : Option String} {pageToken : Json}
  {w : World} {token : String} {earlier : List Json}

/-- The requests for all pages go to the same place, and so they have the same replies. -/
theorem place_listInstances (pageToken : Json) :
    (client.listInstances project selection pageToken).place =
      (client.pageRequest project selection none).place := rfl

theorem map_append_map_append (instances instances' : List Json) (x : Except Halt (List Json)) :
    (x.map (instances' ++ ·)).map (instances ++ ·) = x.map (instances ++ instances' ++ ·) := by
  cases x with
  | error halt => rfl
  | ok later => simp only [Except.map, List.append_assoc]

/-- After pages that name a successor, a listing goes on with what the last one of them names. -/
theorem listInstancesFrom_of_pages (htoken : w.tokens.getToken.1 = .ok token)
    (hpages : w.network.HoldsPages (client.pageRequest project selection none) earlier)
    (pages : Nat) (pageToken : Json) :
    let tokens := pageToken :: earlier.map Json.successor
    ∃ v, w.Answered token (tokens.dropLast.map (client.listInstances project selection)) v ∧
      (client.listInstancesFrom project selection (pages + earlier.length) pageToken).outcome w =
        let later := (client.listInstancesFrom project selection pages
          (tokens.getLast (List.cons_ne_nil _ _))).outcome v
        (later.1.map ((earlier.flatMap Json.scopes).flatMap Json.instances ++ ·), later.2) := by
  induction earlier generalizing w pageToken with
  | nil =>
    refine ⟨w, .refl htoken, ?_⟩
    rcases hx : (client.listInstancesFrom project selection pages pageToken).outcome w with
      ⟨halt | instances, v⟩
    all_goals
      simp only [List.map_nil, List.getLast_singleton, hx]
      rfl
  | cons page earlier ih =>
    intro tokens
    let request := client.listInstances project selection pageToken
    have hp : request.headers = .null := rfl
    obtain ⟨hpage, hisPage, hmore⟩ := hpages 0 page rfl
    -- the first page comes back, and the others are still there
    obtain ⟨hresult, -, hanswered⟩ := client.execute_reply hp htoken
    rw [Network.reply_congr (place_listInstances pageToken), hpage] at hresult
    rcases hx : (client.execute request).outcome w with ⟨x, m⟩
    rw [hx] at hresult hanswered
    obtain rfl : x = .ok page := hresult
    have hfirst : w.Answered token [request] m := hanswered page rfl
    have hplace : ∀ q ∈ [request], q.place = (client.pageRequest project selection none).place :=
      List.forall_mem_singleton.mpr rfl
    have hlater : m.network.HoldsPages (client.pageRequest project selection none) earlier :=
      hpages.of_cons fun i => hfirst.reply_eq hplace i
    obtain ⟨v, hrest, houtcome⟩ := ih hfirst.token_eq hlater page.successor
    refine ⟨v, hfirst.trans hrest, ?_⟩
    rw [List.length_cons, ← Nat.add_assoc, listInstancesFrom_outcome, hx]
    simp only [pageInstances_of_isPage hisPage, get_nextPageToken hisPage, hmore, if_true,
      houtcome, tokens, List.map_cons, List.getLast_cons_cons, List.flatMap_cons,
      List.flatMap_append, map_append_map_append]

/-- The requests of a listing whose pages but the last one name a successor. -/
theorem requests_of_successors (hpages : ∀ page ∈ earlier, page.successor.truthy = true) :
    (Json.null :: earlier.map Json.successor).map (client.listInstances project selection) =
      client.pageRequest project selection none ::
        earlier.map fun page => client.pageRequest project selection (some page.successor) := by
  rw [List.map_cons, listInstances_null, List.map_map]
  congr 1
  apply List.map_congr_left
  intro page hpage
  exact listInstances_of_truthy (hpages page hpage)

/-- The page after those that name a successor is asked for, and if it cannot be had or names no
successor, that is the end of the listing. -/
theorem listAllInstances_at_page (htoken : w.tokens.getToken.1 = .ok token)
    (hpages : w.network.HoldsPages (client.pageRequest project selection none) earlier)
    {pages : Nat} (hbound : pages > earlier.length) :
    let first := client.pageRequest project selection none
    let outcome := (client.listAllInstances pages project selection).outcome w
    ∃ u, w.requestsSince u =
        first ::
          earlier.map (fun page => client.pageRequest project selection (some page.successor)) ∧
      (∀ f, w.network.reply first earlier.length = .error f → outcome = (.error (.failure f), u)) ∧
      ∀ last, w.network.HoldsListing first earlier last →
        outcome = (.ok (((earlier ++ [last]).flatMap Json.scopes).flatMap Json.instances), u) := by
  intro first outcome
  obtain ⟨more, rfl⟩ : ∃ more, pages = more + 1 + earlier.length :=
    ⟨pages - earlier.length - 1, by omega⟩
  obtain ⟨v, hearlier, houtcome⟩ := listInstancesFrom_of_pages htoken hpages (more + 1) .null
  let tokens := Json.null :: earlier.map Json.successor
  let pageToken := tokens.getLast (List.cons_ne_nil _ _)
  let request := client.listInstances project selection pageToken
  have hp : request.headers = .null := rfl
  obtain ⟨hresult, hasked, -⟩ := client.execute_reply hp hearlier.token_eq
  have hplaces : ∀ q ∈ tokens.dropLast.map (client.listInstances project selection),
      q.place = request.place := List.forall_mem_map.mpr fun _ _ => rfl
  rw [hearlier.reply_eq hplaces, Network.reply_congr (place_listInstances pageToken),
    List.length_map, List.length_dropLast, List.length_cons, List.length_map, Nat.zero_add,
    Nat.add_sub_cancel] at hresult
  rcases hx : (client.execute request).outcome v with ⟨x, u⟩
  rw [hx] at hresult hasked
  replace hresult : x = w.network.reply first earlier.length := hresult
  have hnext : outcome = _ := houtcome
  rw [listInstancesFrom_outcome, show client.execute _ = client.execute request from rfl, hx]
    at hnext
  refine ⟨u, ?_, fun f hf => ?_, fun last hlast => ?_⟩
  · have hafter : v.Extends (fun _ => True) u :=
      ((client.execute_extends request).of_run hx).mono fun _ _ => trivial
    have hall : tokens.dropLast.map (client.listInstances project selection) ++ [request] =
        tokens.map (client.listInstances project selection) := by
      rw [← List.map_singleton (f := client.listInstances project selection), ← List.map_append,
        List.dropLast_append_getLast]
    rw [requestsSince_trans hearlier.grows hafter, hearlier.requests_eq, hasked]
    exact hall.trans (requests_of_successors fun page hpage => hpages.truthy_of_mem hpage)
  · rw [hnext, hresult, hf]
    rfl
  · rw [hnext, hresult, hlast.last_eq]
    simp only [pageInstances_of_isPage hlast.isPage, get_nextPageToken hlast.isPage, hlast.isLast]
    simp only [List.flatMap_append, List.flatMap_singleton]
    rfl

/-- What a listing requests and comes back with, if the network holds pages ready. -/
theorem listing_loses_and_repeats_nothing (client : Client) (project : String)
    (selection : Option String) :
    let first := client.pageRequest project selection none
    let next (page : Json) := client.pageRequest project selection (some page.successor)
    let listing (pages : Nat) (w : World) :=
      (client.listAllInstances pages project selection).outcome w
    -- without a token nothing is requested
    (∀ w f, w.tokens.getToken.1 = .error f → ∀ pages > 0,
      (listing pages w).1 = .error (.failure f) ∧ w.requestsSince (listing pages w).2 = []) ∧
    (∀ w token, w.tokens.getToken.1 = .ok token → ∀ earlier,
      w.network.HoldsPages first earlier →
      -- the first page that names no successor is the last one that is asked for
      (∀ last, w.network.HoldsListing first earlier last → ∀ pages > earlier.length,
        (listing pages w).1 =
          .ok (((earlier ++ [last]).flatMap Json.scopes).flatMap Json.instances) ∧
        w.requestsSince (listing pages w).2 = first :: earlier.map next) ∧
      -- with the first page that cannot be had the listing fails
      (∀ f, w.network.reply first earlier.length = .error f → ∀ pages > earlier.length,
        (listing pages w).1 = .error (.failure f) ∧
        w.requestsSince (listing pages w).2 = first :: earlier.map next) ∧
      -- as long as a page names a successor, the listing goes on
      (listing earlier.length w).1 = .error .unfinished ∧
      w.requestsSince (listing earlier.length w).2 = (first :: earlier.map next).dropLast) ∧
    -- it makes no difference where one page ends and the next one begins
    ∀ w token w' token' earlier earlier' last last',
      w.tokens.getToken.1 = .ok token → w'.tokens.getToken.1 = .ok token' →
      w.network.HoldsListing first earlier last → w'.network.HoldsListing first earlier' last' →
      (earlier ++ [last]).flatMap Json.scopes = (earlier' ++ [last']).flatMap Json.scopes →
      ∀ pages > earlier.length, ∀ pages' > earlier'.length,
        (listing pages w).1 = (listing pages' w').1 := by
  intro first next listing
  have hlisting {w : World} {token : String} {earlier : List Json} {last : Json}
      (htoken : w.tokens.getToken.1 = .ok token)
      (hlast : w.network.HoldsListing first earlier last) {pages : Nat}
      (hbound : pages > earlier.length) :
      (listing pages w).1 =
          .ok (((earlier ++ [last]).flatMap Json.scopes).flatMap Json.instances) ∧
        w.requestsSince (listing pages w).2 = first :: earlier.map next := by
    obtain ⟨u, hrequests, -, hends⟩ :=
      listAllInstances_at_page htoken hlast.holdsPages hbound
    rw [show listing pages w = _ from hends last hlast]
    exact ⟨rfl, hrequests⟩
  refine ⟨?_, ?_, ?_⟩
  · intro w f htoken pages hbound
    obtain ⟨more, rfl⟩ : ∃ more, pages = more + 1 := ⟨pages - 1, by omega⟩
    have hnone := client.execute_of_no_token (client.listInstances project selection .null) htoken
    have hlisting : listing (more + 1) w = (.error (.failure f), (accessToken.outcome w).2) := by
      show (client.listInstancesFrom project selection (more + 1) .null).outcome w = _
      rw [listInstancesFrom_outcome, hnone]
    rw [hlisting]
    exact ⟨rfl, requestsSince_of_serves_none (accessToken_extends none w)⟩
  · intro w token htoken earlier hpages
    refine ⟨fun last hlast pages hbound => hlisting htoken hlast hbound, ?_, ?_⟩
    · intro f hf pages hbound
      obtain ⟨u, hrequests, hfails, -⟩ := listAllInstances_at_page htoken hpages hbound
      rw [show listing pages w = _ from hfails f hf]
      exact ⟨rfl, hrequests⟩
    · obtain ⟨v, hearlier, houtcome⟩ := listInstancesFrom_of_pages htoken hpages 0 .null
      rw [Nat.zero_add] at houtcome
      rw [show listing earlier.length w = _ from houtcome]
      refine ⟨rfl, hearlier.requests_eq.trans ?_⟩
      rw [List.map_dropLast,
        requests_of_successors fun page hpage => hpages.truthy_of_mem hpage]
  · intro w token w' token' earlier earlier' last last' htoken htoken' hlast hlast' hscopes
      pages hbound pages' hbound'
    rw [(hlisting htoken hlast hbound).1, (hlisting htoken' hlast' hbound').1, hscopes]

-- a page without scopes in the middle, and a scope without instances
example :
    let page (items next : String) : Response :=
      { answer := .reply
          { body := "\x7b\"items\": " ++ items ++ ", \"nextPageToken\": " ++ next ++ "\x7d" } }
    let w : World :=
      { network :=
          [{ responses :=
              [page "\x7b\"a\": \x7b\"instances\": [1, 2]\x7d, \"b\": \x7b\x7d\x7d" "\"x\"",
                page "null" "\"y\"",
                page "\x7b\"c\": \x7b\"instances\": [3]\x7d\x7d" "\"\""] }]
        tokens := .make (some "token") none none none }
    let outcome := (({} : Client).listAllInstances 10 "project" (some "f")).outcome w
    outcome.1.toOption.map (·.map Json.text) = some ["1", "2", "3"] ∧
      (w.requestsSince outcome.2).map (fun request => request.params.text) =
        ["\x7b'filter': 'f'\x7d", "\x7b'filter': 'f', 'pageToken': 'x'\x7d",
          "\x7b'filter': 'f', 'pageToken': 'y'\x7d"] := by
  decide +kernel

end Client

end Fleet
