import Fleet.Proofs.Cloud.Rejection
import Fleet.Proofs.Zone

/-!
# Requests tell what they are for

The compute API has one path for each thing that something can be done to: words that say what kind
of thing it is, and between them the parts that name it.  A part may be any segment, also one that
is a word elsewhere.  Still the method and the path tell what is done and to what, so no request
that is made for one thing reaches another.

## Main definitions

- `Errand`: what is done by a call, with the parts that name what it is done to
- `Errand.segments`: the path of an errand, and `Errand.ofSegments?`: the errand of a path
- `Client.CarriesOut`: what is asked of a client to carry out an errand
- `Client.errand?`: the errand that a request tells

## Main statements

- `Errand.ofSegments?_segments`: method and path tell the errand
- `Client.errand?_of_makes`: so does every request that is made for it
- `Client.sent_ne_nil`: whoever gets a token sends something for an errand
- `Client.requests_tell_errands`: requests with the same method and URL are for the same errand
-/

namespace Fleet

open Text World

/-! ## §1 Errands -/

/-- What is done by a call to the compute API, with the parts that name what it is done to. -/
inductive Errand where
  | createInstance (l : ZoneLocator)
  | getInstance (l : InstanceLocator)
  | deleteInstance (l : InstanceLocator)
  | listInstances (project : String)
  | getGuestAttributes (l : InstanceLocator)
  | createAddress (l : RegionLocator)
  | getAddress (l : RegionLocator) (name : String)
  | deleteAddress (l : RegionLocator) (name : String)
  | listFirewalls (project : String)
  | createFirewall (project : String)
  | listZones (project : String)
  | waitZoneOperation (l : ZoneLocator) (name : String)
  | waitRegionOperation (l : RegionLocator) (name : String)
  | waitGlobalOperation (project name : String)
deriving DecidableEq, Repr

namespace Errand

/-- The parts that name what something is done to. -/
def parts : Errand → List String
  | createInstance l => [l.project, l.zone]
  | getInstance l | deleteInstance l | getGuestAttributes l => [l.project, l.zone, l.instanceId]
  | listInstances project | listFirewalls project | createFirewall project | listZones project =>
    [project]
  | createAddress l => [l.project, l.region]
  | getAddress l name | deleteAddress l name => [l.project, l.region, name]
  | waitZoneOperation l name => [l.project, l.zone, name]
  | waitRegionOperation l name => [l.project, l.region, name]
  | waitGlobalOperation project name => [project, name]

/-- All parts are segments. -/
def IsProper (e : Errand) : Prop :=
  ∀ part ∈ e.parts, IsSegment part.toList

instance (e : Errand) : Decidable e.IsProper :=
  inferInstanceAs (Decidable (∀ part ∈ e.parts, IsSegment part.toList))

/-- The method of an errand. -/
def method : Errand → String
  | getInstance _ | listInstances _ | getGuestAttributes _ | getAddress .. | listFirewalls _
  | listZones _ => "GET"
  | deleteInstance _ | deleteAddress .. => "DELETE"
  | createInstance _ | createAddress _ | createFirewall _ | waitZoneOperation ..
  | waitRegionOperation .. | waitGlobalOperation .. => "POST"

/-- The path of an errand, segment by segment. -/
def segments : Errand → List String
  | createInstance l => ["projects", l.project, "zones", l.zone, "instances"]
  | getInstance l | deleteInstance l =>
    ["projects", l.project, "zones", l.zone, "instances", l.instanceId]
  | listInstances project => ["projects", project, "aggregated", "instances"]
  | getGuestAttributes l =>
    ["projects", l.project, "zones", l.zone, "instances", l.instanceId, "getGuestAttributes"]
  | createAddress l => ["projects", l.project, "regions", l.region, "addresses"]
  | getAddress l name | deleteAddress l name =>
    ["projects", l.project, "regions", l.region, "addresses", name]
  | listFirewalls project | createFirewall project => ["projects", project, "global", "firewalls"]
  | listZones project => ["projects", project, "zones"]
  | waitZoneOperation l name =>
    ["projects", l.project, "zones", l.zone, "operations", name, "wait"]
  | waitRegionOperation l name =>
    ["projects", l.project, "regions", l.region, "operations", name, "wait"]
  | waitGlobalOperation project name => ["projects", project, "global", "operations", name, "wait"]

/-- The errand of a method and a path. -/
def ofSegments? : String → List String → Option Errand
  | "POST", ["projects", p, "zones", z, "instances"] => some (.createInstance ⟨p, z⟩)
  | "GET", ["projects", p, "zones", z, "instances", i] => some (.getInstance ⟨p, z, i⟩)
  | "DELETE", ["projects", p, "zones", z, "instances", i] => some (.deleteInstance ⟨p, z, i⟩)
  | "GET", ["projects", p, "aggregated", "instances"] => some (.listInstances p)
  | "GET", ["projects", p, "zones", z, "instances", i, "getGuestAttributes"] =>
    some (.getGuestAttributes ⟨p, z, i⟩)
  | "POST", ["projects", p, "regions", r, "addresses"] => some (.createAddress ⟨p, r⟩)
  | "GET", ["projects", p, "regions", r, "addresses", name] => some (.getAddress ⟨p, r⟩ name)
  | "DELETE", ["projects", p, "regions", r, "addresses", name] =>
    some (.deleteAddress ⟨p, r⟩ name)
  | "GET", ["projects", p, "global", "firewalls"] => some (.listFirewalls p)
  | "POST", ["projects", p, "global", "firewalls"] => some (.createFirewall p)
  | "GET", ["projects", p, "zones"] => some (.listZones p)
  | "POST", ["projects", p, "zones", z, "operations", name, "wait"] =>
    some (.waitZoneOperation ⟨p, z⟩ name)
  | "POST", ["projects", p, "regions", r, "operations", name, "wait"] =>
    some (.waitRegionOperation ⟨p, r⟩ name)
  | "POST", ["projects", p, "global", "operations", name, "wait"] =>
    some (.waitGlobalOperation p name)
  | _, _ => none

/-- Method and path tell the errand, whatever its parts are. -/
theorem ofSegments?_segments (e : Errand) : ofSegments? e.method e.segments = some e := by
  cases e <;> rfl

/-- The words between the parts. -/
def words : List String :=
  ["projects", "zones", "regions", "aggregated", "global", "instances", "addresses", "firewalls",
    "operations", "getGuestAttributes", "wait"]

/-- A path has nothing but words and parts. -/
theorem segments_subset (e : Errand) : e.segments ⊆ words ++ e.parts := by
  cases e <;> simp [segments, words, parts]

theorem IsProper.no_slash {e : Errand} (h : e.IsProper) :
    ∀ segment ∈ e.segments, '/' ∉ segment.toList := by
  have hwords : ∀ word ∈ words, '/' ∉ word.toList := by decide
  intro segment hsegment
  rcases List.mem_append.mp (e.segments_subset hsegment) with hword | hpart
  · exact hwords segment hword
  · exact (h segment hpart).no_slash

/-- The path of an errand as it stands in a URL. -/
def path (e : Errand) : List Char :=
  ['/'].intercalate (e.segments.map String.toList)

/-- The path of a proper errand is cut into its segments. -/
theorem IsProper.splitOn_path {e : Errand} (h : e.IsProper) :
    (e.path.splitOn '/').map String.ofList = e.segments := by
  have hslash : ∀ segment ∈ e.segments.map String.toList, '/' ∉ segment := by
    intro segment hsegment
    obtain ⟨s, hs, rfl⟩ := List.mem_map.mp hsegment
    exact h.no_slash s hs
  have hne : e.segments.map String.toList ≠ [] := by
    cases e <;> exact List.cons_ne_nil _ _
  rw [path, List.splitOn_intercalate '/' hslash hne, List.map_map]
  simp

end Errand

namespace Client

/-! ## §2 What is asked of a client -/

/-- What is asked of a client to carry out an errand. -/
inductive CarriesOut (client : Client) : Use → Errand → Prop
  | createInstance (l : ZoneLocator) (data : Json) :
      CarriesOut client (.request (client.createInstance l data)) (.createInstance l)
  | getInstance (l : InstanceLocator) :
      CarriesOut client (.request (client.getInstance l)) (.getInstance l)
  | deleteInstance (l : InstanceLocator) :
      CarriesOut client (.request (client.deleteInstance l)) (.deleteInstance l)
  | listInstances (more : Nat) (project : String) (selection : Option String) :
      CarriesOut client (.listing more project selection) (.listInstances project)
  | getGuestAttributes (l : InstanceLocator) (space : String) :
      CarriesOut client (.lookUp (client.getGuestAttributes l space)) (.getGuestAttributes l)
  | createAddress (l : RegionLocator) (data : Json) :
      CarriesOut client (.request (client.createAddress l data)) (.createAddress l)
  | getAddress (l : RegionLocator) (name : String) :
      CarriesOut client (.request (client.getAddress l name)) (.getAddress l name)
  | deleteAddress (l : RegionLocator) (name : String) :
      CarriesOut client (.request (client.deleteAddress l name)) (.deleteAddress l name)
  | listFirewalls (project name : String) :
      CarriesOut client (.request (client.listFirewalls project name)) (.listFirewalls project)
  | createFirewall (project : String) (data : Json) :
      CarriesOut client (.request (client.createFirewall project data)) (.createFirewall project)
  | listZones (project : String) :
      CarriesOut client (.request (client.listZones project)) (.listZones project)
  | waitZoneOperation (l : ZoneLocator) (name : String) :
      CarriesOut client (.request (client.waitZoneOperation l name)) (.waitZoneOperation l name)
  | waitRegionOperation (l : RegionLocator) (name : String) :
      CarriesOut client (.request (client.waitRegionOperation l name))
        (.waitRegionOperation l name)
  | waitGlobalOperation (project name : String) :
      CarriesOut client (.request (client.waitGlobalOperation project name))
        (.waitGlobalOperation project name)

/-- The root of all paths. -/
def root (client : Client) : String :=
  client.computeBase ++ "/"

variable {client : Client} {use use' : Use} {e e' : Errand} {w w' : World}

/-- Every request that is made for an errand has its method and its path. -/
theorem place_of_makes (h : client.CarriesOut use e) {requests : List Request}
    (hmakes : client.Makes use requests) :
    ∀ q ∈ requests, q.method = e.method ∧ q.url.toList = client.root.toList ++ e.path := by
  intro q hq
  -- what differs is how the words, the parts and the slashes between them are put together
  cases h
  case listInstances =>
    obtain ⟨tokens, rfl⟩ := hmakes
    obtain ⟨pageToken, -, rfl⟩ := List.mem_map.mp hq
    refine ⟨rfl, ?_⟩
    simp only [Client.listInstances, computeUrl, root, String.toList_append, List.append_assoc]
    rfl
  all_goals
    obtain rfl := List.mem_singleton.mp ((show requests = [_] from hmakes) ▸ hq)
    refine ⟨rfl, ?_⟩
    simp only [Client.createInstance, Client.getInstance, Client.deleteInstance,
      Client.getGuestAttributes, Client.createAddress, Client.getAddress, Client.deleteAddress,
      Client.listFirewalls, Client.createFirewall, Client.firewallsUrl, Client.listZones,
      Client.waitZoneOperation, Client.waitRegionOperation, Client.waitGlobalOperation,
      computeUrl, instancePath, zonePath, regionPath, InstanceLocator.zoneLocator, root,
      Errand.path, Errand.segments, List.map_cons, List.map_nil, List.intercalate_cons_cons,
      List.intercalate_singleton, String.toList_append, List.append_assoc]
    rfl

/-! ## §3 What a request tells -/

/-- The errand that a request tells by its method and its URL. -/
def errand? (client : Client) (q : Request) : Option Errand :=
  (after? client.root q.url.toList).bind fun path =>
    Errand.ofSegments? q.method ((path.splitOn '/').map String.ofList)

/-- Every request that is made for a proper errand tells it. -/
theorem errand?_of_makes (h : client.CarriesOut use e) (hproper : e.IsProper)
    {requests : List Request} (hmakes : client.Makes use requests) :
    ∀ q ∈ requests, client.errand? q = some e := by
  intro q hq
  obtain ⟨hmethod, hurl⟩ := place_of_makes h hmakes q hq
  rw [errand?, after?_eq_some.mpr hurl, Option.bind_some, hproper.splitOn_path, hmethod]
  exact e.ofSegments?_segments

/-- Carrying out some requests adds nothing but them and log lines to the journal. -/
theorem after_extends (client : Client) (requests : List Request) (w : World) :
    w.Extends (fun event => ∃ q ∈ requests, event.Serves (some q)) (client.after w requests) := by
  induction requests generalizing w with
  | nil => exact .refl w
  | cons q requests ih =>
    have hfirst : w.Extends (Event.Serves (some q)) (client.afterRequest w q) :=
      client.execute_extends q w
    refine (hfirst.mono fun event hevent => ⟨q, List.mem_cons_self, hevent⟩).trans ?_
    refine (ih (client.afterRequest w q)).mono ?_
    rintro event ⟨later, hlater, hevent⟩
    exact ⟨later, List.mem_cons_of_mem q hlater, hevent⟩

/-- Whoever gets a token sends the first of some requests. -/
theorem first_is_sent {q : Request} {token : String} (hp : q.headers = .null)
    (htoken : w.tokens.getToken.1 = .ok token) (client : Client) (later : List Request) :
    q ∈ w.requestsSince (client.after w (q :: later)) := by
  have hfirst : w.Extends (Event.Serves (some q)) (client.afterRequest w q) :=
    client.execute_extends q w
  rw [after_cons, requestsSince_trans hfirst (client.after_extends later _),
    requestsSince_afterRequest hp, htoken]
  exact List.mem_cons_self

/-- What is sent when something is asked of a client is made for it. -/
theorem exists_makes_of_sent {q : Request}
    (h : q ∈ w.requestsSince ((client.ask use).outcome w).2) :
    ∃ requests, client.Makes use requests ∧ q ∈ requests := by
  obtain ⟨requests, -, hmakes, hworld⟩ := client.exists_requests w use
  rw [hworld] at h
  obtain ⟨sent, hsent, rfl⟩ := mem_requestsSince.mp h
  obtain ⟨q, hq, hserves⟩ := (client.after_extends requests w).mem_since hsent
  obtain rfl : q = sent.request := Option.some.inj hserves
  exact ⟨requests, hmakes, hq⟩

theorem CarriesOut.isPlain (h : client.CarriesOut use e) : use.IsPlain := by
  cases h with
  | listInstances => trivial
  | _ => rfl

/-- Whoever gets a token sends something to carry out an errand. -/
theorem sent_ne_nil (h : client.CarriesOut use e) {token : String}
    (htoken : w.tokens.getToken.1 = .ok token) :
    w.requestsSince ((client.ask use).outcome w).2 ≠ [] := by
  obtain ⟨requests, hne, hmakes, hworld⟩ := client.exists_requests w use
  obtain ⟨first, later, rfl⟩ := List.exists_cons_of_ne_nil hne
  rw [hworld]
  have hp : first.headers = .null := hmakes.isPlain h.isPlain first List.mem_cons_self
  exact List.ne_nil_of_mem (first_is_sent hp htoken client later)

/-- What is sent to carry out a proper errand tells it, so nothing that is sent for another one has
the same method and the same URL. -/
theorem requests_tell_errands (h : client.CarriesOut use e) (h' : client.CarriesOut use' e')
    (hproper : e.IsProper) (hproper' : e'.IsProper) (w w' : World) :
    let sent := w.requestsSince ((client.ask use).outcome w).2
    let sent' := w'.requestsSince ((client.ask use').outcome w').2
    (∀ token, w.tokens.getToken.1 = .ok token → sent ≠ []) ∧
      (∀ q ∈ sent, client.errand? q = some e) ∧
      ∀ q ∈ sent, ∀ q' ∈ sent', q.method = q'.method ∧ q.url = q'.url ↔ e = e' := by
  intro sent sent'
  have htold : ∀ q ∈ sent, client.errand? q = some e := by
    intro q hq
    obtain ⟨requests, hmakes, hmem⟩ := exists_makes_of_sent hq
    exact errand?_of_makes h hproper hmakes q hmem
  refine ⟨fun token => sent_ne_nil h, htold, fun q hq q' hq' => ?_⟩
  obtain ⟨requests', hmakes', hmem'⟩ := exists_makes_of_sent hq'
  constructor
  · rintro ⟨hmethod, hurl⟩
    have htold' := errand?_of_makes h' hproper' hmakes' q' hmem'
    have hsame : client.errand? q = client.errand? q' := by
      rw [errand?, errand?, hmethod, hurl]
    exact Option.some.inj ((htold q hq).symm.trans (hsame.trans htold'))
  · rintro rfl
    obtain ⟨requests, hmakes, hmem⟩ := exists_makes_of_sent hq
    obtain ⟨hmethod, hurl⟩ := place_of_makes h hmakes q hmem
    obtain ⟨hmethod', hurl'⟩ := place_of_makes h' hmakes' q' hmem'
    exact ⟨hmethod.trans hmethod'.symm, String.toList_inj.mp (hurl.trans hurl'.symm)⟩

-- all parts are words of the path, and the two requests differ in the third segment only
theorem waits_for_namesakes_differ :
    let client : Client := {}
    let w : World := { network := [], tokens := .make (some "token") none none none }
    let zoneWait := client.waitZoneOperation ⟨"projects", "operations"⟩ "wait"
    let regionWait := client.waitRegionOperation ⟨"projects", "operations"⟩ "wait"
    let sent (q : Request) := w.requestsSince ((client.ask (.request q)).outcome w).2
    sent zoneWait = [zoneWait] ∧ sent regionWait = [regionWait] ∧
      client.errand? zoneWait =
        some (.waitZoneOperation ⟨"projects", "operations"⟩ "wait") ∧
      ¬ (zoneWait.method = regionWait.method ∧ zoneWait.url = regionWait.url) := by
  intro client w zoneWait regionWait sent
  have hzone : sent zoneWait = [zoneWait] := rfl
  have hregion : sent regionWait = [regionWait] := rfl
  have hzoneSent : zoneWait ∈ sent zoneWait := by simp [hzone]
  have hregionSent : regionWait ∈ sent regionWait := by simp [hregion]
  have hzoneFor : client.CarriesOut (.request zoneWait) _ := .waitZoneOperation _ _
  have hregionFor : client.CarriesOut (.request regionWait) _ := .waitRegionOperation _ _
  obtain ⟨-, htold, hsame⟩ :=
    requests_tell_errands hzoneFor hregionFor (by decide) (by decide) w w
  refine ⟨hzone, hregion, htold zoneWait hzoneSent, fun h => ?_⟩
  cases (hsame zoneWait hzoneSent regionWait hregionSent).mp h

end Client

end Fleet
