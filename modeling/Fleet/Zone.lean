import Fleet.Failure
import Fleet.Text.Segment

/-!
# Zones, regions and locators

A zone is named by its region, a dash and a last part without dashes.  A locator names a zone, a
region or an instance within a project.  The zone of a listed instance is given as a URL, from
which project and zone are read.
-/

namespace Fleet

/-- A zone of a project. -/
structure ZoneLocator where
  project : String
  zone : String
deriving DecidableEq, Repr

/-- A region of a project. -/
structure RegionLocator where
  project : String
  region : String
deriving DecidableEq, Repr

/-- Exactly one instance. -/
structure InstanceLocator where
  project : String
  zone : String
  instanceId : String
deriving DecidableEq, Repr

namespace Zone

/-- The characters before the last dash, if there are some before it and some after it. -/
def regionChars? (zone : List Char) : Option (List Char) :=
  let last := zone.reverse.takeWhile (· != '-')
  let before := (zone.reverse.dropWhile (· != '-')).drop 1
  if last.isEmpty || before.isEmpty then none else some before.reverse

/-- The region that a zone name encodes. -/
def region (zone : String) : Except Failure String :=
  match regionChars? zone.toList with
  | some region => .ok (String.ofList region)
  | none => .error (.malformed (.zoneName zone))

/-- A zone as messages show it. -/
def shown (zone : String) : String :=
  "Zone(" ++ Text.quoted zone ++ ")"

/-- A zone name is a region, a dash and a last part: both parts are not empty and the last one
has no dash. -/
theorem regionChars?_eq_some {zone r : List Char} :
    regionChars? zone = some r ↔
      r ≠ [] ∧ ∃ s, s ≠ [] ∧ '-' ∉ s ∧ zone = r ++ '-' :: s := by
  constructor
  · intro h
    have hsplit := (List.takeWhile_append_dropWhile (p := (· != '-')) (l := zone.reverse)).symm
    have hall := List.all_takeWhile (p := (· != '-')) (l := zone.reverse)
    have hhead := List.head?_dropWhile_not (· != '-') zone.reverse
    unfold regionChars? at h
    simp only at h
    generalize zone.reverse.takeWhile (· != '-') = last at *
    generalize zone.reverse.dropWhile (· != '-') = back at *
    cases back with
    | nil => simp at h
    | cons dash before =>
      simp only [List.drop_succ_cons, List.drop_zero, Bool.or_eq_true, List.isEmpty_iff,
        Option.ite_none_left_eq_some, not_or, Option.some.injEq] at h
      obtain ⟨⟨hl, hb⟩, rfl⟩ := h
      have hdash : dash = '-' := by simpa using hhead
      subst hdash
      refine ⟨by simpa using hb, last.reverse, by simpa using hl, fun hm => ?_, ?_⟩
      · rw [List.all_eq_true] at hall
        simpa using hall '-' (by simpa using hm)
      · simpa using congrArg List.reverse hsplit
  · rintro ⟨hr, s, hs, hdash, rfl⟩
    have hall : ∀ c ∈ s.reverse, (c != '-') = true := by
      intro c hc
      simp only [bne_iff_ne, ne_eq]
      rintro rfl
      exact hdash (by simpa using hc)
    have hrev : (r ++ '-' :: s).reverse = s.reverse ++ '-' :: r.reverse := by simp
    unfold regionChars?
    rw [hrev, List.takeWhile_append_of_pos hall, List.dropWhile_append_of_pos hall]
    simp [hr, hs]

end Zone

/-! ## §2 Locators -/

/-- The zone of an instance. -/
def InstanceLocator.zoneLocator (l : InstanceLocator) : ZoneLocator :=
  ⟨l.project, l.zone⟩

/-- The region of a zone, if its name encodes one. -/
def ZoneLocator.regionLocator (l : ZoneLocator) : Except Failure RegionLocator :=
  (Zone.region l.zone).map (⟨l.project, ·⟩)

/-- The region of an instance, if its zone encodes one. -/
def InstanceLocator.regionLocator (l : InstanceLocator) : Except Failure RegionLocator :=
  l.zoneLocator.regionLocator

/-! ## §3 Zone URLs -/

/-- Project and zone of a zone URL: a host, an API version, a project and a zone, each a segment
behind its fixed word. Further segments may follow the zone. -/
def ZoneLocator.ofUrlChars? (url : List Char) : Option (List Char × List Char) := do
  let rest ← Text.after? "https://" url
  let (_, rest) ← Text.segment? rest
  let rest ← Text.after? "/compute/" rest
  let (_, rest) ← Text.segment? rest
  let rest ← Text.after? "/projects/" rest
  let (project, rest) ← Text.segment? rest
  let rest ← Text.after? "/zones/" rest
  let (zone, _) ← Text.segment? rest
  return (project, zone)

/-- Project and zone of the URL in a reply. A value that is not present counts as the empty
URL; of the others only texts can be read. -/
def ZoneLocator.ofUrl (url : Json) : Except Failure ZoneLocator :=
  match url.orElse (.str "") with
  | .str s =>
    match ofUrlChars? s.toList with
    | some (project, zone) => .ok ⟨String.ofList project, String.ofList zone⟩
    | none => .error (.malformed (.zoneUrl url))
  | _ => .error (.fault (.notText url.kind))

end Fleet
