import Fleet.Cloud.Resource
import Mathlib.Data.List.Basic
import Mathlib.Logic.Function.Basic

/-!
# Zone URLs are read back

The URL of a zone, or of something in it, is made of a host, an API version, a project and a zone,
each a segment behind its fixed word, and perhaps of a path behind the zone.  Exactly these URLs can
be read, and what is read is the project and the zone in them.

## Main definitions

- `Text.IsSegment`, `Text.IsTail`: segments, and what may stand behind them
- `ZoneUrl`: the parts of a zone URL, and `ZoneUrl.text`: the URL made of them

## Main statements

- `Text.segment?_eq_some_iff`: a segment ends where a slash or the end of the text is
- `ZoneLocator.ofUrlChars?_eq_some_iff`: the URLs that can be read
- `ZoneUrl.text_injective`: a URL has its parts in one way only
- `ZoneLocator.zone_urls_read_back`: what is read from a text, and from the URLs of a client
-/

namespace Fleet

namespace Text

/-! ## §1 Segments -/

/-- A segment of a path is not empty and has no slash. -/
structure IsSegment (cs : List Char) : Prop where
  ne_nil : cs ≠ []
  no_slash : '/' ∉ cs

instance (cs : List Char) : Decidable (IsSegment cs) :=
  decidable_of_iff (cs ≠ [] ∧ '/' ∉ cs) ⟨fun ⟨h, h'⟩ => ⟨h, h'⟩, fun ⟨h, h'⟩ => ⟨h, h'⟩⟩

/-- What may stand behind a segment: nothing, or something that begins with a slash. -/
def IsTail (cs : List Char) : Prop :=
  cs = [] ∨ ∃ more, cs = '/' :: more

/-- A segment ends where a slash or the end of the text is. -/
theorem segment?_eq_some_iff {cs front rest : List Char} :
    segment? cs = some (front, rest) ↔ cs = front ++ rest ∧ IsSegment front ∧ IsTail rest := by
  constructor
  · intro h
    obtain ⟨hcs, hnil, hslash⟩ := segment?_eq_some h
    refine ⟨hcs, ⟨hnil, hslash⟩, ?_⟩
    unfold segment? at h
    split at h
    · cases h
    · cases h
      have hhead := List.head?_dropWhile_not (· != '/') cs
      cases hrest : cs.dropWhile (· != '/') with
      | nil => exact Or.inl rfl
      | cons c more =>
        rw [hrest] at hhead
        have hc : c = '/' := by simpa using hhead
        exact Or.inr ⟨more, by rw [hc]⟩
  · rintro ⟨rfl, hfront, hrest⟩
    have hall : ∀ c ∈ front, (c != '/') = true := by
      intro c hc
      have hne : c ≠ '/' := fun h => hfront.no_slash (h ▸ hc)
      simp [hne]
    have htake : (front ++ rest).takeWhile (· != '/') = front := by
      rw [List.takeWhile_append_of_pos hall]
      rcases hrest with rfl | ⟨more, rfl⟩ <;> simp
    have hdrop : (front ++ rest).dropWhile (· != '/') = rest := by
      rw [List.dropWhile_append_of_pos hall]
      rcases hrest with rfl | ⟨more, rfl⟩ <;> simp
    unfold segment?
    rw [htake, hdrop]
    cases front with
    | nil => exact absurd rfl hfront.ne_nil
    | cons c front => rfl

/-- What begins with a segment and goes on behind it does so in one way only. -/
theorem IsSegment.append_inj {front front' rest rest' : List Char} (h : IsSegment front)
    (hrest : IsTail rest) (h' : IsSegment front') (hrest' : IsTail rest')
    (heq : front ++ rest = front' ++ rest') : front = front' ∧ rest = rest' := by
  have hread := segment?_eq_some_iff.mpr ⟨rfl, h, hrest⟩
  rw [heq, segment?_eq_some_iff.mpr ⟨rfl, h', hrest'⟩] at hread
  cases hread
  exact ⟨rfl, rfl⟩

end Text

open Text

/-! ## §2 The parts of a zone URL -/

/-- The parts of a zone URL. -/
structure ZoneUrl where
  host : String
  version : String
  locator : ZoneLocator
  /-- the path behind the zone -/
  tail : String
  host_isSegment : IsSegment host.toList
  version_isSegment : IsSegment version.toList
  project_isSegment : IsSegment locator.project.toList
  zone_isSegment : IsSegment locator.zone.toList
  tail_isTail : IsTail tail.toList

/-- The URL that is made of the parts. -/
def ZoneUrl.text (url : ZoneUrl) : String :=
  "https://" ++ url.host ++ "/compute/" ++ url.version ++ "/projects/" ++ url.locator.project ++
    "/zones/" ++ url.locator.zone ++ url.tail

theorem ZoneUrl.toList_text (url : ZoneUrl) :
    url.text.toList = "https://".toList ++ (url.host.toList ++ ("/compute/".toList ++
      (url.version.toList ++ ("/projects/".toList ++ (url.locator.project.toList ++
        ("/zones/".toList ++ (url.locator.zone.toList ++ url.tail.toList))))))) := by
  unfold text
  simp only [String.toList_append, List.append_assoc]

/-- The words between the segments begin with a slash. -/
theorem isTail_word {word : String} {rest : List Char} (h : word.toList.head? = some '/') :
    IsTail (word.toList ++ rest) := by
  obtain ⟨more, hword⟩ := List.head?_eq_some_iff.mp h
  exact Or.inr ⟨more ++ rest, by rw [hword, List.cons_append]⟩

/-- A URL has its parts in one way only. -/
theorem ZoneUrl.text_injective : Function.Injective ZoneUrl.text := by
  intro url url' h
  have hchars := congrArg String.toList h
  rw [toList_text, toList_text] at hchars
  have hafter := List.append_cancel_left hchars
  -- segment after segment is cut off, and then the word behind it
  obtain ⟨hhost, hafter⟩ := url.host_isSegment.append_inj (isTail_word rfl) url'.host_isSegment
    (isTail_word rfl) hafter
  obtain ⟨hversion, hafter⟩ := url.version_isSegment.append_inj (isTail_word rfl)
    url'.version_isSegment (isTail_word rfl) (List.append_cancel_left hafter)
  obtain ⟨hproject, hafter⟩ := url.project_isSegment.append_inj (isTail_word rfl)
    url'.project_isSegment (isTail_word rfl) (List.append_cancel_left hafter)
  obtain ⟨hzone, htail⟩ := url.zone_isSegment.append_inj url.tail_isTail
    url'.zone_isSegment url'.tail_isTail (List.append_cancel_left hafter)
  obtain ⟨host, version, ⟨project, zone⟩, tail, _, _, _, _, _⟩ := url
  obtain ⟨host', version', ⟨project', zone'⟩, tail', _, _, _, _, _⟩ := url'
  simp only [String.toList_inj] at hhost hversion hproject hzone htail
  subst hhost hversion hproject hzone htail
  rfl

/-! ## §3 Reading -/

namespace ZoneLocator

/-- The URLs that can be read, and what is read. -/
theorem ofUrlChars?_eq_some_iff {url project zone : List Char} :
    ofUrlChars? url = some (project, zone) ↔
      ∃ host version tail, IsSegment host ∧ IsSegment version ∧ IsSegment project ∧
        IsSegment zone ∧ IsTail tail ∧
        url = "https://".toList ++ (host ++ ("/compute/".toList ++ (version ++
          ("/projects/".toList ++ (project ++ ("/zones/".toList ++ (zone ++ tail))))))) := by
  simp only [ofUrlChars?, Option.bind_eq_bind, Option.bind_eq_some_iff, after?_eq_some,
    Prod.exists, segment?_eq_some_iff]
  constructor
  · rintro ⟨_, rfl, host, _, ⟨rfl, hhost, -⟩, _, rfl, version, _, ⟨rfl, hversion, -⟩, _, rfl,
      project, _, ⟨rfl, hproject, -⟩, _, rfl, zone, tail, ⟨rfl, hzone, htail⟩, hread⟩
    cases hread
    exact ⟨host, version, tail, hhost, hversion, hproject, hzone, htail, rfl⟩
  · rintro ⟨host, version, tail, hhost, hversion, hproject, hzone, htail, rfl⟩
    exact ⟨_, rfl, host, _, ⟨rfl, hhost, isTail_word rfl⟩, _, rfl, version, _,
      ⟨rfl, hversion, isTail_word rfl⟩, _, rfl, project, _, ⟨rfl, hproject, isTail_word rfl⟩, _,
      rfl, zone, tail, ⟨rfl, hzone, htail⟩, rfl⟩

/-- A text is read as it is, also the empty one. -/
theorem ofUrl_str (u : String) :
    ofUrl (.str u) =
      match ofUrlChars? u.toList with
      | some (project, zone) => .ok ⟨String.ofList project, String.ofList zone⟩
      | none => .error (.malformed (.zoneUrl (.str u))) := by
  have hpresent : (Json.str u).orElse (.str "") = .str u := by
    unfold Json.orElse Json.truthy
    by_cases hu : u = ""
    · simp [hu]
    · simp [hu]
  cases hread : ofUrlChars? u.toList <;> simp only [ofUrl, hpresent, hread]

/-- A zone URL is read as its project and zone. -/
theorem ofUrl_text (url : ZoneUrl) : ofUrl (.str url.text) = .ok url.locator := by
  have hread : ofUrlChars? url.text.toList =
      some (url.locator.project.toList, url.locator.zone.toList) :=
    ofUrlChars?_eq_some_iff.mpr ⟨_, _, _, url.host_isSegment, url.version_isSegment,
      url.project_isSegment, url.zone_isSegment, url.tail_isTail, url.toList_text⟩
  rw [ofUrl_str, hread]
  simp only [String.ofList_toList]

/-- Nothing else can be read. -/
theorem ofUrl_of_not_text {u : String} (h : ∀ url : ZoneUrl, url.text ≠ u) :
    ofUrl (.str u) = .error (.malformed (.zoneUrl (.str u))) := by
  have hread : ofUrlChars? u.toList = none := by
    rw [Option.eq_none_iff_forall_ne_some]
    rintro ⟨project, zone⟩ hsome
    obtain ⟨host, version, tail, hhost, hversion, hproject, hzone, htail, hu⟩ :=
      ofUrlChars?_eq_some_iff.mp hsome
    -- the parts that were found would make the URL
    let url : ZoneUrl :=
      { host := String.ofList host, version := String.ofList version
        locator := ⟨String.ofList project, String.ofList zone⟩, tail := String.ofList tail
        host_isSegment := by rwa [String.toList_ofList]
        version_isSegment := by rwa [String.toList_ofList]
        project_isSegment := by rwa [String.toList_ofList]
        zone_isSegment := by rwa [String.toList_ofList]
        tail_isTail := by rwa [String.toList_ofList] }
    apply h url
    apply String.toList_inj.mp
    rw [url.toList_text, hu]
    simp only [url, String.toList_ofList]
  rw [ofUrl_str, hread]

theorem ofUrl_eq_ok_iff {u : String} {l : ZoneLocator} :
    ofUrl (.str u) = .ok l ↔ ∃ url : ZoneUrl, url.text = u ∧ url.locator = l := by
  constructor
  · intro h
    by_contra hnone
    have hother : ∀ url : ZoneUrl, url.text ≠ u := by
      rintro url rfl
      rw [ofUrl_text] at h
      exact hnone ⟨url, rfl, Except.ok.inj h⟩
    rw [ofUrl_of_not_text hother] at h
    cases h
  · rintro ⟨url, rfl, rfl⟩
    exact ofUrl_text url

/-! ## §4 The URLs of a client -/

/-- The URL of something in a zone, with the host and the version of the compute API. -/
def computeUrl (l : ZoneLocator) (tail : String) (hproject : IsSegment l.project.toList)
    (hzone : IsSegment l.zone.toList) (htail : IsTail tail.toList) : ZoneUrl where
  host := "compute.googleapis.com"
  version := "v1"
  locator := l
  tail := tail
  host_isSegment := ⟨by decide, by decide⟩
  version_isSegment := ⟨by decide, by decide⟩
  project_isSegment := hproject
  zone_isSegment := hzone
  tail_isTail := htail

/-- A URL that a client makes for something in a zone is read as the zone exactly if project and
zone are segments. -/
theorem ofUrl_computeUrl (timeout : Seconds) (l : ZoneLocator) {tail : String}
    (htail : IsTail tail.toList) :
    ofUrl (.str (({ timeout } : Client).computeUrl (Client.zonePath l ++ tail))) = .ok l ↔
      IsSegment l.project.toList ∧ IsSegment l.zone.toList := by
  constructor
  · intro h
    obtain ⟨url, -, rfl⟩ := ofUrl_eq_ok_iff.mp h
    exact ⟨url.project_isSegment, url.zone_isSegment⟩
  · rintro ⟨hproject, hzone⟩
    refine ofUrl_eq_ok_iff.mpr ⟨computeUrl l tail hproject hzone htail, ?_, rfl⟩
    have hbase : "https://compute.googleapis.com/compute/v1" =
        "https://" ++ "compute.googleapis.com" ++ "/compute/" ++ "v1" := by decide
    have hprojects : "/projects/" = "/" ++ "projects/" := by decide
    simp only [ZoneUrl.text, computeUrl, Client.computeUrl, Client.zonePath]
    rw [hbase, hprojects]
    simp only [String.append_assoc]

/-- What is read from a text: the project and the zone if it is a zone URL, whose parts are then
determined, and nothing if it is none. So a client reads the URLs that it makes for a zone or an
instance, as long as project and zone are segments. -/
theorem zone_urls_read_back :
    (∀ url : ZoneUrl, ofUrl (.str url.text) = .ok url.locator) ∧
    (∀ url url' : ZoneUrl, url.text = url'.text → url = url') ∧
    (∀ u, (∀ url : ZoneUrl, url.text ≠ u) →
      ∃ f, ofUrl (.str u) = .error f ∧ f.class? = some .parse) ∧
    ∀ timeout (l : InstanceLocator),
      let client : Client := { timeout }
      (ofUrl (.str (client.computeUrl (Client.zonePath l.zoneLocator))) = .ok l.zoneLocator ↔
        IsSegment l.project.toList ∧ IsSegment l.zone.toList) ∧
      (ofUrl (.str (client.getInstance l).url) = .ok l.zoneLocator ↔
        IsSegment l.project.toList ∧ IsSegment l.zone.toList) := by
  refine ⟨ofUrl_text, fun url url' h => ZoneUrl.text_injective h, ?_, ?_⟩
  · intro u h
    exact ⟨_, ofUrl_of_not_text h, rfl⟩
  · intro timeout l client
    constructor
    · have hzone := ofUrl_computeUrl timeout l.zoneLocator (show IsTail "".toList from Or.inl rfl)
      rw [String.append_empty] at hzone
      exact hzone
    · have htail : IsTail ("/instances/" ++ l.instanceId).toList := by
        rw [String.toList_append]
        exact isTail_word rfl
      have hinstance := ofUrl_computeUrl timeout l.zoneLocator htail
      rw [← String.append_assoc] at hinstance
      exact hinstance

-- ends of lines are characters like others, and the last word of the path decides nothing
example :
    (ofUrl (.str "https://h/compute/v/projects/p
/zones/z/zones/y")).toOption =
        some ⟨"p
", "z"⟩ ∧
      (ofUrl (.str "https://h/compute/v/projects/p//zones/z")).toOption = none := by
  decide

end ZoneLocator

end Fleet
