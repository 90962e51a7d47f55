import Fleet.Instance.Direct
import Fleet.Proofs.Journal
import Fleet.Proofs.Json

/-!
# Descriptions of instances are read or malformed

The direct API describes an instance as an object, and nearly everything in it may be missing.  What
is made of a value of any shape is decided by its shape: the instance that it describes, or the
failure that it describes none.  A fault of access never comes out of it, since all faults that can
occur are those of a value of another shape.

## Main definitions

- `InstanceInfo.IsDescription`: the values that describe an instance
- `InstanceInfo.described`: the instance that a value describes
- `InstanceInfo.Reads`, `InstanceInfo.ReadsReply`, `InstanceInfo.ReadsAll`: what is made of a value,
  of a reply that should have an instance, and of several values

## Main statements

- `Yields.bind`: conditions and values are put together along the parts of a reader
- `InstanceInfo.parts_yields`: a description is taken apart exactly if it is one
- `DirectApi.descriptions_are_read`: what the direct API makes of what it is answered
-/

namespace Fleet

/-! ## §1 Taking values apart -/

/-- A reader comes back with the value under the condition, and otherwise with a fault of shape. -/
inductive Yields {α : Type} (condition : Prop) (value : α) : Except Fault α → Prop
  | value (met : condition) : Yields condition value (.ok value)
  | fault {fault : Fault} (missed : ¬ condition) (shape : fault.isOfShape = true) :
      Yields condition value (.error fault)

namespace Yields

variable {α β : Type} {p q : Prop} {a : α} {b : β} {x : Except Fault α}

theorem congr (h : Yields p a x) (hp : p ↔ q) : Yields q a x :=
  propext hp ▸ h

/-- The rest of a reader is asked only if its first part has come back with its value. -/
theorem bind {f : α → Except Fault β} (h : Yields p a x) (hf : p → Yields q b (f a)) :
    Yields (p ∧ q) b (x >>= f) := by
  cases h with
  | value hp =>
    have hrest : Yields q b (f a) := hf hp
    exact hrest.congr (and_iff_right hp).symm
  | fault hp hshape => exact .fault (fun hboth => hp hboth.1) hshape

/-- What is left when all has been read. -/
theorem done (a : α) : Yields True a (.ok a) :=
  .value trivial

end Yields

namespace Json

variable {j substitute : Json} {name : String}

/-- Members can be looked for in an object. -/
theorem getD_yields (j : Json) (name : String) (substitute : Json) :
    Yields (j.kind = .obj) ((j.member? name).getD substitute) (j.getD name substitute) := by
  cases j with
  | obj members => exact .value rfl
  | _ => exact .fault (by simp [kind]) (by rfl)

/-- A part is there if it is a member. -/
theorem part_yields (j : Json) (name : String) :
    Yields ((j.member? name).isSome = true) ((j.member? name).getD .null) (j.part name) := by
  cases j with
  | obj members =>
    cases hfound : lookup name members with
    | none =>
      have hmissing : (Json.obj members).part name = .error (.missingKey (.str name)) := by
        simp only [part, hfound]
      rw [hmissing]
      exact .fault (by simp [member?, hfound]) rfl
    | some value =>
      have hmember : (Json.obj members).member? name = some value := hfound
      rw [part_eq_ok_iff.mpr hmember, hmember]
      exact .value rfl
  | _ => exact .fault (by simp [member?]) (by rfl)

/-- A value as a list: the items of an array, the member names of an object, the characters of a
text. -/
def listed : Json → List Json
  | .arr items => items
  | .obj members => members.map fun (key, _) => .str key
  | .str s => letters s
  | _ => []

/-- A value can be gone through if it is an array, a text or an object, and one that is not present
as an empty list. -/
theorem elements_yields (j : Json) :
    Yields (j.truthy = true → j.kind = .arr ∨ j.kind = .str ∨ j.kind = .obj) j.listed
      (j.orElse (.arr [])).elements := by
  cases hj : j.truthy with
  | true =>
    rw [orElse_of_truthy hj]
    cases j with
    | arr | str | obj => exact .value (by simp [kind])
    | _ => exact .fault (by simp [kind]) (by rfl)
  | false =>
    rw [orElse_of_not_truthy hj]
    have hempty : j.listed = [] := by
      cases j with
      | arr items => cases items <;> trivial
      | obj members => cases members <;> trivial
      | str s =>
        obtain rfl : s = "" := by simpa [truthy] using hj
        rfl
      | _ => rfl
    rw [hempty]
    exact .value fun h => absurd h Bool.false_ne_true

/-- In what is missing there is nothing to be found. -/
theorem member?_getD_obj (member : Option Json) (name : String) :
    (member.getD (.obj [])).member? name = member.bind (member? name) := by
  cases member <;> rfl

theorem member?_orElse_obj (j : Json) (name : String) :
    (j.orElse (.obj [])).member? name = j.member? name := by
  cases hj : j.truthy with
  | true => rw [orElse_of_truthy hj]
  | false =>
    rw [orElse_of_not_truthy hj, member?_of_not_truthy hj]
    rfl

/-- What is missing counts as an object. -/
theorem kind_getD_obj (member : Option Json) :
    (member.getD (.obj [])).kind = .obj ↔ ∀ v, member = some v → v.kind = .obj := by
  cases member with
  | none => exact iff_of_true rfl nofun
  | some v => simp

/-- What is not present counts as an object. -/
theorem kind_orElse_obj (j : Json) :
    (j.orElse (.obj [])).kind = .obj ↔ (j.truthy = true → j.kind = .obj) := by
  cases hj : j.truthy with
  | true => simp [orElse_of_truthy hj]
  | false =>
    rw [orElse_of_not_truthy hj]
    exact iff_of_true rfl nofun

/-- Null stands for what is missing in whatever must hold of what is present. -/
theorem forall_present_iff (member : Option Json) (P : Json → Prop) :
    ((member.getD .null).truthy = true → P (member.getD .null)) ↔
      ∀ v, member = some v → v.truthy = true → P v := by
  cases member with
  | none => exact iff_of_true nofun nofun
  | some v => simp

end Json

namespace InstanceInfo

open Json

/-! ## §2 Descriptions -/

/-- A value that describes an instance: an object with an identifier, where what is there of its
interfaces, tags and zone has the shape that is needed. Tags and a zone need not be present. -/
structure IsDescription (data : Json) : Prop where
  kind_eq : data.kind = .obj
  id : (data.member? "id").isSome = true
  interfaces : ∀ v, data.member? "networkInterfaces" = some v → v.kind = .obj
  primary : ∀ v, data.member? "networkInterfaces" = some v →
    ∀ primary, v.member? "primaryV4Address" = some primary → primary.kind = .obj
  tags : ∀ v, data.member? "tags" = some v → v.truthy = true →
    v.kind = .arr ∨ v.kind = .str ∨ v.kind = .obj
  zone : ∀ v, data.member? "zone" = some v → v.truthy = true → v.kind = .obj

/-- The instance that a value describes. -/
def described (data : Json) : InstanceInfo where
  id := (data.member? "id").getD .null
  status := (data.member? "status").getD (.str "PROVISIONING")
  tags := ((data.member? "tags").getD .null).listed
  zoneId := ((data.member? "zone").bind (member? "id")).getD (.str "")
  publicIpv4 := (((data.member? "networkInterfaces").bind (member? "primaryV4Address")).bind
    (member? "address")).getD .null

/-- A description is taken apart exactly if it is one, and otherwise with a fault of shape. -/
theorem parts_yields (data : Json) : Yields (IsDescription data) (described data) (parts data) := by
  let interfaces := (data.member? "networkInterfaces").getD (.obj [])
  let primary := (interfaces.member? "primaryV4Address").getD (.obj [])
  let tags := (data.member? "tags").getD .null
  let zone := (data.member? "zone").getD .null
  have hzoneId : (zone.orElse (.obj [])).member? "id" =
      (data.member? "zone").bind (member? "id") := by
    rw [member?_orElse_obj, member?_getD_null]
  have haddress : primary.member? "address" =
      ((data.member? "networkInterfaces").bind (member? "primaryV4Address")).bind
        (member? "address") := by
    rw [member?_getD_obj, member?_getD_obj]
  apply Yields.congr
  · -- one part after the other, each under the condition of its own
    unfold parts described
    rw [← hzoneId, ← haddress]
    apply (data.getD_yields "networkInterfaces" (.obj [])).bind
    intro _
    apply (interfaces.getD_yields "primaryV4Address" (.obj [])).bind
    intro _
    apply (primary.getD_yields "address" .null).bind
    intro _
    apply (data.part_yields "id").bind
    intro _
    apply (data.getD_yields "status" (.str "PROVISIONING")).bind
    intro _
    apply (data.getD_yields "tags" .null).bind
    intro _
    apply tags.elements_yields.bind
    intro _
    apply (data.getD_yields "zone" .null).bind
    intro _
    apply ((zone.orElse (.obj [])).getD_yields "id" (.str "")).bind
    intro _
    exact Yields.done _
  · have hprimary : primary.kind = .obj ↔ ∀ v, data.member? "networkInterfaces" = some v →
        ∀ primary, v.member? "primaryV4Address" = some primary → primary.kind = .obj := by
      rw [kind_getD_obj, member?_getD_obj]
      cases data.member? "networkInterfaces" <;> simp
    have htags := forall_present_iff (data.member? "tags")
      fun v => v.kind = .arr ∨ v.kind = .str ∨ v.kind = .obj
    have hzone : (zone.orElse (.obj [])).kind = .obj ↔
        ∀ v, data.member? "zone" = some v → v.truthy = true → v.kind = .obj :=
      (kind_orElse_obj zone).trans (forall_present_iff _ fun v => v.kind = .obj)
    rw [kind_getD_obj, hprimary, htags, hzone]
    constructor
    · rintro ⟨hkind, hinterfaces, hprimary, hid, -, -, htags, -, hzone, -⟩
      exact ⟨hkind, hid, hinterfaces, hprimary, htags, hzone⟩
    · rintro ⟨hkind, hid, hinterfaces, hprimary, htags, hzone⟩
      exact ⟨hkind, hinterfaces, hprimary, hid, hkind, hkind, htags, hkind, hzone, trivial⟩

/-! ## §3 What is made of values -/

/-- What is made of a value: the instance that it describes, or the failure that it describes
none. -/
inductive Reads (data : Json) : Except Failure InstanceInfo → Prop
  | described (isDescription : IsDescription data) : Reads data (.ok (described data))
  | malformed (isNone : ¬ IsDescription data) :
      Reads data (.error (.malformed (.instanceData data)))

/-- What is made of a reply that should have an instance. -/
inductive ReadsReply (members : List (String × Json)) : Except Failure InstanceInfo → Prop
  | present {data : Json} {result : Except Failure InstanceInfo}
      (found : lookup "instance" members = some data) (reads : Reads data result) :
      ReadsReply members result
  | absent (missing : lookup "instance" members = none) :
      ReadsReply members (.error (.malformed (.noInstance (.obj members))))

/-- What is made of several values: the instances that they describe, or the failure that the first
one of them that describes none describes none. -/
inductive ReadsAll : List Json → Except Failure (List InstanceInfo) → Prop
  | described {items : List Json} (all : ∀ item ∈ items, IsDescription item) :
      ReadsAll items (.ok (items.map described))
  | malformed {before : List Json} {item : Json} {after : List Json}
      (earlier : ∀ item ∈ before, IsDescription item) (isNone : ¬ IsDescription item) :
      ReadsAll (before ++ item :: after) (.error (.malformed (.instanceData item)))

section

variable {data : Json} {members : List (String × Json)} {items : List Json} {f : Failure}

theorem Reads.class?_eq (h : Reads data (.error f)) : f.class? = some .parse := by
  cases h
  rfl

theorem ReadsReply.class?_eq (h : ReadsReply members (.error f)) : f.class? = some .parse := by
  cases h with
  | present hfound hreads => exact hreads.class?_eq
  | absent hmissing => rfl

theorem ReadsAll.class?_eq (h : ReadsAll items (.error f)) : f.class? = some .parse := by
  cases h
  rfl

end

theorem ofJson_reads (data : Json) : Reads data (ofJson data) := by
  have hparts := parts_yields data
  unfold ofJson
  generalize parts data = x at hparts
  cases hparts with
  | value hdescription => exact .described hdescription
  | fault hnone hshape =>
    simp only [hshape, if_true]
    exact .malformed hnone

theorem ofReply_reads (members : List (String × Json)) :
    ReadsReply members (ofReply (.obj members)) := by
  cases hfound : lookup "instance" members with
  | none =>
    have hreply : ofReply (.obj members) = .error (.malformed (.noInstance (.obj members))) := by
      simp only [ofReply, contains, hfound]
      rfl
    rw [hreply]
    exact .absent hfound
  | some data =>
    have hreply : ofReply (.obj members) = ofJson data := by
      simp only [ofReply, contains, part, hfound]
      rfl
    rw [hreply]
    exact .present hfound (ofJson_reads data)

/-- Several values are read one after the other, up to the first one that describes no instance. -/
theorem mapM_ofJson_reads (items : List Json) : ReadsAll items (items.mapM ofJson) := by
  induction items with
  | nil => exact .described nofun
  | cons item items ih =>
    rw [List.mapM_cons]
    have hitem := ofJson_reads item
    generalize ofJson item = x at hitem
    cases hitem with
    | malformed hnone =>
      have hearlier : ∀ earlier ∈ ([] : List Json), IsDescription earlier := nofun
      exact .malformed hearlier hnone
    | described hdescription =>
      generalize items.mapM ofJson = result at ih
      cases ih with
      | described hall => exact .described (List.forall_mem_cons.mpr ⟨hdescription, hall⟩)
      | malformed hearlier hnone =>
        exact .malformed (List.forall_mem_cons.mpr ⟨hdescription, hearlier⟩) hnone

end InstanceInfo

/-! ## §4 The replies of the direct API -/

namespace DirectApi

open InstanceInfo

variable {w : World}

/-- What comes back with an instance is made of what comes back with the request for it. -/
theorem getInstance_outcome (api : DirectApi) (id : String) (w : World) :
    let asked := (api.request "GET" ("instances/" ++ id)).outcome
      (w.log .info "Requesting instance")
    (api.getInstance id).outcome w = (asked.1.bind ofReply, asked.2) := by
  intro asked
  unfold getInstance
  refine (run_bind_of_ok (t := w.log .info "Requesting instance") rfl).trans ?_
  rcases hasked : asked with ⟨f | reply, v⟩
  · exact run_bind_of_error hasked
  · exact (run_bind_of_ok hasked).trans (run_ofExcept _ _)

/-- What comes back with a list of instances is made of what comes back with the request for it. -/
theorem listing_outcome (api : DirectApi) (message : String) (params : Json)
    {members : List (String × Json)} {items : List Json}
    (hasked : ((api.request "GET" "instances" params).outcome (w.log .info message)).1 =
      .ok (.obj members))
    (hitems : (Json.lookup "instances" members).getD (.arr []) = .arr items) :
    (Call.outcome (do
        Call.log .info message
        listed (← api.request "GET" "instances" params)) w) =
      (items.mapM ofJson,
        ((api.request "GET" "instances" params).outcome (w.log .info message)).2) := by
  generalize hanswer : (api.request "GET" "instances" params).outcome (w.log .info message) =
    asked at hasked
  obtain ⟨answer, v⟩ := asked
  obtain rfl : answer = .ok (.obj members) := hasked
  refine (run_bind_of_ok (t := w.log .info message) rfl).trans ?_
  refine (run_bind_of_ok hanswer).trans ?_
  have hlisted : (Json.obj members).getD "instances" (.arr []) = .ok (.arr items) :=
    congrArg Except.ok hitems
  unfold listed
  rw [hlisted]
  exact run_ofExcept (items.mapM ofJson) v

/-- What comes back with a created instance is made of what its last try comes back with. -/
theorem createInstance_of_key (api : DirectApi) (displayName region publicKey : String)
    (spec : InstanceSpecification) {key : Json} {v : World}
    (hkey : (api.registerKey (validInstanceName displayName) publicKey).outcome w = (.ok key, v)) :
    let name := validInstanceName displayName
    let tried := (api.attempt name (creationBody name region key spec) maxAttempts).outcome v
    (api.createInstance displayName region publicKey spec).outcome w =
      (tried.1.bind ofReply, tried.2) := by
  intro name tried
  unfold createInstance
  refine (run_bind_of_ok hkey).trans ?_
  rcases htried : tried with ⟨f | reply, u⟩
  · exact run_bind_of_error htried
  · exact (run_bind_of_ok htried).trans (run_ofExcept _ _)

/-- What the direct API makes of values of any shape. -/
theorem descriptions_are_read (api : DirectApi) :
    -- a value is read exactly if it describes an instance, and otherwise it is malformed
    (∀ data, ((∃ info, ofJson data = .ok info) ↔ IsDescription data) ∧
      (∀ info, ofJson data = .ok info → info = described data) ∧
      ∀ f, ofJson data = .error f →
        f.class? = some .parse ∧ f.message = "Malformed instance: " ++ data.literal) ∧
    -- an object that is the reply for one instance is read, or it is malformed
    (∀ id w members,
      let asked := (api.request "GET" ("instances/" ++ id)).outcome
        (w.log .info "Requesting instance")
      asked.1 = .ok (.obj members) →
        ∃ result, (api.getInstance id).outcome w = (result, asked.2) ∧
          ReadsReply members result ∧ ∀ f, result = .error f → f.class? = some .parse) ∧
    -- so is an object with which the last try of a creation comes back
    (∀ displayName region publicKey spec w key v members,
      let name := validInstanceName displayName
      let tried := (api.attempt name (creationBody name region key spec) maxAttempts).outcome v
      (api.registerKey name publicKey).outcome w = (.ok key, v) → tried.1 = .ok (.obj members) →
        ∃ result, (api.createInstance displayName region publicKey spec).outcome w =
            (result, tried.2) ∧
          ReadsReply members result ∧ ∀ f, result = .error f → f.class? = some .parse) ∧
    -- of a list either all items are read, each at its place, or it is malformed
    (∀ w members items,
      let asked := (api.request "GET" "instances").outcome (w.log .info "Requesting instances")
      asked.1 = .ok (.obj members) →
      (Json.lookup "instances" members).getD (.arr []) = .arr items →
        ∃ result, api.getInstances.outcome w = (result, asked.2) ∧
          ReadsAll items result ∧ ∀ f, result = .error f → f.class? = some .parse) ∧
    ∀ tag w members items,
      let asked := (api.request "GET" "instances" (.obj [("tag_name", .str tag)])).outcome
        (w.log .info "Requesting instance by tag")
      asked.1 = .ok (.obj members) →
      (Json.lookup "instances" members).getD (.arr []) = .arr items →
        ∃ result, (api.getInstancesByTag tag).outcome w = (result, asked.2) ∧
          ReadsAll items result ∧ ∀ f, result = .error f → f.class? = some .parse := by
  refine ⟨fun data => ?_, ?_, ?_, ?_, ?_⟩
  · have hreads := ofJson_reads data
    generalize ofJson data = result at hreads
    cases hreads with
    | described hdescription =>
      refine ⟨iff_of_true ⟨_, rfl⟩ hdescription, fun info hinfo => ?_, nofun⟩
      exact (Except.ok.inj hinfo).symm
    | malformed hnone =>
      refine ⟨iff_of_false nofun hnone, nofun, fun f hf => ?_⟩
      cases hf
      exact ⟨rfl, rfl⟩
  · intro id w members asked hasked
    refine ⟨ofReply (.obj members), ?_, ofReply_reads members, fun f hf => ?_⟩
    · have houtcome := api.getInstance_outcome id w
      rw [houtcome, hasked]
      rfl
    · exact (hf ▸ ofReply_reads members).class?_eq
  · intro displayName region publicKey spec w key v members name tried hkey htried
    refine ⟨ofReply (.obj members), ?_, ofReply_reads members, fun f hf => ?_⟩
    · have houtcome := api.createInstance_of_key displayName region publicKey spec hkey
      rw [houtcome, htried]
      rfl
    · exact (hf ▸ ofReply_reads members).class?_eq
  · intro w members items asked hasked hitems
    refine ⟨items.mapM ofJson, ?_, mapM_ofJson_reads items, fun f hf => ?_⟩
    · exact api.listing_outcome "Requesting instances" .null hasked hitems
    · exact (hf ▸ mapM_ofJson_reads items).class?_eq
  · intro tag w members items asked hasked hitems
    refine ⟨items.mapM ofJson, ?_, mapM_ofJson_reads items, fun f hf => ?_⟩
    · exact api.listing_outcome "Requesting instance by tag" (.obj [("tag_name", .str tag)]) hasked
        hitems
    · exact (hf ▸ mapM_ofJson_reads items).class?_eq

-- null stands for nothing in some members, and in others it is a value of the wrong shape
example :
    let reads (name : String) := (ofJson (.obj [("id", .str "1"), (name, .null)])).isOk
    ["id", "status", "tags", "zone", "networkInterfaces"].map reads =
      [true, true, true, true, false] := by
  decide

end DirectApi

end Fleet
