import Fleet.Install.Snapshot
import Fleet.Proofs.Text.WrittenForms

/-!
# Fingerprints are read back

A server publishes the fingerprint of its certificate in Base64.  Whoever pins it needs the
fingerprint that was published, so what is written for a text of ASCII characters is read as that
text, and of anything else that may be published either a fingerprint is read that it stands for, or
it is malformed.

## Main definitions

- `Spells`: a text whose characters are the bytes
- `Unfit`: the texts from which no fingerprint can be read

## Main statements

- `ManagementEndpoint.make_of_writes`: a text that stands for bytes is read as their text
- `ManagementEndpoint.fingerprints_read_back`: what is read from a published fingerprint
-/

namespace Fleet

open Text

/-- A text has a character for each byte, and the character has the number of the byte. -/
def Spells (text : String) (bs : List UInt8) : Prop :=
  text.toList.map Char.toNat = bs.map UInt8.toNat

/-- A text from which no fingerprint can be read. -/
inductive Unfit (cs : List Char) : Prop
  /-- it stands for no bytes -/
  | damaged (damaged : Base64.Damaged cs)
  /-- it stands for a byte that is no ASCII character -/
  | beyondAscii {bs : List UInt8} {b : UInt8} (writes : Base64.Writes cs bs) (mem : b ∈ bs)
      (large : 128 ≤ b)

/-- A text from which a fingerprint can be read stands for bytes that are ASCII characters. -/
theorem not_unfit_iff {cs : List Char} :
    ¬ Unfit cs ↔ ∃ bs, Base64.Writes cs bs ∧ ∀ b ∈ bs, b < 128 := by
  constructor
  · intro hfit
    have hwhole : ¬ ∀ bs, ¬ Base64.Writes cs bs :=
      fun hnone => hfit (.damaged (Base64.damaged_iff.mpr hnone))
    obtain ⟨bs, hwrites⟩ := not_forall_not.mp hwhole
    refine ⟨bs, hwrites, fun b hb => ?_⟩
    by_contra hlarge
    exact hfit (.beyondAscii hwrites hb (UInt8.not_lt.mp hlarge))
  · rintro ⟨bs, hwrites, hsmall⟩ hunfit
    cases hunfit with
    | damaged hdamaged => exact Base64.damaged_iff.mp hdamaged bs hwrites
    | beyondAscii hwrites' hb hlarge =>
      obtain rfl := Base64.writes_unique hwrites hwrites'
      exact absurd (hsmall _ hb) (UInt8.not_lt.mpr hlarge)

theorem toNat_ofNat_of_ascii {n : Nat} (h : n < 128) : (Char.ofNat n).toNat = n := by
  have hvalid : n.isValidChar := by
    simp only [Nat.isValidChar]
    omega
  rw [Char.ofNat, dif_pos hvalid]
  rfl

/-- Bytes that are ASCII characters have a text. -/
theorem asciiText?_of_lt {bs : List UInt8} (h : ∀ b ∈ bs, b < 128) :
    ∃ text, asciiText? bs = some text ∧ Spells text bs := by
  have hall : bs.all (· < 128) = true := by simpa using h
  refine ⟨_, if_pos hall, ?_⟩
  rw [Spells, String.toList_ofList, List.map_map]
  refine List.map_congr_left fun b hb => ?_
  exact toNat_ofNat_of_ascii (UInt8.lt_iff_toNat_lt.mp (h b hb))

theorem asciiText?_of_not_lt {bs : List UInt8} {b : UInt8} (hb : b ∈ bs) (h : 128 ≤ b) :
    asciiText? bs = none := by
  refine if_neg fun hall => ?_
  have hsmall := List.all_eq_true.mp hall b hb
  exact absurd (of_decide_eq_true hsmall) (UInt8.not_lt.mpr h)

/-- A text that spells ASCII characters has no others. -/
theorem Spells.ascii {text : String} {bs : List UInt8} (h : Spells text bs)
    (hbs : ∀ b ∈ bs, b < 128) : ∀ c ∈ text.toList, c.toNat < 128 := by
  intro c hc
  have hmem : c.toNat ∈ bs.map UInt8.toNat := h ▸ List.mem_map_of_mem hc
  obtain ⟨b, hb, hnumber⟩ := List.mem_map.mp hmem
  rw [← hnumber]
  exact UInt8.lt_iff_toNat_lt.mp (hbs b hb)

namespace ManagementEndpoint

variable {s : String}

/-- Of a text of ASCII characters the fingerprint is what it stands for. -/
theorem make_of_ascii (apiUrl : Json) (h : ∀ c ∈ s.toList, c.toNat < 128) :
    make apiUrl (.str s) =
      match (Base64.decode? s.toList).bind asciiText? with
      | some fingerprint => .ok ⟨apiUrl, fingerprint⟩
      | none => .error (.malformed (.fingerprint s)) := by
  have hall : s.toList.all (·.toNat < 128) = true := by simpa using h
  exact if_pos hall

/-- A text that stands for bytes is read as their text. -/
theorem make_of_writes (apiUrl : Json) (h : ∀ c ∈ s.toList, c.toNat < 128) {bs : List UInt8}
    (hwrites : Base64.Writes s.toList bs) (hbs : ∀ b ∈ bs, b < 128) :
    ∃ fingerprint, Spells fingerprint bs ∧
      make apiUrl (.str s) = .ok ⟨apiUrl, fingerprint⟩ := by
  obtain ⟨fingerprint, htext, hspells⟩ := asciiText?_of_lt hbs
  refine ⟨fingerprint, hspells, ?_⟩
  rw [make_of_ascii apiUrl h, Base64.decode?_eq_some_iff.mpr hwrites, Option.bind_some, htext]

/-- An unfit text is malformed. -/
theorem make_of_unfit (apiUrl : Json) (h : ∀ c ∈ s.toList, c.toNat < 128)
    (hunfit : Unfit s.toList) :
    make apiUrl (.str s) = .error (.malformed (.fingerprint s)) := by
  have hnone : (Base64.decode? s.toList).bind asciiText? = none := by
    cases hread : Base64.decode? s.toList with
    | none => rfl
    | some bs =>
      have hwrites := Base64.decode?_eq_some_iff.mp hread
      cases hunfit with
      | damaged hdamaged => exact absurd hwrites (Base64.damaged_iff.mp hdamaged bs)
      | beyondAscii hwrites' hb hlarge =>
        obtain rfl := Base64.writes_unique hwrites hwrites'
        exact asciiText?_of_not_lt hb hlarge
  rw [make_of_ascii apiUrl h, hnone]

/-- What is read from a published fingerprint. -/
theorem fingerprints_read_back (apiUrl : Json) :
    -- what is written for ASCII characters is read as their text
    (∀ bs : List UInt8, (∀ b ∈ bs, b < 128) →
      ∃ fingerprint, Spells fingerprint bs ∧
        make apiUrl (.str (String.ofList (Base64.encode bs))) = .ok ⟨apiUrl, fingerprint⟩) ∧
    -- and of any text of ASCII characters
    ∀ s : String, (∀ c ∈ s.toList, c.toNat < 128) →
      -- either nothing is read, and it is malformed
      (Unfit s.toList → ∃ f, make apiUrl (.str s) = .error f ∧ f.class? = some .parse ∧
        f.message = "Malformed certificate fingerprint: " ++ Text.quoted s) ∧
      -- or it is letters and then filling, and what is read is written with the same letters but
      -- for the bits of the last one that belong to no byte
      (¬ Unfit s.toList → ∃ fingerprint bs ns filling,
        make apiUrl (.str s) = .ok ⟨apiUrl, fingerprint⟩ ∧ Spells fingerprint bs ∧
        (∀ c ∈ fingerprint.toList, c.toNat < 128) ∧ (∀ n ∈ ns, n < 64) ∧
        s.toList = ns.map Base64.letter ++ List.replicate filling Base64.pad ∧
        Base64.encode bs = (Base64.cleared ns).map Base64.letter ++
          List.replicate (Base64.missing bs.length) Base64.pad) := by
  refine ⟨fun bs hbs => ?_, fun s hs => ⟨fun hunfit => ?_, fun hfit => ?_⟩⟩
  · have hascii : ∀ c ∈ (String.ofList (Base64.encode bs)).toList, c.toNat < 128 := by
      rw [String.toList_ofList]
      exact fun c => Base64.toNat_lt_of_mem_encode
    have hwrites : Base64.Writes (String.ofList (Base64.encode bs)).toList bs := by
      rw [String.toList_ofList, ← Base64.decode?_eq_some_iff]
      exact Base64.decode?_encode bs
    exact make_of_writes apiUrl hascii hwrites hbs
  · exact ⟨_, make_of_unfit apiUrl hs hunfit, rfl, rfl⟩
  · obtain ⟨bs, hwrites, hbs⟩ := not_unfit_iff.mp hfit
    obtain ⟨fingerprint, hspells, hmake⟩ := make_of_writes apiUrl hs hwrites hbs
    generalize hcs : s.toList = cs at hwrites
    obtain ⟨hns, hvalues, -⟩ := hwrites
    refine ⟨fingerprint, bs, _, _, hmake, hspells, hspells.ascii hbs, hns, rfl, ?_⟩
    rw [hvalues, Base64.encode_eq]

-- a letter with bits that belong to no byte, more filling than is needed, and less
example :
    let read (s : String) := (make .null (.str s)).toOption.map (·.fingerprint)
    ["QQ==", "QR==", "QUJD==", "QQ="].map read = [some "A", some "A", some "ABC", none] := by
  decide

end ManagementEndpoint

end Fleet
