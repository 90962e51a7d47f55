import Fleet.Text.Base64
import Mathlib.Data.List.Basic

/-!
# Base64 is read back

Bytes are cut into values of six bits, each value is written as a letter, and what is missing in the
last group of four is filled up.  The reader finds the letters before the filling, takes their
values, and puts the bytes together again.

## Main definitions

- `Base64.sextets`: the six-bit values of a row of bytes
- `Base64.missing`: how many characters its last group lacks

## Main statements

- `Base64.encode_eq`: what is written is the letters of the values, and then the filling
- `Base64.decode?_letters`: what is read of letters and filling
- `Base64.decode?_encode`: what is written is read back
- `Base64.length_encode`: it is written in groups of four
-/

namespace Fleet.Text.Base64

/-! ## §1 Letters -/

/-- A letter is read as the value that it was written for. -/
theorem sextet?_letter {n : Nat} (h : n < 64) : sextet? (letter n) = some n := by
  have hall : ∀ n < 64, sextet? (letter n) = some n := by decide
  exact hall n h

/-- The filling has no value of its own. -/
theorem sextet?_pad : sextet? pad = none := by
  decide

theorem letter_ne_pad {n : Nat} (h : n < 64) : letter n ≠ pad := by
  intro hpad
  have hvalue := sextet?_letter h
  rw [hpad, sextet?_pad] at hvalue
  cases hvalue

theorem sextets?_map_letter {ns : List Nat} (h : ∀ n ∈ ns, n < 64) :
    sextets? (ns.map letter) = some ns := by
  induction ns with
  | nil => rfl
  | cons n ns ih =>
    obtain ⟨hn, hns⟩ := List.forall_mem_cons.mp h
    simp [sextets?, sextet?_letter hn, ih hns]

/-! ## §2 Bytes and their values -/

/-- The six-bit values of a row of bytes; the bits that a last value lacks are zero. -/
def sextets : List UInt8 → List Nat
  | [] => []
  | [a] => [a.toNat / 4, a.toNat % 4 * 16]
  | [a, b] => [a.toNat / 4, a.toNat % 4 * 16 + b.toNat / 16, b.toNat % 16 * 4]
  | a :: b :: c :: rest =>
    a.toNat / 4 :: (a.toNat % 4 * 16 + b.toNat / 16) :: (b.toNat % 16 * 4 + c.toNat / 64) ::
      c.toNat % 64 :: sextets rest

/-- How many characters the last group of so many bytes lacks. -/
def missing (length : Nat) : Nat :=
  (3 - length % 3) % 3

theorem lt_of_mem_sextets {bs : List UInt8} {n : Nat} (h : n ∈ sextets bs) : n < 64 := by
  fun_induction sextets bs with
  | case1 => cases h
  | case2 a =>
    have ha := a.toNat_lt
    simp only [List.mem_cons, List.not_mem_nil, or_false] at h
    omega
  | case3 a b =>
    have ha := a.toNat_lt
    have hb := b.toNat_lt
    simp only [List.mem_cons, List.not_mem_nil, or_false] at h
    omega
  | case4 a b c rest ih =>
    have ha := a.toNat_lt
    have hb := b.toNat_lt
    have hc := c.toNat_lt
    simp only [List.mem_cons] at h
    rcases h with rfl | rfl | rfl | rfl | h
    all_goals first | exact ih h | omega

/-- The values fill whole groups of four, but for what the last one lacks. -/
theorem length_sextets (bs : List UInt8) :
    (sextets bs).length + missing bs.length = 4 * ((bs.length + 2) / 3) := by
  fun_induction sextets bs with
  | case4 a b c rest ih =>
    simp only [missing, List.length_cons] at ih ⊢
    omega
  | _ => simp [missing]

/-- A byte is put together from two parts of it. -/
theorem ofNat_eq {byte : UInt8} {n : Nat} (h : n = byte.toNat) : UInt8.ofNat n = byte := by
  rw [h, UInt8.ofNat_toNat]

theorem bytes_sextets (bs : List UInt8) : bytes (sextets bs) = bs := by
  fun_induction sextets bs with
  | case1 => rfl
  | case2 a =>
    have ha : UInt8.ofNat (a.toNat / 4 * 4 + a.toNat % 4 * 16 / 16) = a := ofNat_eq (by omega)
    simp only [bytes, ha]
  | case3 a b =>
    have hb' := b.toNat_lt
    have ha : UInt8.ofNat (a.toNat / 4 * 4 + (a.toNat % 4 * 16 + b.toNat / 16) / 16) = a :=
      ofNat_eq (by omega)
    have hb : UInt8.ofNat
        ((a.toNat % 4 * 16 + b.toNat / 16) % 16 * 16 + b.toNat % 16 * 4 / 4) = b :=
      ofNat_eq (by omega)
    simp only [bytes, ha, hb]
  | case4 a b c rest ih =>
    have hb' := b.toNat_lt
    have hc' := c.toNat_lt
    have ha : UInt8.ofNat (a.toNat / 4 * 4 + (a.toNat % 4 * 16 + b.toNat / 16) / 16) = a :=
      ofNat_eq (by omega)
    have hb : UInt8.ofNat ((a.toNat % 4 * 16 + b.toNat / 16) % 16 * 16 +
        (b.toNat % 16 * 4 + c.toNat / 64) / 4) = b := ofNat_eq (by omega)
    have hc : UInt8.ofNat ((b.toNat % 16 * 4 + c.toNat / 64) % 4 * 64 + c.toNat % 64) = c :=
      ofNat_eq (by omega)
    simp only [bytes, ha, hb, hc, ih]

/-! ## §3 Writing and reading -/

/-- What is written is the letters of the values, and then the filling. -/
theorem encode_eq (bs : List UInt8) :
    encode bs = (sextets bs).map letter ++ List.replicate (missing bs.length) pad := by
  fun_induction sextets bs with
  | case4 a b c rest ih =>
    have hmissing : missing (a :: b :: c :: rest).length = missing rest.length := by
      simp only [missing, List.length_cons]
      omega
    simp only [encode, ih, hmissing, List.map_cons, List.cons_append]
  | _ => rfl

/-- Every character of it is a letter or belongs to the filling. -/
theorem of_mem_encode {bs : List UInt8} {c : Char} (h : c ∈ encode bs) :
    c = pad ∨ (sextet? c).isSome = true := by
  rw [encode_eq] at h
  rcases List.mem_append.mp h with hletter | hpad
  · obtain ⟨n, hn, rfl⟩ := List.mem_map.mp hletter
    rw [sextet?_letter (lt_of_mem_sextets hn)]
    exact Or.inr rfl
  · exact Or.inl (List.eq_of_mem_replicate hpad)

/-- It is written in groups of four. -/
theorem length_encode (bs : List UInt8) : (encode bs).length = 4 * ((bs.length + 2) / 3) := by
  rw [encode_eq, List.length_append, List.length_map, List.length_replicate, length_sextets]

/-- The filling is as long as a reader expects it after so many letters. -/
theorem paddingFits_sextets (bs : List UInt8) :
    paddingFits (sextets bs).length (missing bs.length) = true := by
  have hlength := length_sextets bs
  have hmissing : missing bs.length < 3 := Nat.mod_lt _ (by decide)
  have hcases : (missing bs.length = 0 ∧ (sextets bs).length % 4 = 0) ∨
      (missing bs.length = 1 ∧ (sextets bs).length % 4 = 3) ∨
      (missing bs.length = 2 ∧ (sextets bs).length % 4 = 2) := by omega
  rcases hcases with ⟨hpad, hletters⟩ | ⟨hpad, hletters⟩ | ⟨hpad, hletters⟩
  all_goals simp [paddingFits, hpad, hletters]

/-- Of letters and filling the letters are read, if the filling is as long as they need it. -/
theorem decode?_letters {ns : List Nat} (h : ∀ n ∈ ns, n < 64) (filling : Nat) :
    decode? (ns.map letter ++ List.replicate filling pad) =
      if paddingFits ns.length filling then some (bytes ns) else none := by
  have hletters : ∀ c ∈ ns.map letter, (c != pad) = true := by
    intro c hc
    obtain ⟨n, hn, rfl⟩ := List.mem_map.mp hc
    simp [letter_ne_pad (h n hn)]
  -- the letters end where the filling begins
  have htake : (ns.map letter ++ List.replicate filling pad).takeWhile (· != pad) =
      ns.map letter := by
    rw [List.takeWhile_append_of_pos hletters]
    simp
  have hdrop : (ns.map letter ++ List.replicate filling pad).dropWhile (· != pad) =
      List.replicate filling pad := by
    rw [List.dropWhile_append_of_pos hletters]
    simp
  simp only [decode?, htake, hdrop, List.length_map, List.length_replicate,
    sextets?_map_letter h, Option.map_some]
  simp

/-- What is written is read back. -/
theorem decode?_encode (bs : List UInt8) : decode? (encode bs) = some bs := by
  rw [encode_eq, decode?_letters fun n => lt_of_mem_sextets, paddingFits_sextets, if_pos rfl,
    bytes_sextets]

-- a last group of one byte, of two and of three
example : [[102], [102, 111], [102, 111, 111]].map encode =
    ["Zg==".toList, "Zm8=".toList, "Zm9v".toList] := by
  decide

end Fleet.Text.Base64
