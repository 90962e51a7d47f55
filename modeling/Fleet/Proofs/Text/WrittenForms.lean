import Fleet.Proofs.Text.Base64

/-!
# Which texts are Base64

A text that the reader takes need not be the one that was written for its bytes: the last letter may
have bits set that belong to no byte, and complete groups may be followed by filling.  Apart from
that the bytes determine the text.  A text that the reader refuses is damaged in one of a few ways.

## Main definitions

- `Base64.cleared`: values of six bits without the bits of the last one that belong to no byte
- `Base64.Writes`: the texts that stand for some bytes
- `Base64.Damaged`: the texts that stand for none

## Main statements

- `Base64.sextets_bytes`: values are read as bytes whose values they are, up to those bits
- `Base64.decode?_eq_some_iff`: what is read of a text is what it stands for
- `Base64.damaged_iff`: a text is damaged if it stands for no bytes
-/

namespace Fleet.Text.Base64

/-! ## §1 Values that are read -/

/-- How many low bits of the last of so many values belong to no byte. -/
def spareBits (length : Nat) : Nat :=
  6 * length % 8

/-- The values, where the bits of the last one that belong to no byte are zero. -/
def cleared (ns : List Nat) : List Nat :=
  let unit := Nat.pow 2 (spareBits ns.length)
  ns.dropLast ++ (ns.getLast?.map fun n => n / unit * unit).toList

theorem length_cleared (ns : List Nat) : (cleared ns).length = ns.length := by
  cases ns with
  | nil => rfl
  | cons n ns => simp [cleared, List.getLast?_cons]

/-- A group that is complete has no such bits. -/
theorem cleared_group (a b c d : Nat) (rest : List Nat) :
    cleared (a :: b :: c :: d :: rest) = a :: b :: c :: d :: cleared rest := by
  cases rest with
  | nil => simp [cleared, spareBits]
  | cons n rest =>
    have hspare : spareBits (a :: b :: c :: d :: n :: rest).length =
        spareBits (n :: rest).length := by
      simp only [spareBits, List.length_cons]
      omega
    simp only [cleared, hspare, List.dropLast_cons_cons, List.getLast?_cons_cons, List.cons_append]

/-- Values are read as bytes whose values they are, but for the bits of the last one that belong to
no byte. A value that is left alone makes no byte. -/
theorem sextets_bytes {ns : List Nat} (h : ∀ n ∈ ns, n < 64) (halone : ns.length % 4 ≠ 1) :
    sextets (bytes ns) = cleared ns := by
  fun_induction bytes ns with
  | case1 a b c d rest ih =>
    have halone' : rest.length % 4 ≠ 1 := by
      simp only [List.length_cons] at halone
      omega
    have hrest := ih (fun n hn => h n (by simp [hn])) halone'
    have hbounds : a < 64 ∧ b < 64 ∧ c < 64 ∧ d < 64 := by simp at h; omega
    have hfirst := UInt8.toNat_ofNat_of_lt' (show a * 4 + b / 16 < 256 by omega)
    have hsecond := UInt8.toNat_ofNat_of_lt' (show b % 16 * 16 + c / 4 < 256 by omega)
    have hthird := UInt8.toNat_ofNat_of_lt' (show c % 4 * 64 + d < 256 by omega)
    rw [cleared_group, ← hrest, sextets, hfirst, hsecond, hthird]
    congr
    all_goals omega
  | case2 a b c =>
    have hbounds : a < 64 ∧ b < 64 ∧ c < 64 := by simp at h; omega
    have hfirst := UInt8.toNat_ofNat_of_lt' (show a * 4 + b / 16 < 256 by omega)
    have hsecond := UInt8.toNat_ofNat_of_lt' (show b % 16 * 16 + c / 4 < 256 by omega)
    have hcleared : cleared [a, b, c] = [a, b, c / 4 * 4] := by simp [cleared, spareBits]
    rw [hcleared, sextets, hfirst, hsecond]
    congr
    all_goals omega
  | case3 a b =>
    have hbounds : a < 64 ∧ b < 64 := by simp at h; omega
    have hfirst := UInt8.toNat_ofNat_of_lt' (show a * 4 + b / 16 < 256 by omega)
    have hcleared : cleared [a, b] = [a, b / 16 * 16] := by simp [cleared, spareBits]
    rw [hcleared, sextets, hfirst]
    congr
    all_goals omega
  | case4 ns hfour hthree htwo =>
    match ns with
    | [] => rfl
    | [a] => exact absurd rfl halone
    | [a, b] => exact absurd rfl (htwo a b)
    | [a, b, c] => exact absurd rfl (hthree a b c)
    | a :: b :: c :: d :: rest => exact absurd rfl (hfour a b c d rest)

/-- The bits that belong to no byte are not read. -/
theorem bytes_cleared {ns : List Nat} (h : ∀ n ∈ ns, n < 64) (halone : ns.length % 4 ≠ 1) :
    bytes (cleared ns) = bytes ns := by
  rw [← sextets_bytes h halone, bytes_sextets]

/-! ## §2 Letters that are read -/

/-- A value that is read was written by its letter. -/
theorem letter_of_sextet? {c : Char} {n : Nat} (h : sextet? c = some n) :
    n < 64 ∧ letter n = c := by
  have hc : Char.ofNat c.toNat = c := Char.ofNat_toNat c
  have hupper : 'A' ≤ c ∧ c ≤ 'Z' ↔ 65 ≤ c.toNat ∧ c.toNat ≤ 90 := Iff.rfl
  have hlower : 'a' ≤ c ∧ c ≤ 'z' ↔ 97 ≤ c.toNat ∧ c.toNat ≤ 122 := Iff.rfl
  have hdigit : '0' ≤ c ∧ c ≤ '9' ↔ 48 ≤ c.toNat ∧ c.toNat ≤ 57 := Iff.rfl
  simp only [sextet?, hupper, hlower, hdigit] at h
  split_ifs at h with hrange hrange hrange hplus hslash
  all_goals cases h
  · refine ⟨by omega, ?_⟩
    rw [letter, if_pos (by omega), Nat.add_sub_cancel' hrange.1, hc]
  · refine ⟨by omega, ?_⟩
    rw [letter, if_neg (by omega), if_pos (by omega), Nat.add_sub_cancel,
      Nat.add_sub_cancel' hrange.1, hc]
  · refine ⟨by omega, ?_⟩
    rw [letter, if_neg (by omega), if_neg (by omega), if_pos (by omega), Nat.add_sub_cancel,
      Nat.add_sub_cancel' hrange.1, hc]
  · exact ⟨by decide, hplus.symm⟩
  · exact ⟨by decide, hslash.symm⟩

theorem sextets?_eq_some_iff {cs : List Char} {ns : List Nat} :
    sextets? cs = some ns ↔ (∀ n ∈ ns, n < 64) ∧ cs = ns.map letter := by
  constructor
  · intro h
    fun_induction sextets? cs generalizing ns with
    | case1 =>
      cases h
      exact ⟨nofun, rfl⟩
    | case2 c rest n ns' hrest hletter ih =>
      cases h
      obtain ⟨hn, hc⟩ := letter_of_sextet? hletter
      obtain ⟨hns, hcs⟩ := ih hrest
      exact ⟨List.forall_mem_cons.mpr ⟨hn, hns⟩, by rw [List.map_cons, hc, ← hcs]⟩
    | case3 => cases h
  · rintro ⟨hns, rfl⟩
    exact sextets?_map_letter hns

/-- How much filling so many letters take. -/
theorem paddingFits_iff {letters filling : Nat} :
    paddingFits letters filling = true ↔
      letters % 4 = 0 ∧ (0 < letters ∨ filling = 0) ∨ letters % 4 = 2 ∧ filling = 2 ∨
        letters % 4 = 3 ∧ filling = 1 := by
  have hlast : letters % 4 < 4 := Nat.mod_lt _ (by decide)
  unfold paddingFits
  generalize letters % 4 = last at *
  match last, hlast with
  | 0, _ | 1, _ | 2, _ | 3, _ => simp

/-- A text that is read is letters, and behind them their filling. -/
theorem exists_letters_of_decode? {cs : List Char} {bs : List UInt8} (h : decode? cs = some bs) :
    ∃ ns filling, (∀ n ∈ ns, n < 64) ∧ paddingFits ns.length filling = true ∧ bytes ns = bs ∧
      cs = ns.map letter ++ List.replicate filling pad := by
  simp only [decode?, Bool.and_eq_true, Option.ite_none_right_eq_some, Option.map_eq_some_iff,
    List.all_eq_true, beq_iff_eq] at h
  obtain ⟨⟨hfilling, hfits⟩, ns, hdata, hbytes⟩ := h
  obtain ⟨hns, hletters⟩ := sextets?_eq_some_iff.mp hdata
  refine ⟨ns, (cs.dropWhile (· != pad)).length, hns, ?_, hbytes, ?_⟩
  · rw [hletters, List.length_map] at hfits
    exact hfits
  · rw [← hletters, ← List.eq_replicate_of_mem hfilling, List.takeWhile_append_dropWhile]

/-! ## §3 Texts that stand for bytes -/

/-- A text stands for some bytes if it is letters with the values of the bytes, up to the bits of
the last one that belong to no byte, and behind them the filling that these lack. Behind complete
groups there may be any filling. -/
inductive Writes : List Char → List UInt8 → Prop
  | letters {ns : List Nat} {bs : List UInt8} {filling : Nat} (lt : ∀ n ∈ ns, n < 64)
      (values : cleared ns = sextets bs)
      (filled : filling = missing bs.length ∨ bs ≠ [] ∧ bs.length % 3 = 0) :
      Writes (ns.map letter ++ List.replicate filling pad) bs

theorem length_of_values {ns : List Nat} {bs : List UInt8} (h : cleared ns = sextets bs) :
    ns.length + missing bs.length = 4 * ((bs.length + 2) / 3) := by
  rw [← length_cleared, h, length_sextets]

/-- The filling that the reader takes is the one that the bytes lack. -/
theorem paddingFits_iff_filled {ns : List Nat} {bs : List UInt8} {filling : Nat}
    (h : cleared ns = sextets bs) :
    paddingFits ns.length filling = true ↔
      filling = missing bs.length ∨ bs ≠ [] ∧ bs.length % 3 = 0 := by
  have hlength := length_of_values h
  rw [paddingFits_iff, ne_eq, ← List.length_eq_zero_iff]
  simp only [missing] at hlength ⊢
  omega

/-- What is read of a text is what it stands for. -/
theorem decode?_eq_some_iff {cs : List Char} {bs : List UInt8} :
    decode? cs = some bs ↔ Writes cs bs := by
  constructor
  · intro h
    obtain ⟨ns, filling, hns, hfits, rfl, rfl⟩ := exists_letters_of_decode? h
    have halone : ns.length % 4 ≠ 1 := by
      rw [paddingFits_iff] at hfits
      omega
    have hvalues := (sextets_bytes hns halone).symm
    exact .letters hns hvalues ((paddingFits_iff_filled hvalues).mp hfits)
  · rintro ⟨hns, hvalues, hfilled⟩
    rename_i ns filling
    have halone : ns.length % 4 ≠ 1 := by
      have hlength := length_of_values hvalues
      simp only [missing] at hlength
      omega
    rw [decode?_letters hns, if_pos ((paddingFits_iff_filled hvalues).mpr hfilled),
      ← bytes_cleared hns halone, hvalues, bytes_sextets]

/-- What is written for bytes has ASCII characters only. -/
theorem toNat_lt_of_mem_encode {bs : List UInt8} {c : Char} (h : c ∈ encode bs) :
    c.toNat < 128 := by
  have hletters : ∀ n < 64, (letter n).toNat < 128 := by decide
  rw [encode_eq] at h
  rcases List.mem_append.mp h with hletter | hpad
  · obtain ⟨n, hn, rfl⟩ := List.mem_map.mp hletter
    exact hletters n (lt_of_mem_sextets hn)
  · rw [List.eq_of_mem_replicate hpad]
    decide

/-- A text stands for some bytes at most. -/
theorem writes_unique {cs : List Char} {bs bs' : List UInt8} (h : Writes cs bs)
    (h' : Writes cs bs') : bs = bs' := by
  rw [← decode?_eq_some_iff] at h h'
  exact Option.some.inj (h.symm.trans h')

/-! ## §4 Damaged texts -/

/-- How many characters of a text are data. -/
def dataCount (cs : List Char) : Nat :=
  cs.countP (· != pad)

/-- A text that stands for no bytes. -/
inductive Damaged (cs : List Char) : Prop
  /-- a character is neither a letter nor filling -/
  | foreign {c : Char} (mem : c ∈ cs) (ne_pad : c ≠ pad) (ne_letter : ∀ n < 64, c ≠ letter n)
  /-- data stands behind filling -/
  | resumed {before after : List Char} {c : Char} (split : cs = before ++ pad :: after)
      (mem : c ∈ after) (ne_pad : c ≠ pad)
  /-- the last letter is alone in its group, which is too little for a byte -/
  | alone (data : dataCount cs % 4 = 1)
  /-- the last group is not filled up -/
  | underfilled (data : dataCount cs % 4 ≠ 0) (short : dataCount cs % 4 + cs.count pad < 4)
  /-- the last group is filled up beyond its end -/
  | overfilled (data : dataCount cs % 4 ≠ 0) (long : 4 < dataCount cs % 4 + cs.count pad)
  /-- there is filling without data -/
  | hollow (data : dataCount cs = 0) (filled : 0 < cs.count pad)

variable {ns : List Nat} {filling : Nat}

theorem letter_ne_pad_of_mem (h : ∀ n ∈ ns, n < 64) : ∀ c ∈ ns.map letter, c ≠ pad := by
  intro c hc
  obtain ⟨n, hn, rfl⟩ := List.mem_map.mp hc
  exact letter_ne_pad (h n hn)

theorem dataCount_letters (h : ∀ n ∈ ns, n < 64) (filling : Nat) :
    dataCount (ns.map letter ++ List.replicate filling pad) = ns.length := by
  have hletters : (ns.map letter).countP (· != pad) = (ns.map letter).length := by
    rw [List.countP_eq_length]
    intro c hc
    simpa using letter_ne_pad_of_mem h c hc
  have hfilling : (List.replicate filling pad).countP (· != pad) = 0 := by
    rw [List.countP_eq_zero]
    intro c hc
    simp [List.eq_of_mem_replicate hc]
  rw [dataCount, List.countP_append, hletters, hfilling, List.length_map, Nat.add_zero]

theorem count_pad_letters (h : ∀ n ∈ ns, n < 64) (filling : Nat) :
    (ns.map letter ++ List.replicate filling pad).count pad = filling := by
  have hletters : (ns.map letter).count pad = 0 :=
    List.count_eq_zero.mpr fun hpad => letter_ne_pad_of_mem h pad hpad rfl
  rw [List.count_append, hletters, List.count_replicate_self, Nat.zero_add]

/-- Behind the filling that follows letters there is filling only. -/
theorem eq_pad_of_mem_after (h : ∀ n ∈ ns, n < 64) {before after : List Char} {c : Char}
    (hsplit : ns.map letter ++ List.replicate filling pad = before ++ pad :: after)
    (hc : c ∈ after) : c = pad := by
  rcases List.append_eq_append_iff.mp hsplit with ⟨more, -, hfilling⟩ | ⟨more, hletters, hrest⟩
  · apply List.eq_of_mem_replicate (n := filling)
    rw [hfilling]
    simp [hc]
  · cases more with
    | nil =>
      apply List.eq_of_mem_replicate (n := filling)
      rw [← List.nil_append (List.replicate filling pad), ← hrest]
      exact List.mem_cons_of_mem pad hc
    | cons first more =>
      -- the filling would be among the letters
      obtain ⟨hfirst, -⟩ := List.cons.inj hrest
      have hmem : pad ∈ ns.map letter := by simp [hletters, hfirst]
      exact absurd rfl (letter_ne_pad_of_mem h pad hmem)

/-- A text without foreign characters and without data behind filling is letters, and behind them
filling. -/
theorem exists_letters {cs : List Char}
    (hletter : ∀ c ∈ cs, c ≠ pad → ∃ n < 64, c = letter n)
    (hresumed : ∀ before after, cs = before ++ pad :: after → ∀ c ∈ after, c = pad) :
    ∃ (ns : List Nat) (filling : Nat), (∀ n ∈ ns, n < 64) ∧
      cs = ns.map letter ++ List.replicate filling pad := by
  induction cs with
  | nil => exact ⟨[], 0, nofun, rfl⟩
  | cons c rest ih =>
    by_cases hc : c = pad
    · have hrest : ∀ d ∈ rest, d = pad := hresumed [] rest (by rw [hc, List.nil_append])
      refine ⟨[], rest.length + 1, nofun, ?_⟩
      rw [hc, List.map_nil, List.nil_append, List.replicate_succ, ← List.eq_replicate_of_mem hrest]
    · obtain ⟨n, hn, rfl⟩ := hletter c List.mem_cons_self hc
      obtain ⟨ns, filling, hns, rfl⟩ := ih
        (fun d hd => hletter d (List.mem_cons_of_mem _ hd))
        (fun before after hsplit => hresumed (letter n :: before) after (by rw [hsplit]; rfl))
      exact ⟨n :: ns, filling, List.forall_mem_cons.mpr ⟨hn, hns⟩, rfl⟩

/-- A text is damaged if it stands for no bytes. -/
theorem damaged_iff {cs : List Char} : Damaged cs ↔ ∀ bs, ¬ Writes cs bs := by
  constructor
  · rintro hdamaged bs ⟨hns, hvalues, hfilled⟩
    rename_i ns filling
    have hfits := (paddingFits_iff_filled hvalues).mpr hfilled
    rw [paddingFits_iff] at hfits
    have hdata := dataCount_letters hns filling
    have hfilling := count_pad_letters hns filling
    cases hdamaged with
    | foreign hmem hpad hletter =>
      rcases List.mem_append.mp hmem with hmem | hmem
      · obtain ⟨n, hn, rfl⟩ := List.mem_map.mp hmem
        exact hletter n (hns n hn) rfl
      · exact hpad (List.eq_of_mem_replicate hmem)
    | resumed hsplit hmem hpad => exact hpad (eq_pad_of_mem_after hns hsplit hmem)
    | alone => omega
    | underfilled => omega
    | overfilled => omega
    | hollow => omega
  · intro hnone
    by_contra hwhole
    have hletter : ∀ c ∈ cs, c ≠ pad → ∃ n < 64, c = letter n := by
      intro c hc hpad
      by_contra hforeign
      exact hwhole (.foreign hc hpad fun n hn hletter => hforeign ⟨n, hn, hletter⟩)
    have hresumed : ∀ before after, cs = before ++ pad :: after → ∀ c ∈ after, c = pad := by
      intro before after hsplit c hc
      by_contra hpad
      exact hwhole (.resumed hsplit hc hpad)
    obtain ⟨ns, filling, hns, rfl⟩ := exists_letters hletter hresumed
    have hdata := dataCount_letters hns filling
    have hfilling := count_pad_letters hns filling
    have hfits : paddingFits ns.length filling = true := by
      rw [paddingFits_iff]
      by_contra hmisfit
      have hlast : ns.length % 4 = 1 ∨ (ns.length % 4 ≠ 0 ∧ ns.length % 4 + filling < 4) ∨
          (ns.length % 4 ≠ 0 ∧ 4 < ns.length % 4 + filling) ∨ ns.length = 0 ∧ 0 < filling := by
        omega
      rcases hlast with halone | ⟨hopen, hshort⟩ | ⟨hopen, hlong⟩ | ⟨hempty, hfilled⟩
      · exact hwhole (.alone (hdata ▸ halone))
      · exact hwhole (.underfilled (hdata ▸ hopen) (by rw [hdata, hfilling]; exact hshort))
      · exact hwhole (.overfilled (hdata ▸ hopen) (by rw [hdata, hfilling]; exact hlong))
      · exact hwhole (.hollow (hdata ▸ hempty) (by rw [hfilling]; exact hfilled))
    apply hnone (bytes ns)
    rw [← decode?_eq_some_iff, decode?_letters hns, if_pos hfits]

end Fleet.Text.Base64
