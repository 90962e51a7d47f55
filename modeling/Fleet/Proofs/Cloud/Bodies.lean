import Fleet.Cloud.Client

/-!
# Bodies that are nested too deep

A body is read up to the place where an array or object stands too deep.  How deep that is depends
on what else is under way, so nothing here is about one limit.  A text that stays within the limit
is read as it would be without one; a text that does not is given up on where it goes beyond the
limit, whatever follows there.

## Main definitions

- `Reply.tooDeep?`, `Answer.tooDeep?`: the array or object at which the reading of a body is given
  up on

## Main statements

- `Json.read_eq_or_tooDeep`: the limit makes no other difference
- `Json.read_openings`: a text that opens too many arrays is nested too deep, however it goes on
- `Reply.value?_eq`: what reading a body comes to
-/

namespace Fleet

namespace Json

/-! ## §1 How far the stack grows -/

namespace ReaderState

variable {s next : ReaderState} {t : Token} {frames : List Frame}

theorem length_frames_finish (frames : List Frame) (value : Json) :
    (finish frames value).frames.length = frames.length := by
  cases frames with
  | nil => rfl
  | cons frame outer => cases frame <;> rfl

theorem length_frames_start? (h : start? frames t = some next) :
    next.frames.length ≤ frames.length + 1 := by
  cases t with
  | openArray | openObject =>
    cases h
    exact Nat.le_refl _
  | text | scalar =>
    cases h
    rw [length_frames_finish]
    exact Nat.le_succ _
  | _ => cases h

theorem length_frames_close? (h : close? frames t = some next) :
    next.frames.length ≤ frames.length := by
  unfold close? at h
  split at h
  · split at h
    · cases h
      rw [length_frames_finish]
      exact Nat.le_succ _
    · cases h
  · split at h
    · cases h
      rw [length_frames_finish]
      exact Nat.le_succ _
    · cases h
  · cases h

/-- A token opens one array or object at most. -/
theorem length_frames_step? (h : s.step? t = some next) :
    next.frames.length ≤ s.frames.length + 1 := by
  obtain ⟨frames, expect⟩ := s
  have hclosed {t : Token} (h : close? frames t = some next) :
      next.frames.length ≤ frames.length + 1 :=
    Nat.le_succ_of_le (length_frames_close? h)
  cases expect with
  | value => exact length_frames_start? h
  | itemOrEnd =>
    simp only [step?] at h
    split at h
    · exact hclosed h
    · exact length_frames_start? h
  | name | nameOrEnd =>
    simp only [step?] at h
    split at h
    · exact hclosed h
    · cases h
      exact Nat.le_succ _
    · cases h
  | colon =>
    simp only [step?] at h
    split at h
    · cases h
      exact Nat.le_succ _
    · cases h
  | separator =>
    simp only [step?] at h
    split at h
    · cases h
      exact Nat.le_succ _
    · cases h
      exact Nat.le_succ _
    · exact hclosed h
  | nothing => cases h

variable {depth depth' : Nat}

theorem length_frames_take (h : s.take depth t = .ok next) :
    next.frames.length ≤ s.frames.length + 1 := by
  unfold take at h
  split at h
  · cases h
  · rename_i hstep
    split at h
    · cases h
      exact length_frames_step? hstep
    · split at h
      · cases h
      · cases h
        exact length_frames_step? hstep

/-- A higher limit makes a difference only where the lower one is passed. -/
theorem take_eq_or_tooDeep (hdepth : depth ≤ depth') (s : ReaderState) (t : Token) :
    s.take depth t = s.take depth' t ∨ ∃ c, s.take depth t = .error (.tooDeep c) := by
  unfold take
  split
  · exact .inl rfl
  · split
    · exact .inl rfl
    · split
      · exact .inr ⟨_, rfl⟩
      · rename_i hshallow
        exact .inl (if_neg fun hdeep => hshallow (Nat.le_trans hdepth hdeep)).symm

/-- As long as there is room for one more array or object, the limit is not passed. -/
theorem take_ne_tooDeep (hroom : s.frames.length < depth) (c : Container) :
    s.take depth t ≠ .error (.tooDeep c) := by
  unfold take
  split
  · exact nofun
  · rename_i hstep
    have hlength := length_frames_step? hstep
    split
    · exact nofun
    · rename_i hframes
      rw [hframes, List.length_cons] at hlength
      rw [if_neg (by omega)]
      exact nofun

end ReaderState

/-! ## §2 Reading up to a limit -/

variable {depth depth' : Nat}

theorem readOn_eq_or_tooDeep (hdepth : depth ≤ depth') (rounds : Nat) (s : ReaderState)
    (cs : List Char) :
    readOn depth rounds s cs = readOn depth' rounds s cs ∨
      ∃ c, readOn depth rounds s cs = .error (.tooDeep c) := by
  induction rounds generalizing s cs with
  | zero => cases cs <;> exact .inl rfl
  | succ rounds ih =>
    cases cs with
    | nil => exact .inl rfl
    | cons c rest =>
      simp only [readOn]
      split
      · exact ih s rest
      · split
        · exact .inl rfl
        · rename_i token after _
          rcases s.take_eq_or_tooDeep hdepth token with hsame | ⟨container, hdeep⟩
          · rw [hsame]
            split
            · exact .inl rfl
            · exact ih _ after
          · rw [hdeep]
            exact .inr ⟨container, rfl⟩

/-- The limit is not passed as long as there is room for all characters that follow. -/
theorem readOn_ne_tooDeep {rounds : Nat} {s : ReaderState}
    (hroom : s.frames.length + rounds ≤ depth) (cs : List Char) (container : Container) :
    readOn depth rounds s cs ≠ .error (.tooDeep container) := by
  induction rounds generalizing s cs with
  | zero => cases cs <;> exact nofun
  | succ rounds ih =>
    cases cs with
    | nil => exact nofun
    | cons c rest =>
      simp only [readOn]
      split
      · exact ih (by omega) rest
      · split
        · exact nofun
        · rename_i token after _
          split
          · rename_i reason hfailed
            rintro ⟨⟩
            exact ReaderState.take_ne_tooDeep (by omega) container hfailed
          · rename_i hnext
            have hlength := ReaderState.length_frames_take hnext
            exact ih (by omega) after

/-- The limit decides only whether a text is given up on. -/
theorem read_eq_or_tooDeep (hdepth : depth ≤ depth') (text : String) :
    read depth text = read depth' text ∨ ∃ c, read depth text = .error (.tooDeep c) := by
  unfold read
  simp only
  rcases readOn_eq_or_tooDeep hdepth text.toList.length ⟨[], .value⟩ text.toList with
    hsame | ⟨container, hdeep⟩
  · rw [hsame]
    exact .inl rfl
  · rw [hdeep]
    exact .inr ⟨container, rfl⟩

/-- No text is nested deeper than it is long. -/
theorem read_ne_tooDeep {text : String} (hroom : text.toList.length ≤ depth)
    (container : Container) : read depth text ≠ .error (.tooDeep container) := by
  unfold read
  simp only
  split
  · rename_i reason hfailed
    rintro ⟨⟩
    exact readOn_ne_tooDeep (by simpa using hroom) _ container hfailed
  · split <;> exact nofun

/-- A text that is not given up on is read as it is without a limit. -/
theorem toOption_read (text : String) (hshallow : ∀ c, read depth text ≠ .error (.tooDeep c)) :
    (read depth text).toOption = read? text := by
  unfold read?
  rcases Nat.le_total depth text.toList.length with hdepth | hdepth
  · rcases read_eq_or_tooDeep hdepth text with hsame | ⟨c, hdeep⟩
    · rw [hsame]
    · exact absurd hdeep (hshallow c)
  · rcases read_eq_or_tooDeep hdepth text with hsame | ⟨c, hdeep⟩
    · rw [hsame]
    · exact absurd hdeep (read_ne_tooDeep (Nat.le_refl _) c)

theorem readOn_openings {openings rounds : Nat} {s : ReaderState}
    (hexpect : s.expect = .value ∨ s.expect = .itemOrEnd)
    (hdepth : depth < s.frames.length + openings) (hframes : s.frames.length ≤ depth)
    (hrounds : openings ≤ rounds) (rest : List Char) :
    readOn depth rounds s (List.replicate openings '[' ++ rest) = .error (.tooDeep .array) := by
  induction openings generalizing s rounds with
  | zero => omega
  | succ openings ih =>
    obtain ⟨frames, expect⟩ := s
    obtain ⟨rounds, rfl⟩ := Nat.exists_eq_add_of_le' hrounds
    have hstep : (⟨frames, expect⟩ : ReaderState).step? .openArray =
        some ⟨.array [] :: frames, .itemOrEnd⟩ := by
      rcases hexpect with rfl | rfl <;> rfl
    -- one array more is open, or it is the one that stands too deep
    have htake : (⟨frames, expect⟩ : ReaderState).take depth .openArray =
        if depth ≤ frames.length then .error (.tooDeep .array)
        else .ok ⟨.array [] :: frames, .itemOrEnd⟩ := by
      simp only [ReaderState.take, hstep, Frame.container]
    have htoken : token? '[' (List.replicate openings '[' ++ rest) =
        some (.openArray, List.replicate openings '[' ++ rest) := rfl
    rw [List.replicate_succ, List.cons_append, ← Nat.add_assoc]
    simp only [readOn, show isSpace '[' = false from rfl, Bool.false_eq_true, if_false, htoken,
      htake]
    by_cases hlast : depth ≤ frames.length
    · rw [if_pos hlast]
    · rw [if_neg hlast]
      refine ih (.inr rfl) ?_ ?_ (Nat.le_add_left _ _)
      · simp only [List.length_cons] at hdepth ⊢
        omega
      · simp only [List.length_cons]
        omega

/-- A text that opens too many arrays is given up on, however it goes on. -/
theorem read_openings {openings : Nat} (hdepth : depth < openings) (rest : List Char) :
    read depth (String.ofList (List.replicate openings '[' ++ rest)) =
      .error (.tooDeep .array) := by
  unfold read
  simp only [String.toList_ofList]
  rw [readOn_openings (.inl rfl) (by simpa using hdepth) (Nat.zero_le _) (by simp)]

end Json

/-! ## §3 Bodies -/

/-- The array or object at which the reading of a body is given up on, because it stands too
deep. -/
def Reply.tooDeep? (r : Reply) : Option Json.Container :=
  match Json.read r.depth r.body with
  | .error (.tooDeep container) => some container
  | _ => none

/-- The array or object at which the reading of an answer is given up on. -/
def Answer.tooDeep? : Answer → Option Json.Container
  | .reply r => r.tooDeep?
  | .broken _ => none

/-- Nothing is nested in an empty body. -/
theorem Reply.isEmpty_of_tooDeep? {r : Reply} {container : Json.Container}
    (h : r.tooDeep? = some container) : r.body.isEmpty = false := by
  cases hempty : r.body.isEmpty with
  | false => rfl
  | true =>
    unfold tooDeep? at h
    rw [String.isEmpty_iff.mp hempty] at h
    cases h

/-- A body that is not given up on has the value that it writes, if it writes one. -/
theorem Reply.value?_eq (r : Reply) :
    r.value? =
      match r.tooDeep? with
      | some container => .error (.nestedTooDeep container)
      | none => .ok (Json.read? r.body) := by
  unfold value? tooDeep?
  cases hread : Json.read r.depth r.body with
  | ok value =>
    have hvalue := Json.toOption_read r.body (by rw [hread]; exact nofun)
    rw [hread] at hvalue
    simp only [← hvalue]
    rfl
  | error reason =>
    cases reason with
    | malformed =>
      have hnone := Json.toOption_read r.body (by rw [hread]; exact nofun)
      rw [hread] at hnone
      simp only [← hnone]
      rfl
    | tooDeep container => rfl

/-- A body that opens more arrays than may be open is given up on. -/
theorem Reply.tooDeep?_of_openings {r : Reply} (openings : Nat) (rest : List Char)
    (hbody : r.body = String.ofList (List.replicate openings '[' ++ rest))
    (hdepth : r.depth < openings) : r.tooDeep? = some .array := by
  unfold tooDeep?
  rw [hbody, Json.read_openings hdepth rest]

end Fleet
