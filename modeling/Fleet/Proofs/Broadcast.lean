import Mathlib.Data.List.Basic
import Mathlib.Tactic.Common
import Fleet.Broadcast
import Fleet.Fault

/-!
# What the watchers of a broadcast see

Values are set, the stream is closed, and any number of watchers look at it, each at its own pace
and in any order.  Values may come again, so what a watcher has seen is told by versions: every
value that it is shown goes with the version that the stream had at that look.

## Main definitions

- `Audience`, `Audience.step`: a stream with its watchers, and one operation on them
- `Audience.looks`, `Audience.sightings`: what a watcher is shown in a course of operations
- `Audience.held`: the values that a stream comes to hold, by version

## Main statements

- `Audience.Recalls.step`: what a watcher has seen is kept by its own position
- `Audience.looks_of_closed`: what is left to be seen of a closed stream
- `Audience.broadcast_law`: the law of the broadcast
-/

namespace Fleet

/-- A stream with its watchers, in the order in which they came. -/
structure Audience (α : Type) where
  stream : ValueStream α
  watchers : List Watcher := []

namespace Audience

variable {α : Type}

/-! ## §1 Operations -/

/-- An operation on a stream, or by one of its watchers. -/
inductive Op (α : Type) where
  | set (value : α)
  | close
  | get
  /-- somebody begins to watch -/
  | watch
  /-- the watcher of the given number looks at the stream -/
  | next (watcher : Nat)

/-- What an operation comes back with. -/
inductive Reply (α : Type) where
  | done
  | current (value : α)
  | watching (number : Nat)
  | look (look : Look α)
  | failed (f : Fault)
  /-- there is no watcher of the given number -/
  | absent

/-- One operation. A stream that is closed has a fault for being set. -/
def step (a : Audience α) : Op α → Reply α × Audience α
  | .set value =>
    match a.stream.set? value with
    | some stream => (.done, { a with stream })
    | none => (.failed .closedStream, a)
  | .close => (.done, { a with stream := a.stream.close })
  | .get => (.current a.stream.value, a)
  | .watch => (.watching a.watchers.length, { a with watchers := a.watchers ++ [.start] })
  | .next i =>
    match a.watchers[i]? with
    | some w =>
      let (look, w) := w.next a.stream
      (.look look, { a with watchers := a.watchers.set i w })
    | none => (.absent, a)

/-- A stream that nobody watches yet. -/
def opened (initial : α) : Audience α where
  stream := { value := initial }

/-- The stream and its watchers after some operations. -/
def after (a : Audience α) (ops : List (Op α)) : Audience α :=
  ops.foldl (fun a op => (a.step op).2) a

@[simp] theorem after_nil (a : Audience α) : a.after [] = a := rfl

@[simp] theorem after_cons (a : Audience α) (op : Op α) (ops : List (Op α)) :
    a.after (op :: ops) = (a.step op).2.after ops := rfl

/-- Whether an operation is a look of the given watcher. -/
def Op.isNext (i : Nat) : Op α → Bool
  | .next j => j == i
  | _ => false

/-- The look of the given watcher that an operation is, with the version of the stream. -/
def look? (a : Audience α) (i : Nat) (op : Op α) : Option (Nat × Look α) :=
  match op, (a.step op).1 with
  | .next j, .look look => if j = i then some (a.stream.version, look) else none
  | _, _ => none

/-- The looks of a watcher in a course of operations. -/
def looks (a : Audience α) (i : Nat) : List (Op α) → List (Nat × Look α)
  | [] => []
  | op :: ops => (a.look? i op).toList ++ (a.step op).2.looks i ops

/-- The version and the value that a look shows, if it shows one. -/
def sighting? : Nat × Look α → Option (Nat × α)
  | (version, .value x) => some (version, x)
  | _ => none

/-- The values that a watcher is shown, each with its version. -/
def sightings (a : Audience α) (i : Nat) (ops : List (Op α)) : List (Nat × α) :=
  (a.looks i ops).filterMap sighting?

/-- The values that a stream comes to hold, from the current one on: each value that is set on the
open stream makes a new version. -/
def held (s : ValueStream α) : List (Op α) → List α
  | [] => [s.value]
  | .set value :: ops =>
    match s.set? value with
    | some t => s.value :: held t ops
    | none => held s ops
  | .close :: ops => held s.close ops
  | _ :: ops => held s ops

/-! ## §2 The stream itself -/

theorem held_zero (s : ValueStream α) (ops : List (Op α)) : (held s ops)[0]? = some s.value := by
  induction ops generalizing s with
  | nil => rfl
  | cons op ops ih =>
    cases op with
    | set value =>
      simp only [held]
      split
      · rfl
      · exact ih s
    | close => exact ih s.close
    | get | watch | next => exact ih s

/-- The values of a course are those of its first operation and of the others: a value that is set
on the open stream puts one in front. -/
theorem held_cons (a : Audience α) (op : Op α) (ops : List (Op α)) :
    ((a.step op).2.stream.version = a.stream.version ∧
        held a.stream (op :: ops) = held (a.step op).2.stream ops) ∨
      ((a.step op).2.stream.version = a.stream.version + 1 ∧
        held a.stream (op :: ops) = a.stream.value :: held (a.step op).2.stream ops) := by
  cases op with
  | set value =>
    cases hc : a.stream.closed with
    | true => simp [step, held, ValueStream.set?_of_closed hc]
    | false => simp [step, held, ValueStream.set?_of_open hc]
  | close => exact Or.inl ⟨rfl, rfl⟩
  | get | watch => exact Or.inl ⟨rfl, rfl⟩
  | next i =>
    simp only [step, held]
    split <;> exact Or.inl ⟨rfl, rfl⟩

/-- The last of the values held is the current one. -/
theorem held_after (a : Audience α) (ops : List (Op α)) :
    ∃ later, (a.after ops).stream.version = a.stream.version + later ∧
      (held a.stream ops).length = later + 1 ∧
      (held a.stream ops)[later]? = some (a.after ops).stream.value := by
  -- along the operations: the first one keeps the version or makes the next one
  induction ops generalizing a with
  | nil => exact ⟨0, rfl, rfl, rfl⟩
  | cons op ops ih =>
    obtain ⟨later, hversion, hlength, hvalue⟩ := ih (a.step op).2
    rw [after_cons, hversion]
    rcases held_cons a op ops with ⟨hsame, hheld⟩ | ⟨hnext, hheld⟩
    · rw [hsame, hheld]
      exact ⟨later, rfl, hlength, hvalue⟩
    · -- the new value stands behind the one that it replaces
      rw [hnext, hheld]
      refine ⟨later + 1, by omega, by simp [hlength], ?_⟩
      rw [List.getElem?_cons_succ]
      exact hvalue

/-- Whatever is tried on a closed stream, it stays as it is. -/
theorem stream_step_of_closed {a : Audience α} (h : a.stream.closed = true) (op : Op α) :
    (a.step op).2.stream = a.stream := by
  cases op with
  | set value => simp [step, ValueStream.set?_of_closed h]
  | close =>
    show a.stream.close = a.stream
    rw [ValueStream.close, ← h]
  | get | watch => rfl
  | next i =>
    simp only [step]
    split <;> rfl

theorem stream_after_of_closed {a : Audience α} (h : a.stream.closed = true)
    (ops : List (Op α)) : (a.after ops).stream = a.stream := by
  induction ops generalizing a with
  | nil => rfl
  | cons op ops ih =>
    have hstep := stream_step_of_closed h op
    rw [after_cons, ih (by rw [hstep]; exact h), hstep]

/-! ## §3 What a watcher has seen -/

end Audience

/-- The position of a watcher that has been shown the given versions of a stream. -/
def Watcher.Fits {α : Type} (s : ValueStream α) (versions : List Nat) : Watcher → Prop
  | .following last => versions.getLast? = last
  | .finishing | .ended => s.closed = true ∧ versions.getLast? = some s.version

namespace Watcher.Fits

variable {α : Type} {s : ValueStream α} {versions : List Nat} {w : Watcher}

/-- A watcher that has seen the current version is shown nothing. -/
theorem next_of_seen (h : w.Fits s versions) (hseen : versions.getLast? = some s.version) :
    w.next s = if s.closed then (.finished, .ended) else (.blocked, w) := by
  cases w with
  | following last =>
    obtain rfl : last = some s.version := h.symm.trans hseen
    simp [Watcher.next]
  | finishing | ended => simp [Watcher.next, h.1]

/-- A watcher that has not seen the current version is shown the current value. -/
theorem next_of_unseen (h : w.Fits s versions) (hunseen : versions.getLast? ≠ some s.version) :
    w.next s = (.value s.value, if s.closed then .finishing else .following (some s.version)) := by
  cases w with
  | following last =>
    have hlast : last ≠ some s.version := by
      rw [← show versions.getLast? = last from h]
      exact hunseen
    simp [Watcher.next, hlast]
  | finishing | ended => exact absurd h.2 hunseen

/-- The position after a look at which the current version was not new. -/
theorem of_seen (h : w.Fits s versions) (hseen : versions.getLast? = some s.version) :
    (w.next s).2.Fits s versions := by
  rw [h.next_of_seen hseen]
  split
  · rename_i hclosed
    exact ⟨hclosed, hseen⟩
  · exact h

/-- The position after a look at which the current version was new. -/
theorem of_unseen (h : w.Fits s versions) (hunseen : versions.getLast? ≠ some s.version) :
    (w.next s).2.Fits s (versions ++ [s.version]) := by
  have hlast : (versions ++ [s.version]).getLast? = some s.version := List.getLast?_concat ..
  rw [h.next_of_unseen hunseen]
  split
  · rename_i hclosed
    exact ⟨hclosed, hlast⟩
  · exact hlast

/-- Setting a value on an open stream leaves every position as it is. -/
theorem set (h : w.Fits s versions) (hopen : s.closed = false) (value : α) :
    w.Fits { s with value, version := s.version + 1 } versions := by
  cases w with
  | following last => exact h
  | finishing | ended =>
    -- these positions are taken on a closed stream only
    have hclosed : s.closed = true := h.1
    rw [hopen] at hclosed
    cases hclosed

theorem close (h : w.Fits s versions) : w.Fits s.close versions := by
  cases w with
  | following last => exact h
  | finishing | ended => exact ⟨rfl, h.2⟩

end Watcher.Fits

namespace Audience

variable {α : Type}

/-- The given versions are those that the watcher of the given number has been shown: they
increase up to the current one at most, and the position of the watcher is the one behind them. -/
structure Recalls (a : Audience α) (i : Nat) (versions : List Nat) : Prop where
  increasing : versions.Pairwise (· < ·)
  le_version : ∀ n ∈ versions, n ≤ a.stream.version
  unborn : a.watchers[i]? = none → versions = []
  fits : ∀ w, a.watchers[i]? = some w → w.Fits a.stream versions

namespace Recalls

variable {a : Audience α} {i : Nat} {versions : List Nat}

/-- The current version has been shown exactly if it was the last one. -/
theorem mem_iff (h : a.Recalls i versions) :
    a.stream.version ∈ versions ↔ versions.getLast? = some a.stream.version := by
  constructor
  · intro hmem
    rcases List.eq_nil_or_concat versions with rfl | ⟨before, last, rfl⟩
    · cases hmem
    · -- what is shown before the last version is below it
      rw [List.concat_eq_append] at h hmem ⊢
      have hle : last ≤ a.stream.version := h.le_version last (by simp)
      have hlt : ∀ n ∈ before, n < last := fun n hn =>
        (List.pairwise_append.mp h.increasing).2.2 n hn last (by simp)
      rw [List.getLast?_concat]
      rcases List.mem_append.mp hmem with hmem | hmem
      · have := hlt _ hmem
        omega
      · rw [List.mem_singleton.mp hmem]
  · exact List.mem_of_getLast?

/-- The versions shown with a new one added. -/
theorem increasing_concat (h : a.Recalls i versions)
    (hunseen : a.stream.version ∉ versions) :
    (versions ++ [a.stream.version]).Pairwise (· < ·) := by
  refine List.pairwise_append.mpr ⟨h.increasing, List.pairwise_singleton _ _, ?_⟩
  intro n hn m hm
  obtain rfl : m = a.stream.version := List.mem_singleton.mp hm
  have hle : n ≤ a.stream.version := h.le_version n hn
  have hne : n ≠ a.stream.version := by
    rintro rfl
    exact hunseen hn
  omega

end Recalls

/-- What an operation adds to the versions that a watcher has been shown. -/
def shown (a : Audience α) (i : Nat) (op : Op α) : List Nat :=
  ((a.look? i op).toList.filterMap sighting?).map Prod.fst

/-- A watcher is shown the current version if that is new to it, and no other operation shows it
anything. So what it has been shown is always told by its own position. -/
theorem Recalls.step {a : Audience α} {i : Nat} {versions : List Nat}
    (h : a.Recalls i versions) (op : Op α) :
    (a.step op).2.Recalls i (versions ++ a.shown i op) := by
  cases op with
  | set value =>
    -- setting a value shows nothing, and what has been shown stays below the new version
    have hshown : versions ++ a.shown i (.set value) = versions := List.append_nil _
    rw [hshown]
    cases hc : a.stream.closed with
    | true => simpa [Audience.step, ValueStream.set?_of_closed hc] using h
    | false =>
      simp only [Audience.step, ValueStream.set?_of_open hc]
      refine ⟨h.increasing, fun n hn => ?_, h.unborn, fun w hw => (h.fits w hw).set hc value⟩
      exact Nat.le_succ_of_le (h.le_version n hn)
  | close =>
    have hshown : versions ++ a.shown i .close = versions := List.append_nil _
    rw [hshown]
    exact ⟨h.increasing, h.le_version, h.unborn, fun w hw => (h.fits w hw).close⟩
  | get =>
    have hshown : versions ++ a.shown i .get = versions := List.append_nil _
    rw [hshown]
    exact h
  | watch =>
    have hshown : versions ++ a.shown i .watch = versions := List.append_nil _
    rw [hshown]
    refine ⟨h.increasing, h.le_version, fun hnone => ?_, fun w hw => ?_⟩
    · apply h.unborn
      simp only [Audience.step, List.getElem?_eq_none_iff, List.length_append] at hnone ⊢
      omega
    · simp only [Audience.step, List.getElem?_append] at hw
      split at hw
      · exact h.fits w hw
      · -- the new watcher has not been shown anything
        rename_i hi
        rw [h.unborn (by simpa using hi)]
        rw [List.getElem?_singleton] at hw
        split at hw <;> cases hw
        rfl
  | next j =>
    cases hj : a.watchers[j]? with
    | none =>
      have hshown : versions ++ a.shown i (.next j) = versions := by
        simp [shown, look?, Audience.step, hj]
      rw [hshown]
      simpa [Audience.step, hj] using h
    | some w =>
      by_cases hij : j = i
      · subst hij
        have hfits : w.Fits a.stream versions := h.fits w hj
        have hlt : j < a.watchers.length := (List.getElem?_eq_some_iff.mp hj).1
        by_cases hseen : a.stream.version ∈ versions
        · -- nothing new is shown
          have hlast := h.mem_iff.mp hseen
          have hshown : versions ++ a.shown j (.next j) = versions := by
            simp only [shown, look?, Audience.step, hj, hfits.next_of_seen hlast]
            cases a.stream.closed <;> simp [sighting?]
          rw [hshown]
          refine ⟨h.increasing, ?_, ?_, ?_⟩ <;> simp only [Audience.step, hj]
          · exact h.le_version
          · simp [hlt]
          · intro w' hw'
            rw [List.getElem?_set_self hlt] at hw'
            cases hw'
            exact hfits.of_seen hlast
        · -- the current version is shown
          have hlast := mt h.mem_iff.mpr hseen
          have hshown : versions ++ a.shown j (.next j) = versions ++ [a.stream.version] := by
            simp [shown, look?, Audience.step, hj, hfits.next_of_unseen hlast, sighting?]
          rw [hshown]
          refine ⟨h.increasing_concat hseen, ?_, ?_, ?_⟩ <;> simp only [Audience.step, hj]
          · intro n hn
            rcases List.mem_append.mp hn with hn | hn
            · exact h.le_version n hn
            · exact Nat.le_of_eq (List.mem_singleton.mp hn)
          · simp [hlt]
          · intro w' hw'
            rw [List.getElem?_set_self hlt] at hw'
            cases hw'
            exact hfits.of_unseen hlast
      · -- a look of another watcher
        have hshown : versions ++ a.shown i (.next j) = versions := by
          simp [shown, look?, Audience.step, hj, hij]
        rw [hshown]
        refine ⟨h.increasing, ?_, ?_, ?_⟩ <;> simp only [Audience.step, hj]
        · exact h.le_version
        · rw [List.getElem?_set_ne hij]
          exact h.unborn
        · rw [List.getElem?_set_ne hij]
          exact h.fits

theorem sightings_cons (a : Audience α) (i : Nat) (op : Op α) (ops : List (Op α)) :
    a.sightings i (op :: ops) =
      (a.look? i op).toList.filterMap sighting? ++ (a.step op).2.sightings i ops := by
  rw [sightings, looks, List.filterMap_append]
  rfl

/-- After a course of operations a watcher has been shown what it was shown in it. -/
theorem Recalls.after {a : Audience α} {i : Nat} {versions : List Nat}
    (h : a.Recalls i versions) (ops : List (Op α)) :
    (a.after ops).Recalls i (versions ++ (a.sightings i ops).map Prod.fst) := by
  -- what the first operation shows comes before what the others show
  induction ops generalizing a versions with
  | nil => simpa [sightings, looks] using h
  | cons op ops ih =>
    rw [sightings_cons, List.map_append, ← List.append_assoc]
    exact ih (h.step op)

theorem recalls_opened (initial : α) (i : Nat) : (opened initial).Recalls i [] where
  increasing := List.Pairwise.nil
  le_version := nofun
  unborn _ := rfl
  fits := nofun

/-! ## §4 What is shown -/

/-- A look that shows a value shows the current one. -/
theorem eq_of_sighting {a : Audience α} {i : Nat} {op : Op α} {n : Nat} {x : α}
    (h : (n, x) ∈ (a.look? i op).toList.filterMap sighting?) :
    n = a.stream.version ∧ x = a.stream.value := by
  cases op with
  | next j =>
    cases hj : a.watchers[j]? with
    | none => simp [look?, step, hj] at h
    | some w =>
      by_cases hij : j = i
      · -- only the first look at a version shows its value
        cases w with
        | following last =>
          by_cases hlast : last = some a.stream.version <;> by_cases hc : a.stream.closed <;>
            simp_all [look?, step, Watcher.next, sighting?]
        | finishing | ended => simp_all [look?, step, Watcher.next, sighting?]
      · simp [look?, step, hj, hij] at h
  | _ => cases h

/-- Every value that is shown is the one that the stream holds at that version. -/
theorem held_of_mem_sightings {a : Audience α} {i : Nat} {ops : List (Op α)} {n : Nat} {x : α}
    (h : (n, x) ∈ a.sightings i ops) :
    ∃ later, n = a.stream.version + later ∧ (held a.stream ops)[later]? = some x := by
  -- along the operations: the values of the others are shifted by one if the first sets a value
  induction ops generalizing a with
  | nil => cases h
  | cons op ops ih =>
    rw [sightings_cons, List.mem_append] at h
    rcases h with h | h
    · obtain ⟨rfl, rfl⟩ := eq_of_sighting h
      exact ⟨0, rfl, held_zero _ _⟩
    · obtain ⟨later, rfl, hvalue⟩ := ih h
      rcases held_cons a op ops with ⟨hsame, hheld⟩ | ⟨hnext, hheld⟩
      · rw [hsame, hheld]
        exact ⟨later, rfl, hvalue⟩
      · rw [hnext, hheld]
        refine ⟨later + 1, by omega, ?_⟩
        rw [List.getElem?_cons_succ]
        exact hvalue

theorem looks_append (a : Audience α) (i : Nat) (ops ops' : List (Op α)) :
    a.looks i (ops ++ ops') = a.looks i ops ++ (a.after ops).looks i ops' := by
  induction ops generalizing a with
  | nil => rfl
  | cons op ops ih => simp only [List.cons_append, looks, ih, List.append_assoc, after_cons]

/-- A watcher that does not look is not shown anything. -/
theorem looks_eq_nil {a : Audience α} {i : Nat} {ops : List (Op α)}
    (h : ∀ op ∈ ops, op.isNext i = false) : a.looks i ops = [] := by
  induction ops generalizing a with
  | nil => rfl
  | cons op ops ih =>
    have hlook : a.look? i op = none := by
      have hop := h op List.mem_cons_self
      cases op with
      | next j =>
        have hij : j ≠ i := by simpa [Op.isNext] using hop
        simp only [look?, step]
        cases a.watchers[j]? <;> simp [hij]
      | _ => rfl
    rw [looks, hlook, ih fun op hop => h op (List.mem_cons_of_mem _ hop)]
    rfl

/-- What a look of a watcher comes back with. -/
theorem step_next {a : Audience α} {i : Nat} {versions : List Nat} (h : a.Recalls i versions)
    (hi : i < a.watchers.length) :
    (a.step (.next i)).1 = .look
      (if a.stream.version ∈ versions then (if a.stream.closed then .finished else .blocked)
        else .value a.stream.value) := by
  have hw : a.watchers[i]? = some a.watchers[i] := List.getElem?_eq_getElem hi
  have hfits := h.fits _ hw
  simp only [step, hw]
  split
  · rename_i hseen
    rw [hfits.next_of_seen (h.mem_iff.mp hseen)]
    split <;> rfl
  · rename_i hunseen
    rw [hfits.next_of_unseen (mt h.mem_iff.mpr hunseen)]

theorem watchers_step_length (a : Audience α) (op : Op α) :
    a.watchers.length ≤ (a.step op).2.watchers.length := by
  cases op with
  | set value =>
    simp only [step]
    split <;> exact Nat.le_refl _
  | watch => simp [step]
  | next i =>
    simp only [step]
    split <;> simp
  | _ => exact Nat.le_refl _

/-- What is left to be seen of a closed stream: the final value for a watcher to which it is new,
and then its end at every further look. -/
theorem looks_of_closed {a : Audience α} {i : Nat} {versions : List Nat}
    (h : a.Recalls i versions) (hi : i < a.watchers.length) (hc : a.stream.closed = true)
    (ops : List (Op α)) :
    (a.looks i ops).map Prod.snd =
      ((if a.stream.version ∈ versions then [] else [Look.value a.stream.value]) ++
        List.replicate (ops.countP (Op.isNext i)) Look.finished).take
          (ops.countP (Op.isNext i)) := by
  -- along the operations: the stream stays as it is, and after the first look its version is seen
  induction ops generalizing a versions with
  | nil => rfl
  | cons op ops ih =>
    have hstream := stream_step_of_closed hc op
    have hstep := h.step op
    have hrest := ih hstep (Nat.lt_of_lt_of_le hi (watchers_step_length a op))
      (by rw [hstream]; exact hc)
    rw [hstream] at hrest
    rw [looks, List.map_append, hrest]
    cases hop : op.isNext i with
    | false =>
      -- not a look of this watcher, so nothing is counted and nothing is shown
      have hlook : a.looks i [op] = [] := looks_eq_nil (by simpa using hop)
      have hnone : (a.look? i op).toList = [] := by simpa [looks] using hlook
      rw [shown, hnone, List.countP_cons_of_neg (by simp [hop])]
      simp
    | true =>
      obtain rfl : op = .next i := by
        cases op with
        | next j => rw [show j = i by simpa [Op.isNext] using hop]
        | _ => cases hop
      have hreply := step_next h hi
      have hlook : (a.look? i (.next i)).toList = [(a.stream.version,
          if a.stream.version ∈ versions then (if a.stream.closed then .finished else .blocked)
            else .value a.stream.value)] := by
        simp only [look?, hreply, if_true, Option.toList_some]
      rw [shown, hlook, List.countP_cons_of_pos hop]
      by_cases hseen : a.stream.version ∈ versions
      · simp [hseen, hc, sighting?, List.replicate_succ]
      · simp [hseen, sighting?, List.take_replicate]

/-! ## §5 The law of the broadcast -/

/-- Whatever is done with a stream and its watchers, for every watcher: the values that it is shown
are those held at increasing versions, none from before its first look; a look shows the current
value if that version is new to the watcher, and else waits while the stream is open and ends when
it is closed. Of a closed stream, which stays as it is, the watcher is shown the final value if that
is new to it, and then the end at every look. Setting a value on a closed stream is a fault and
changes nothing, and closing it again does not either. -/
theorem broadcast_law (initial : α) (ops : List (Op α)) (i : Nat) :
    let a := (opened initial).after ops
    let seen := (opened initial).sightings i ops
    let values := held (opened initial).stream ops
    ((seen.map Prod.fst).Pairwise (· < ·) ∧
      (∀ n x, (n, x) ∈ seen → values[n]? = some x) ∧
      (∀ before rest, ops = before ++ rest → (∀ op ∈ before, op.isNext i = false) →
        ∀ p ∈ seen, ((opened initial).after before).stream.version ≤ p.1) ∧
      values.length = a.stream.version + 1 ∧ values[a.stream.version]? = some a.stream.value) ∧
    (i < a.watchers.length →
      ((a.step (.next i)).1 = .look (.value a.stream.value) ↔
        a.stream.version ∉ seen.map Prod.fst) ∧
      ((a.step (.next i)).1 = .look .blocked ↔
        a.stream.closed = false ∧ a.stream.version ∈ seen.map Prod.fst) ∧
      ((a.step (.next i)).1 = .look .finished ↔
        a.stream.closed = true ∧ a.stream.version ∈ seen.map Prod.fst) ∧
      (a.stream.closed = true → ∀ ops',
        let count := ops'.countP (Op.isNext i)
        (a.looks i ops').map Prod.snd =
          ((if a.stream.version ∈ seen.map Prod.fst then [] else [Look.value a.stream.value]) ++
            List.replicate count Look.finished).take count)) ∧
    (a.stream.closed = true →
      (∀ x, a.step (.set x) = (.failed .closedStream, a)) ∧
      ∀ ops', (a.after ops').stream = a.stream) ∧
    (a.step .close).2.step .close = (.done, (a.step .close).2) ∧
    a.step .get = (.current a.stream.value, a) := by
  intro a seen values
  have hrecalls : a.Recalls i (seen.map Prod.fst) := (recalls_opened initial i).after ops
  obtain ⟨later, hversion, hlength, hcurrent⟩ := held_after (opened initial) ops
  have hlater : a.stream.version = later := hversion.trans (Nat.zero_add later)
  refine ⟨⟨hrecalls.increasing, ?_, ?_, ?_, ?_⟩, fun hi => ?_, fun hc => ⟨?_, ?_⟩, rfl, rfl⟩
  · intro n x hmem
    obtain ⟨later, hn, hvalue⟩ := held_of_mem_sightings hmem
    rw [hn, show (opened initial).stream.version + later = later from Nat.zero_add later]
    exact hvalue
  · -- the looks come after the operations in which there are none
    rintro before rest hops hbefore ⟨n, x⟩ hmem
    simp only [seen, hops, sightings, looks_append, looks_eq_nil hbefore, List.nil_append] at hmem
    obtain ⟨later, rfl, -⟩ := held_of_mem_sightings hmem
    exact Nat.le_add_right _ _
  · rw [hlater]
    exact hlength
  · rw [hlater]
    exact hcurrent
  · have hnext := step_next hrecalls hi
    rw [hnext]
    refine ⟨?_, ?_, ?_, looks_of_closed hrecalls hi⟩
    all_goals
      by_cases hseen : a.stream.version ∈ seen.map Prod.fst <;>
        cases hc : a.stream.closed <;> simp [hseen]
  · intro x
    simp only [step, ValueStream.set?_of_closed hc]
  · exact stream_after_of_closed hc

-- a watcher that comes late is shown the latest value once, also if it was set twice
example :
    let ops := [.set 5, .watch, .next 0, .next 0, .set 5, .close, .next 0, .next 0]
    (opened 0).looks 0 ops =
      [(1, .value 5), (1, .blocked), (2, .value 5), (2, .finished)] := by
  decide

end Audience

end Fleet
