import Mathlib.Data.List.Basic
import Mathlib.Tactic.Common
import Fleet.Cloud.Token

/-!
# Callers who share a refresh

Any number of callers want a token from one store while others drop tokens that were rejected.  They
take their steps in any order, and only what stands under the lock is kept together by it: a caller
who refreshes holds the lock until the token endpoint answers, and meanwhile callers without the
lock look, queue and leave.

## Main definitions

- `TokenRace`, `TokenRace.step`: a store, its lock and its callers, and one step of somebody
- `TokenRace.grants`, `TokenRace.drops`: the tokens that refreshes bring and invalidations drop

## Main statements

- `TokenRace.step_steps`: what a step can do
- `TokenRace.Sound.step`: there is a refresh under way exactly if somebody holds the lock
- `TokenRace.drops_append_current`: each token is dropped before the next one is brought
- `TokenRace.refresh_is_shared`: the contract of the callers
-/

namespace Fleet

/-- The token that an answer of the token endpoint brings, if it can be sent. -/
def Grant.token? : Grant → Option String
  | .token brought => TokenStore.usable brought
  | .rejected _ | .unreachable _ => none

namespace TokenStore

/-! ## §1 The two halves of the locked section -/

/-- The locked section behind the second look: refresh, and keep the token. -/
def renew (s : TokenStore) : Except Failure String × TokenStore :=
  match s.refresh with
  | (.ok token, s) => (.ok token, { s with cached := some token })
  | (.error f, s) => (.error f, s)

theorem lockedGet_of_unusable {s : TokenStore} (h : usable s.cached = none) :
    s.lockedGet = s.renew := by
  simp only [lockedGet, h]
  rfl

theorem usable_eq_some {token : Option String} {t : String} (h : usable token = some t) :
    token = some t ∧ t ≠ "" := by
  obtain ⟨htoken, ht⟩ := Option.filter_eq_some_iff.mp h
  refine ⟨htoken, ?_⟩
  rintro rfl
  cases ht

theorem usable_some {t : String} (h : t ≠ "") : usable (some t) = some t := by
  simp [usable, h]

theorem ne_empty_of_token? {grant : Grant} {token : String} (h : grant.token? = some token) :
    token ≠ "" := by
  cases grant with
  | token brought => exact (usable_eq_some h).2
  | rejected | unreachable => cases h

/-- An answer that brings a token: it is kept. -/
theorem renew_of_token {s : TokenStore} (h : s.credentials.isSome = true) {token : String}
    (hgrant : (nextGrant s.grants).1.token? = some token) :
    s.renew.1 = .ok token ∧ s.renew.2.cached = some token ∧
      s.renew.2.credentials = s.credentials := by
  obtain ⟨credentials, hcredentials⟩ := Option.isSome_iff_exists.mp h
  rcases hnext : nextGrant s.grants with ⟨grant, grants⟩
  simp only [hnext] at hgrant
  cases grant with
  | token brought =>
    have hbrought : usable brought = some token := hgrant
    simp [renew, refresh, hcredentials, hnext, hbrought]
  | rejected | unreachable => cases hgrant

/-- An answer that brings none is a failure, and the store stays without a token. -/
theorem renew_of_no_token {s : TokenStore} (h : s.credentials.isSome = true)
    (hgrant : (nextGrant s.grants).1.token? = none) :
    (∃ f, s.renew.1 = .error f ∧ f.class? = some .unauthorized) ∧
      s.renew.2.cached = s.cached ∧ s.renew.2.credentials = s.credentials := by
  obtain ⟨credentials, hcredentials⟩ := Option.isSome_iff_exists.mp h
  rcases hnext : nextGrant s.grants with ⟨grant, grants⟩
  simp only [hnext] at hgrant
  cases grant with
  | token brought =>
    have hbrought : usable brought = none := hgrant
    simp [renew, refresh, hcredentials, hnext, hbrought, failure, Failure.class?,
      Refusal.toClass]
  | rejected | unreachable =>
    simp [renew, refresh, hcredentials, hnext, failure, Failure.class?, Refusal.toClass]

theorem invalidate_of_ne {s : TokenStore} {token : String} (h : s.cached ≠ some token) :
    s.invalidate (some token) = s := by
  simp [invalidate, holds, h]

end TokenStore

/-! ## §2 Steps -/

/-- How far a caller has come. -/
inductive TokenRace.Caller where
  /-- it has not looked yet -/
  | arriving
  /-- it found no token and waits for the lock -/
  | queuing
  /-- it has asked the token endpoint and holds the lock -/
  | refreshing
  /-- it has left with a token or a failure -/
  | left (outcome : Except Failure String)

/-- A token store with its lock and the callers who want a token from it. -/
structure TokenRace where
  store : TokenStore
  /-- who holds the lock over a refresh -/
  holder : Option Nat := none
  callers : List TokenRace.Caller

namespace TokenRace

open TokenStore

/-- A step of one of the callers, or of somebody whose token was rejected. -/
inductive Step where
  /-- the look without the lock -/
  | look (caller : Nat)
  /-- the caller gets the lock and looks again -/
  | enter (caller : Nat)
  /-- the token endpoint answers the caller -/
  | answer (caller : Nat)
  /-- somebody gets the lock and drops a token -/
  | invalidate (token : String)

/-- Callers who have just come. -/
def opened (store : TokenStore) (callers : Nat) : TokenRace where
  store := store
  callers := List.replicate callers .arriving

/-- A caller has come further. -/
def put (r : TokenRace) (i : Nat) (caller : Caller) : TokenRace :=
  { r with callers := r.callers.set i caller }

/-- One step. A step that has to wait for something changes nothing. -/
def step (r : TokenRace) : Step → TokenRace
  | .look i =>
    match r.callers[i]? with
    | some .arriving =>
      match usable r.store.cached with
      | some token => r.put i (.left (.ok token))
      | none => r.put i .queuing
    | _ => r
  | .enter i =>
    match r.callers[i]?, r.holder with
    | some .queuing, none =>
      match usable r.store.cached with
      | some token => r.put i (.left (.ok token))
      | none =>
        -- the lock is kept while the answer is under way
        if r.store.credentials.isSome then { r.put i .refreshing with holder := some i }
        else r.put i (.left r.store.renew.1)
    | _, _ => r
  | .answer i =>
    match r.callers[i]? with
    | some .refreshing =>
      { r.put i (.left r.store.renew.1) with store := r.store.renew.2, holder := none }
    | _ => r
  | .invalidate token =>
    match r.holder with
    | none => { r with store := r.store.invalidate (some token) }
    | some _ => r

/-- The callers and their store after some steps. -/
def after (r : TokenRace) (steps : List Step) : TokenRace :=
  steps.foldl step r

@[simp] theorem after_nil (r : TokenRace) : r.after [] = r := rfl

@[simp] theorem after_cons (r : TokenRace) (s : Step) (steps : List Step) :
    r.after (s :: steps) = (r.step s).after steps := rfl

theorem after_append (r : TokenRace) (steps steps' : List Step) :
    r.after (steps ++ steps') = (r.after steps).after steps' :=
  List.foldl_append

/-- The token that is brought by the refresh that a step brings to its end. -/
def grant? (r : TokenRace) : Step → Option String
  | .answer i =>
    match r.callers[i]? with
    | some .refreshing => r.store.renew.1.toOption
    | _ => none
  | _ => none

/-- The token that a step drops, if it could still have been sent. -/
def drop? (r : TokenRace) : Step → Option String
  | .invalidate token =>
    if r.holder.isNone && r.store.holds (some token) then usable (some token) else none
  | _ => none

/-- What is noted of some steps, one after the other. -/
def along (note : TokenRace → Step → Option String) (r : TokenRace) : List Step → List String
  | [] => []
  | s :: steps => (note r s).toList ++ along note (r.step s) steps

/-- The tokens that refreshes bring in some steps, in their order. -/
def grants (r : TokenRace) (steps : List Step) : List String :=
  r.along grant? steps

/-- The tokens that invalidations drop in some steps, in their order. -/
def drops (r : TokenRace) (steps : List Step) : List String :=
  r.along drop? steps

/-- The current token, if there is one that can be sent. -/
def current (r : TokenRace) : List String :=
  (usable r.store.cached).toList

theorem step_enter_of_usable {r : TokenRace} {i : Nat} {token : String}
    (hcaller : r.callers[i]? = some .queuing) (hfree : r.holder = none)
    (htoken : usable r.store.cached = some token) :
    r.step (.enter i) = r.put i (.left (.ok token)) := by
  simp only [step, hcaller, hfree, htoken]

theorem step_enter_of_unusable {r : TokenRace} {i : Nat}
    (hcaller : r.callers[i]? = some .queuing) (hfree : r.holder = none)
    (hnone : usable r.store.cached = none) (hcredentials : r.store.credentials.isSome = true) :
    r.step (.enter i) = { r.put i .refreshing with holder := some i } := by
  simp only [step, hcaller, hfree, hnone, hcredentials, if_true]

theorem step_enter_of_no_credentials {r : TokenRace} {i : Nat}
    (hcaller : r.callers[i]? = some .queuing) (hfree : r.holder = none)
    (hnone : usable r.store.cached = none) (hcredentials : r.store.credentials.isSome = false) :
    r.step (.enter i) = r.put i (.left r.store.renew.1) := by
  simp [step, hcaller, hfree, hnone, hcredentials]

theorem step_answer {r : TokenRace} {i : Nat} (hcaller : r.callers[i]? = some .refreshing) :
    r.step (.answer i) =
      { r.put i (.left r.store.renew.1) with store := r.store.renew.2, holder := none } := by
  simp only [step, hcaller]

theorem step_invalidate_of_ne {r : TokenRace} {token : String}
    (h : r.store.cached ≠ some token) : r.step (.invalidate token) = r := by
  simp only [step, invalidate_of_ne h]
  split <;> rfl

/-- A caller who has come further is there himself, and the others are where they were. -/
theorem getElem?_put {r : TokenRace} {i j : Nat} {caller before : Caller}
    (h : r.callers[i]? = some before) :
    (r.put i caller).callers[j]? = if j = i then some caller else r.callers[j]? := by
  have hlt : i < r.callers.length := (List.getElem?_eq_some_iff.mp h).1
  by_cases hji : j = i
  · subst hji
    simp [put, hlt]
  · rw [if_neg hji]
    exact List.getElem?_set_ne (Ne.symm hji)

/-! ## §3 What a step can do -/

/-- Everything that one step can do. -/
inductive Steps (r : TokenRace) : Step → TokenRace → Prop
  /-- the step has to wait, or there is nothing to do -/
  | stayed {s : Step} (hgrant : r.grant? s = none) (hdrop : r.drop? s = none) : Steps r s r
  /-- a caller leaves with the current token -/
  | served {s : Step} {i : Nat} {token : String} (hstep : s = .look i ∨ s = .enter i)
      (hcaller : r.callers[i]? = some .arriving ∨ r.callers[i]? = some .queuing)
      (htoken : usable r.store.cached = some token) : Steps r s (r.put i (.left (.ok token)))
  /-- a caller finds no token -/
  | queued {i : Nat} (hcaller : r.callers[i]? = some .arriving) :
      Steps r (.look i) (r.put i .queuing)
  /-- a caller who still finds none begins to refresh -/
  | started {i : Nat} (hcaller : r.callers[i]? = some .queuing) (hfree : r.holder = none)
      (hnone : usable r.store.cached = none) :
      Steps r (.enter i) { r.put i .refreshing with holder := some i }
  /-- it cannot, for want of credentials -/
  | refused {i : Nat} (hcaller : r.callers[i]? = some .queuing)
      (hcredentials : r.store.credentials = none) :
      Steps r (.enter i) (r.put i (.left r.store.renew.1))
  /-- the token endpoint has answered -/
  | answered {i : Nat} (hcaller : r.callers[i]? = some .refreshing) :
      Steps r (.answer i)
        { r.put i (.left r.store.renew.1) with store := r.store.renew.2, holder := none }
  /-- the current token is dropped -/
  | dropped {token : String} (hfree : r.holder = none) (hheld : r.store.cached = some token) :
      Steps r (.invalidate token) { r with store := { r.store with cached := none } }

theorem step_steps (r : TokenRace) (s : Step) : r.Steps s (r.step s) := by
  cases s with
  | look i =>
    simp only [step]
    split
    · rename_i hcaller
      split
      · rename_i token htoken
        exact .served (.inl rfl) (.inl hcaller) htoken
      · exact .queued hcaller
    · exact .stayed rfl rfl
  | enter i =>
    simp only [step]
    split
    · rename_i hcaller hfree
      split
      · rename_i token htoken
        exact .served (.inr rfl) (.inr hcaller) htoken
      · rename_i hnone
        split
        · exact .started hcaller hfree hnone
        · rename_i hcredentials
          exact .refused hcaller (by simpa using hcredentials)
    · exact .stayed rfl rfl
  | answer i =>
    simp only [step]
    split
    · rename_i hcaller
      exact .answered hcaller
    · rename_i hcaller
      exact .stayed (by simp only [grant?]) rfl
  | invalidate token =>
    simp only [step]
    split
    · rename_i hfree
      by_cases hheld : r.store.cached = some token
      · simpa [TokenStore.invalidate, holds, hheld] using Steps.dropped hfree hheld
      · -- another token is the current one
        rw [invalidate_of_ne hheld]
        exact .stayed rfl (by simp [drop?, holds, hheld])
    · rename_i hheld
      exact .stayed rfl (by simp [drop?, hheld])

/-! ## §4 One refresh at a time -/

/-- The callers who refresh are those who hold the lock, and nobody holds it while there is a
token. -/
structure Sound (r : TokenRace) : Prop where
  refreshing_iff : ∀ i, r.callers[i]? = some .refreshing ↔ r.holder = some i
  unusable : r.holder.isSome = true → usable r.store.cached = none
  credentials : r.store.credentials.isSome = true

/-- A caller who does not refresh comes further without refreshing: the lock is not concerned. -/
theorem Sound.put {r : TokenRace} (hr : r.Sound) {i : Nat} {caller before : Caller}
    (h : r.callers[i]? = some before) (hbefore : before ≠ .refreshing)
    (hcaller : caller ≠ .refreshing) : (r.put i caller).Sound where
  refreshing_iff j := by
    rw [getElem?_put h]
    by_cases hji : j = i
    · subst hji
      rw [if_pos rfl, Option.some.injEq]
      refine ⟨fun hc => absurd hc hcaller, fun hholder => ?_⟩
      have hrefreshing := (hr.refreshing_iff j).mpr hholder
      rw [h] at hrefreshing
      exact absurd (Option.some.inj hrefreshing) hbefore
    · rw [if_neg hji]
      exact hr.refreshing_iff j
  unusable := hr.unusable
  credentials := hr.credentials

theorem Steps.sound {r r' : TokenRace} {s : Step} (h : r.Steps s r') (hr : r.Sound) :
    r'.Sound := by
  cases h with
  | stayed => exact hr
  | @served _ i token hstep hcaller htoken =>
    rcases hcaller with hcaller | hcaller <;> exact hr.put hcaller nofun nofun
  | queued hcaller => exact hr.put hcaller nofun nofun
  | @started i hcaller hfree hnone =>
    refine ⟨fun j => ?_, fun _ => hnone, hr.credentials⟩
    show (r.put i .refreshing).callers[j]? = _ ↔ some i = some j
    rw [getElem?_put hcaller]
    by_cases hji : j = i
    · simp [hji]
    · -- the lock was free, so nobody else refreshes
      rw [if_neg hji, hr.refreshing_iff j, hfree]
      simp [Ne.symm hji]
  | refused hcaller hcredentials =>
    have hsome := hr.credentials
    rw [hcredentials] at hsome
    cases hsome
  | @answered i hcaller =>
    have hholder := (hr.refreshing_iff i).mp hcaller
    refine ⟨fun j => ?_, nofun, ?_⟩
    · show (r.put i (.left r.store.renew.1)).callers[j]? = _ ↔ none = some j
      rw [getElem?_put hcaller]
      by_cases hji : j = i
      · simp [hji]
      · rw [if_neg hji, hr.refreshing_iff j, hholder]
        simp [Ne.symm hji]
    · show r.store.renew.2.credentials.isSome = true
      cases hgrant : (nextGrant r.store.grants).1.token? with
      | some token =>
        rw [(renew_of_token hr.credentials hgrant).2.2]
        exact hr.credentials
      | none =>
        rw [(renew_of_no_token hr.credentials hgrant).2.2]
        exact hr.credentials
  | dropped hfree hheld =>
    exact ⟨hr.refreshing_iff, fun _ => rfl, hr.credentials⟩

theorem Sound.step {r : TokenRace} (hr : r.Sound) (s : Step) : (r.step s).Sound :=
  (r.step_steps s).sound hr

theorem Sound.after {r : TokenRace} (hr : r.Sound) (steps : List Step) :
    (r.after steps).Sound := by
  induction steps generalizing r with
  | nil => exact hr
  | cons s steps ih => exact ih (hr.step s)

theorem opened_sound {store : TokenStore} (h : store.credentials.isSome = true) (callers : Nat) :
    (opened store callers).Sound where
  refreshing_iff i := by
    refine ⟨fun hi => ?_, nofun⟩
    have hmem := List.mem_of_getElem? hi
    cases List.eq_of_mem_replicate hmem
  unusable := nofun
  credentials := h

theorem Sound.eq_of_refreshing {r : TokenRace} (hr : r.Sound) {i j : Nat}
    (hi : r.callers[i]? = some .refreshing) (hj : r.callers[j]? = some .refreshing) : j = i := by
  have hholder := (hr.refreshing_iff i).mp hi
  rw [(hr.refreshing_iff j).mp hj] at hholder
  exact Option.some.inj hholder

theorem Sound.unusable_of_refreshing {r : TokenRace} (hr : r.Sound) {i : Nat}
    (hi : r.callers[i]? = some .refreshing) : usable r.store.cached = none := by
  apply hr.unusable
  rw [(hr.refreshing_iff i).mp hi]
  rfl

/-- A refresh begins only with the lock free and no token at hand. -/
theorem Sound.of_starting {r : TokenRace} (hr : r.Sound) {s : Step} {i : Nat}
    (hbefore : r.callers[i]? ≠ some .refreshing)
    (hafter : (r.step s).callers[i]? = some .refreshing) :
    usable r.store.cached = none ∧ ∀ j : Nat, r.callers[j]? ≠ some Caller.refreshing := by
  -- what was refreshing after the step was so before, unless the step began it
  have hput : ∀ {j : Nat} {caller before : Caller}, r.callers[j]? = some before →
      caller ≠ .refreshing → (r.put j caller).callers[i]? ≠ some .refreshing := by
    intro j caller before hj hcaller
    rw [getElem?_put hj]
    split
    · simpa using hcaller
    · exact hbefore
  have hsteps := r.step_steps s
  generalize r.step s = r' at hsteps hafter
  cases hsteps with
  | stayed | dropped => exact absurd hafter hbefore
  | served hstep hcaller =>
    rcases hcaller with hcaller | hcaller <;> exact absurd hafter (hput hcaller nofun)
  | queued hcaller => exact absurd hafter (hput hcaller nofun)
  | refused hcaller => exact absurd hafter (hput hcaller nofun)
  | answered hcaller => exact absurd hafter (hput hcaller nofun)
  | started hcaller hfree hnone =>
    refine ⟨hnone, fun j hj => ?_⟩
    rw [(hr.refreshing_iff j).mp hj] at hfree
    cases hfree

/-! ## §5 What is brought and what is dropped -/

/-- A step keeps the books: a token is dropped only if it is the current one, and brought only if
there is none. -/
theorem Sound.drop_append_current {r : TokenRace} (hr : r.Sound) (s : Step) :
    (r.drop? s).toList ++ (r.step s).current = r.current ++ (r.grant? s).toList := by
  have hsteps := r.step_steps s
  generalize r.step s = r' at hsteps
  cases hsteps with
  | stayed hgrant hdrop => simp [hgrant, hdrop]
  | served hstep => rcases hstep with rfl | rfl <;> simp [drop?, grant?, current, TokenRace.put]
  | queued | started | refused => simp [drop?, grant?, current, TokenRace.put]
  | @answered i hcaller =>
    have hnone : usable r.store.cached = none := hr.unusable_of_refreshing hcaller
    cases hgrant : (nextGrant r.store.grants).1.token? with
    | some token =>
      obtain ⟨hok, hcached, -⟩ := renew_of_token hr.credentials hgrant
      have htoken : token ≠ "" := ne_empty_of_token? hgrant
      simp [drop?, grant?, current, hcaller, hok, hcached, hnone, usable_some htoken,
        Except.toOption]
    | none =>
      obtain ⟨⟨f, hf, -⟩, hcached, -⟩ := renew_of_no_token hr.credentials hgrant
      simp [drop?, grant?, current, hcaller, hf, hcached, hnone, Except.toOption]
  | @dropped token hfree hheld =>
    -- the dropped token was the current one, and none is left
    simp only [drop?, grant?, current, hfree, holds, hheld]
    simp [usable]

/-- The tokens that were dropped, and then the current one, are the first one and then those that
were brought. -/
theorem Sound.drops_append_current {r : TokenRace} (hr : r.Sound) (steps : List Step) :
    r.drops steps ++ (r.after steps).current = r.current ++ r.grants steps := by
  induction steps generalizing r with
  | nil => simp [drops, grants, along]
  | cons s steps ih =>
    calc r.drops (s :: steps) ++ ((r.step s).after steps).current
        = (r.drop? s).toList ++
            ((r.step s).drops steps ++ ((r.step s).after steps).current) := by
          rw [drops, along, List.append_assoc]
          rfl
      _ = ((r.drop? s).toList ++ (r.step s).current) ++ (r.step s).grants steps := by
          rw [ih (hr.step s), List.append_assoc]
      _ = r.current ++ r.grants (s :: steps) := by
          rw [hr.drop_append_current s, List.append_assoc]
          rfl

theorem length_current (r : TokenRace) :
    r.current.length = if (usable r.store.cached).isSome then 1 else 0 := by
  unfold current
  cases usable r.store.cached <;> rfl

/-- A token that no refresh brings is dropped at most once. -/
theorem Sound.count_drops_le_one {r : TokenRace} (hr : r.Sound) {token : String}
    {steps : List Step} (h : token ∉ r.grants steps) : (r.drops steps).count token ≤ 1 := by
  have hcount := congrArg (List.count token) (hr.drops_append_current steps)
  rw [List.count_append, List.count_append, List.count_eq_zero_of_not_mem h] at hcount
  have hcurrent : r.current.count token ≤ r.current.length := List.count_le_length
  have hlength : r.current.length ≤ 1 := by
    rw [length_current]
    split <;> omega
  omega

/-! ## §6 How callers leave -/

/-- A caller leaves with a token that is the current one at that moment, or because its own refresh
has failed. -/
theorem Sound.of_leaving {r : TokenRace} (hr : r.Sound) {s : Step} {i : Nat}
    {o : Except Failure String} (hbefore : r.callers[i]? ≠ some (.left o))
    (hafter : (r.step s).callers[i]? = some (.left o)) :
    (∀ o', r.callers[i]? ≠ some (.left o')) ∧
      ((∃ token, o = .ok token ∧ token ≠ "" ∧ (r.step s).store.cached = some token) ∨
        ∃ f, o = .error f ∧ s = .answer i ∧ r.callers[i]? = some .refreshing ∧
          (nextGrant r.store.grants).1.token? = none) := by
  -- if the step was made by a caller who had not left, then it was this one
  have hself : ∀ {j : Nat} {caller before : Caller}, r.callers[j]? = some before →
      (∀ o', before ≠ .left o') → (r.put j caller).callers[i]? = some (.left o) →
      j = i ∧ caller = .left o ∧ ∀ o', r.callers[i]? ≠ some (.left o') := by
    intro j caller before hj hnot hput
    rw [getElem?_put hj] at hput
    split at hput
    · rename_i hij
      subst hij
      refine ⟨rfl, Option.some.inj hput, fun o' ho' => ?_⟩
      rw [hj] at ho'
      exact hnot o' (Option.some.inj ho')
    · exact absurd hput hbefore
  have hsteps := r.step_steps s
  generalize r.step s = r' at hsteps hafter
  cases hsteps with
  | stayed | dropped => exact absurd hafter hbefore
  | @served _ j token hstep hcaller htoken =>
    obtain ⟨hcached, hne⟩ := usable_eq_some htoken
    have hmoved : Caller.left (.ok token) = .left o ∧ ∀ o', r.callers[i]? ≠ some (.left o') := by
      rcases hcaller with hcaller | hcaller <;> exact (hself hcaller nofun hafter).2
    obtain ⟨ho, hnot⟩ := hmoved
    cases ho
    exact ⟨hnot, Or.inl ⟨token, rfl, hne, hcached⟩⟩
  | queued hcaller => cases (hself hcaller nofun hafter).2.1
  | started hcaller => cases (hself hcaller nofun hafter).2.1
  | refused hcaller hcredentials =>
    have hsome := hr.credentials
    rw [hcredentials] at hsome
    cases hsome
  | @answered j hcaller =>
    obtain ⟨rfl, ho, hnot⟩ := hself hcaller nofun hafter
    cases ho
    refine ⟨hnot, ?_⟩
    cases hgrant : (nextGrant r.store.grants).1.token? with
    | some token =>
      obtain ⟨hok, hcached, -⟩ := renew_of_token hr.credentials hgrant
      exact Or.inl ⟨token, hok, ne_empty_of_token? hgrant, hcached⟩
    | none =>
      obtain ⟨⟨f, hf, -⟩, -⟩ := renew_of_no_token hr.credentials hgrant
      exact Or.inr ⟨f, hf, rfl, hcaller, rfl⟩

/-- Whoever has left did so in some step. -/
theorem exists_leaving {r : TokenRace} {steps : List Step} {i : Nat}
    {o : Except Failure String} (hstart : r.callers[i]? ≠ some (.left o))
    (h : (r.after steps).callers[i]? = some (.left o)) :
    ∃ before s rest, steps = before ++ s :: rest ∧
      (r.after before).callers[i]? ≠ some (.left o) ∧
      ((r.after before).step s).callers[i]? = some (.left o) := by
  induction steps generalizing r with
  | nil => exact absurd h hstart
  | cons s steps ih =>
    by_cases hs : (r.step s).callers[i]? = some (.left o)
    · exact ⟨[], s, steps, rfl, hstart, hs⟩
    · obtain ⟨before, s', rest, rfl, hbefore, hafter⟩ := ih hs h
      exact ⟨s :: before, s', rest, rfl, hbefore, hafter⟩

/-- A refresh without a token is the failure of its own caller only: the others stay where they
are, there is still no token, and whoever is next in the queue refreshes again. -/
theorem Sound.answer_of_no_token {r : TokenRace} (hr : r.Sound) {i : Nat}
    (hi : r.callers[i]? = some .refreshing)
    (hgrant : (nextGrant r.store.grants).1.token? = none) :
    ∃ f, f.class? = some .unauthorized ∧
      (r.step (.answer i)).callers = r.callers.set i (.left (.error f)) ∧
      (r.step (.answer i)).store.cached = r.store.cached ∧
      (r.step (.answer i)).holder = none ∧
      ∀ j, (r.step (.answer i)).callers[j]? = some .queuing →
        ((r.step (.answer i)).step (.enter j)).callers[j]? = some .refreshing := by
  obtain ⟨⟨f, hf, hclass⟩, hcached, -⟩ := renew_of_no_token hr.credentials hgrant
  have hstep : r.step (.answer i) =
      { r.put i (.left (.error f)) with store := r.store.renew.2, holder := none } := by
    rw [step_answer hi, hf]
  have hsound := hr.step (.answer i)
  have hcached' : (r.step (.answer i)).store.cached = r.store.cached := by
    rw [hstep]
    exact hcached
  have hfree : (r.step (.answer i)).holder = none := by rw [hstep]
  refine ⟨f, hclass, by rw [hstep]; rfl, hcached', hfree, fun j hj => ?_⟩
  -- the lock is free, and the next caller finds no token either
  have hnone : usable (r.step (.answer i)).store.cached = none := by
    rw [hcached']
    exact hr.unusable_of_refreshing hi
  rw [step_enter_of_unusable hj hfree hnone hsound.credentials]
  show ((r.step (.answer i)).put j .refreshing).callers[j]? = _
  rw [getElem?_put hj, if_pos rfl]

/-! ## §7 The callers at a desk -/

/-- A caller at a desk, whose locked section is one step. -/
def Caller.ofDesk : TokenCaller → Caller
  | .arriving => .arriving
  | .queuing => .queuing
  | .left outcome => .left outcome

/-- The callers at a desk, where nobody is under way in the locked section. -/
def ofDesk (d : TokenDesk) : TokenRace where
  store := d.store
  callers := d.callers.map Caller.ofDesk

/-- The locked section of a caller in the queue: it gets the lock, and if it begins a refresh then
the answer comes at once. -/
theorem after_of_queuing {d : TokenDesk} {i : Nat} (hi : d.callers[i]? = some .queuing) :
    (ofDesk d).after [.enter i, .answer i] = ofDesk (d.step i) := by
  have hqueuing : (ofDesk d).callers[i]? = some .queuing := by
    show (d.callers.map Caller.ofDesk)[i]? = _
    rw [List.getElem?_map, hi]
    rfl
  -- the second step does nothing unless the first has begun a refresh
  have hleft : ∀ o, ((ofDesk d).put i (.left o)).step (.answer i) = (ofDesk d).put i (.left o) := by
    intro o
    have hthere : ((ofDesk d).put i (.left o)).callers[i]? = some (.left o) :=
      (getElem?_put hqueuing).trans (if_pos rfl)
    simp only [step, hthere]
  have hdesk : ofDesk (d.step i) =
      { (ofDesk d).put i (.left d.store.lockedGet.1) with store := d.store.lockedGet.2 } := by
    simp only [TokenDesk.step, hi, TokenDesk.stepCaller, ofDesk, put, List.map_set, Caller.ofDesk]
  rw [hdesk, after_cons, after_cons, after_nil]
  cases htoken : usable d.store.cached with
  | some token =>
    rw [step_enter_of_usable hqueuing rfl htoken, hleft, lockedGet_of_usable htoken]
    rfl
  | none =>
    rw [lockedGet_of_unusable htoken]
    cases hcredentials : d.store.credentials.isSome with
    | true =>
      rw [step_enter_of_unusable hqueuing rfl htoken hcredentials, step_answer]
      · simp [put, ofDesk]
      · exact (getElem?_put hqueuing).trans (if_pos rfl)
    | false =>
      have hrenew : d.store.renew.2 = d.store := by
        rw [Option.isSome_eq_false_iff, Option.isNone_iff_eq_none] at hcredentials
        simp only [renew, refresh, hcredentials]
      rw [step_enter_of_no_credentials hqueuing rfl htoken hcredentials, hleft, hrenew]
      rfl

/-- A turn at a desk is made of steps. -/
theorem exists_steps_ofDesk (d : TokenDesk) (i : Nat) :
    ∃ steps, (ofDesk d).after steps = ofDesk (d.step i) := by
  cases hi : d.callers[i]? with
  | none => exact ⟨[], by simp only [TokenDesk.step, hi, after_nil]⟩
  | some caller =>
    cases caller with
    | left outcome =>
      obtain ⟨hlt, hat⟩ := List.getElem?_eq_some_iff.mp hi
      have hset : d.callers.set i (.left outcome) = d.callers := by
        rw [← hat, List.set_getElem_self]
      exact ⟨[], by simp only [TokenDesk.step, hi, TokenDesk.stepCaller, hset, after_nil]⟩
    | arriving =>
      refine ⟨[.look i], ?_⟩
      have hget : (d.callers.map Caller.ofDesk)[i]? = some .arriving := by
        rw [List.getElem?_map, hi]
        rfl
      cases htoken : usable d.store.cached <;>
        simp [step, ofDesk, hget, htoken, TokenDesk.step, hi,
          TokenDesk.stepCaller, put, List.map_set, Caller.ofDesk]
    | queuing => exact ⟨_, after_of_queuing hi⟩

theorem exists_steps_turns (d : TokenDesk) (turns : List Nat) :
    ∃ steps, (ofDesk d).after steps = ofDesk (turns.foldl TokenDesk.step d) := by
  induction turns generalizing d with
  | nil => exact ⟨[], rfl⟩
  | cons i turns ih =>
    obtain ⟨first, hfirst⟩ := exists_steps_ofDesk d i
    obtain ⟨rest, hrest⟩ := ih (d.step i)
    refine ⟨first ++ rest, ?_⟩
    rw [after_append, hfirst, hrest]
    rfl

theorem ofDesk_opened (store : TokenStore) (callers : Nat) :
    ofDesk (TokenDesk.opened store callers) = opened store callers := by
  simp [ofDesk, TokenDesk.opened, opened, Caller.ofDesk]

/-! ## §8 The contract -/

/-- Whatever the callers, the answers of the token endpoint and the order of the steps: a refresh
begins only when there is no token and no other refresh, each token is dropped before the next is
brought, a token is dropped only by its own name, whoever leaves with a token leaves with the
current one, and a refresh without a token fails its own caller and nobody else. -/
theorem refresh_is_shared (cached : Option String) (credentials : Credentials)
    (answers : List Grant) (callers : Nat) (steps : List Step) :
    let start := opened { cached, credentials := some credentials, grants := answers } callers
    let r := start.after steps
    -- refreshes begin without a token at hand, and one at a time
    (∀ (s : Step) (i : Nat), r.callers[i]? ≠ some .refreshing →
      (r.step s).callers[i]? = some .refreshing →
      usable r.store.cached = none ∧ ∀ j : Nat, r.callers[j]? ≠ some .refreshing) ∧
    (∀ i j : Nat, r.callers[i]? = some .refreshing → r.callers[j]? = some .refreshing → j = i) ∧
    -- so every token that is brought needs one that is dropped, unless there was none at first
    start.drops steps ++ r.current = start.current ++ start.grants steps ∧
    (start.grants steps).length ≤
      (start.drops steps).length + (if (usable cached).isSome then 0 else 1) ∧
    -- a token that is not the current one is not dropped, nor one that does not come again
    (∀ token : String, r.store.cached ≠ some token → r.step (.invalidate token) = r) ∧
    (∀ token steps', token ∉ r.grants steps' → (r.drops steps').count token ≤ 1) ∧
    -- a caller who is served has the current token of a moment before it left
    (∀ (i : Nat) (token : String), r.callers[i]? = some (.left (.ok token)) → token ≠ "" ∧
      ∃ before s rest, steps = before ++ s :: rest ∧
        (∀ o, (start.after before).callers[i]? ≠ some (.left o)) ∧
        ((start.after before).step s).callers[i]? = some (.left (.ok token)) ∧
        ((start.after before).step s).store.cached = some token) ∧
    -- an answer without a token fails the caller who asked, and the next in the queue asks again
    (∀ i : Nat, r.callers[i]? = some .refreshing → (nextGrant r.store.grants).1.token? = none →
      ∃ f, f.class? = some .unauthorized ∧
        (r.step (.answer i)).callers = r.callers.set i (.left (.error f)) ∧
        usable (r.step (.answer i)).store.cached = none ∧
        (r.step (.answer i)).holder = none ∧
        ∀ j : Nat, (r.step (.answer i)).callers[j]? = some .queuing →
          ((r.step (.answer i)).step (.enter j)).callers[j]? = some .refreshing) ∧
    (∀ (i : Nat) (f : Failure), r.callers[i]? = some (.left (.error f)) →
      ∃ before rest, steps = before ++ .answer i :: rest ∧
        (start.after before).callers[i]? = some .refreshing ∧
        (nextGrant (start.after before).store.grants).1.token? = none) ∧
    -- and the callers at a desk are such callers
    ∀ turns : List Nat, ∃ steps', start.after steps' =
      ofDesk (turns.foldl TokenDesk.step
        (TokenDesk.opened { cached, credentials := some credentials, grants := answers }
          callers)) := by
  intro start r
  have hstart : start.Sound := opened_sound rfl callers
  have hr : r.Sound := hstart.after steps
  have hbooks := hstart.drops_append_current steps
  have hnew : ∀ (i : Nat) o, start.callers[i]? ≠ some (.left o) := by
    intro i o hi
    cases List.eq_of_mem_replicate (List.mem_of_getElem? hi)
  refine ⟨fun s i => hr.of_starting, fun i j => hr.eq_of_refreshing, hbooks, ?_, ?_,
    fun token steps' => hr.count_drops_le_one, ?_, ?_, ?_, ?_⟩
  · have hlength := congrArg List.length hbooks
    rw [List.length_append, List.length_append, length_current, length_current] at hlength
    have hcached : start.store.cached = cached := rfl
    rw [hcached] at hlength
    have hone : (if (usable (start.after steps).store.cached).isSome then 1 else 0) ≤ 1 := by
      split <;> omega
    cases hcurrent : (usable cached).isSome with
    | true =>
      simp only [hcurrent, if_true] at hlength ⊢
      omega
    | false =>
      simp only [hcurrent, Bool.false_eq_true, if_false] at hlength ⊢
      omega
  · intro token hother
    exact step_invalidate_of_ne hother
  · intro i token hleft
    obtain ⟨before, s, rest, rfl, hbefore, hafter⟩ := exists_leaving (hnew i _) hleft
    obtain ⟨hnot, hserved | ⟨f, hf, -⟩⟩ := (hstart.after before).of_leaving hbefore hafter
    · obtain ⟨token', htoken, hne, hcached⟩ := hserved
      cases htoken
      exact ⟨hne, before, s, rest, rfl, hnot, hafter, hcached⟩
    · cases hf
  · intro i hi hgrant
    obtain ⟨f, hf, hcallers, hcached, hrest⟩ := hr.answer_of_no_token hi hgrant
    refine ⟨f, hf, hcallers, ?_, hrest⟩
    rw [hcached]
    exact hr.unusable_of_refreshing hi
  · intro i f hleft
    obtain ⟨before, s, rest, rfl, hbefore, hafter⟩ := exists_leaving (hnew i _) hleft
    obtain ⟨-, ⟨token, htoken, -⟩ | ⟨f', -, rfl, hi, hgrant⟩⟩ :=
      (hstart.after before).of_leaving hbefore hafter
    · cases htoken
    · exact ⟨before, rest, rfl, hi, hgrant⟩
  · intro turns
    have hdesk := exists_steps_turns (TokenDesk.opened start.store callers) turns
    rwa [ofDesk_opened] at hdesk

end TokenRace

end Fleet
