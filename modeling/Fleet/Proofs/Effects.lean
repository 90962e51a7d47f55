import Mathlib.Order.Defs.Unbundled

/-!
# Actions on a state that may fail

Calls and stages are the same kind of action: they change a state and come back with a value or a
failure.  What such an action does is described in two independent ways: by a relation between the
state before and the state after it, whatever the outcome, and by a property of the value it comes
back with.  Both descriptions are put together along the parts of an action.

## Main definitions

- `Within R x`: the action `x` leads from every state to one related to it by `R`
- `Returns Q x`: if `x` comes back with a value, the value satisfies `Q`
-/

namespace Fleet

variable {σ ε α β : Type}

/-! ## §1 Relations kept by actions -/

/-- The action leads from every state to a related one. -/
def Within (R : σ → σ → Prop) (x : ExceptT ε (StateM σ) α) : Prop :=
  ∀ s, R s ((ExceptT.run x).run s).2

namespace Within

variable {R : σ → σ → Prop}

/-- A wider relation is kept as well. -/
theorem mono {R' : σ → σ → Prop} {x : ExceptT ε (StateM σ) α} (hx : Within R x)
    (h : ∀ s t, R s t → R' s t) : Within R' x :=
  fun s => h _ _ (hx s)

theorem modify {f : σ → σ} (hf : ∀ s, R s (f s)) :
    Within R (modify f : ExceptT ε (StateM σ) PUnit) :=
  fun s => hf s

/-- What an action is known to lead to is related to the state before. -/
theorem of_run {x : ExceptT ε (StateM σ) α} (hx : Within R x) {s t : σ} {o : Except ε α}
    (h : (ExceptT.run x).run s = (o, t)) : R s t := by
  have hs := hx s
  rw [h] at hs
  exact hs

variable [IsPreorder σ R]

theorem pure (a : α) : Within R (pure a : ExceptT ε (StateM σ) α) :=
  fun s => refl_of R s

theorem get : Within R (get : ExceptT ε (StateM σ) σ) :=
  fun s => refl_of R s

theorem throw (e : ε) : Within R (throw e : ExceptT ε (StateM σ) α) :=
  fun s => refl_of R s

theorem ofExcept (x : Except ε α) : Within R (ofExcept x : ExceptT ε (StateM σ) α) := by
  intro s
  cases x <;> exact refl_of R s

/-- If the first part leads to something related to `s₀`, the rest does as well. -/
theorem bind_from {x : ExceptT ε (StateM σ) α} {f : α → ExceptT ε (StateM σ) β} {s₀ s : σ}
    (hx : R s₀ ((ExceptT.run x).run s).2) (hf : ∀ a, Within R (f a)) :
    R s₀ ((ExceptT.run (x >>= f)).run s).2 := by
  simp only [ExceptT.run_bind, StateT.run_bind]
  rcases hr : (ExceptT.run x).run s with ⟨e | a, t⟩
  · -- the first part failed, so there is no second
    rw [hr] at hx
    exact hx
  · rw [hr] at hx
    have hrest : R t ((ExceptT.run (f a)).run t).2 := hf a t
    exact trans_of R hx hrest

theorem tryCatch_from {x : ExceptT ε (StateM σ) α} {handler : ε → ExceptT ε (StateM σ) α}
    {s₀ s : σ} (hx : R s₀ ((ExceptT.run x).run s).2) (hh : ∀ e, Within R (handler e)) :
    R s₀ ((ExceptT.run (tryCatch x handler)).run s).2 := by
  -- the class method hides the definition that `simp` can open
  show R s₀ ((ExceptT.run (ExceptT.tryCatch x handler)).run s).2
  simp only [ExceptT.tryCatch, ExceptT.run_mk, StateT.run_bind]
  rcases hr : (ExceptT.run x).run s with ⟨e | a, t⟩
  · rw [show StateT.run x s = (.error e, t) from hr]
    rw [hr] at hx
    have hhandled : R t ((ExceptT.run (handler e)).run t).2 := hh e t
    exact trans_of R hx hhandled
  · rw [show StateT.run x s = (.ok a, t) from hr]
    rw [hr] at hx
    exact hx

theorem bind {x : ExceptT ε (StateM σ) α} {f : α → ExceptT ε (StateM σ) β}
    (hx : Within R x) (hf : ∀ a, Within R (f a)) : Within R (x >>= f) :=
  fun s => bind_from (hx s) hf

theorem discard {x : ExceptT ε (StateM σ) α} (hx : Within R x) :
    Within R (discard x : ExceptT ε (StateM σ) PUnit) :=
  hx.bind fun _ => Within.pure _

theorem tryCatch {x : ExceptT ε (StateM σ) α} {handler : ε → ExceptT ε (StateM σ) α}
    (hx : Within R x) (hh : ∀ e, Within R (handler e)) : Within R (tryCatch x handler) :=
  fun s => tryCatch_from (hx s) hh

end Within

/-! ## §2 Properties of results -/

/-- If the action comes back with a value, the value has the property. -/
def Returns (Q : α → Prop) (x : ExceptT ε (StateM σ) α) : Prop :=
  ∀ s a, ((ExceptT.run x).run s).1 = .ok a → Q a

namespace Returns

theorem pure {Q : α → Prop} {a : α} (h : Q a) :
    Returns Q (pure a : ExceptT ε (StateM σ) α) := by
  intro s b hb
  cases hb
  exact h

theorem throw {Q : α → Prop} (e : ε) :
    Returns Q (throw e : ExceptT ε (StateM σ) α) := by
  intro s b hb
  cases hb

theorem bind {Q : β → Prop} {x : ExceptT ε (StateM σ) α} {f : α → ExceptT ε (StateM σ) β}
    (hf : ∀ a, Returns Q (f a)) : Returns Q (x >>= f) := by
  intro s b hb
  simp only [ExceptT.run_bind, StateT.run_bind] at hb
  rcases hr : (ExceptT.run x).run s with ⟨e | a, t⟩
  · rw [hr] at hb
    cases hb
  · rw [hr] at hb
    exact hf a t b hb

end Returns

/-! ## §3 Outcomes of composed actions -/

theorem eq_ok_of_toOption {x : Except ε α} {a : α} (h : x.toOption = some a) : x = .ok a := by
  cases x with
  | error e => cases h
  | ok b =>
    cases h
    rfl

/-- What comes back with a value has come through both of its parts. -/
theorem exists_of_bind_eq_ok {x : Except ε α} {f : α → Except ε β} {b : β}
    (h : (x >>= f) = .ok b) : ∃ a, x = .ok a ∧ f a = .ok b := by
  cases x with
  | error e => cases h
  | ok a => exact ⟨a, rfl, h⟩

theorem run_ofExcept (x : Except ε α) (s : σ) :
    (ExceptT.run (ofExcept x : ExceptT ε (StateM σ) α)).run s = (x, s) := by
  cases x <;> rfl

theorem run_get_bind (f : σ → ExceptT ε (StateM σ) β) (s : σ) :
    (ExceptT.run (get >>= f)).run s = (ExceptT.run (f s)).run s := rfl

theorem run_set_bind (t : σ) (f : PUnit → ExceptT ε (StateM σ) β) (s : σ) :
    (ExceptT.run (set t >>= f)).run s = (ExceptT.run (f ⟨⟩)).run t := rfl

theorem run_modify_bind (g : σ → σ) (f : PUnit → ExceptT ε (StateM σ) β) (s : σ) :
    (ExceptT.run (modify g >>= f)).run s = (ExceptT.run (f ⟨⟩)).run (g s) := rfl

theorem run_bind_of_ok {x : ExceptT ε (StateM σ) α} {f : α → ExceptT ε (StateM σ) β} {s t : σ}
    {a : α} (h : (ExceptT.run x).run s = (.ok a, t)) :
    (ExceptT.run (x >>= f)).run s = (ExceptT.run (f a)).run t := by
  simp only [ExceptT.run_bind, StateT.run_bind, h]
  rfl

theorem run_bind_of_error {x : ExceptT ε (StateM σ) α} {f : α → ExceptT ε (StateM σ) β}
    {s t : σ} {e : ε} (h : (ExceptT.run x).run s = (.error e, t)) :
    (ExceptT.run (x >>= f)).run s = (.error e, t) := by
  simp only [ExceptT.run_bind, StateT.run_bind, h]
  rfl

/-- What goes on after a value that is not needed does not depend on it. -/
theorem discard_bind (x : ExceptT ε (StateM σ) α) (f : PUnit → ExceptT ε (StateM σ) β) :
    (discard x : ExceptT ε (StateM σ) PUnit) >>= f = x >>= fun _ => f ⟨⟩ := by
  have hdiscard : (discard x : ExceptT ε (StateM σ) PUnit) = x >>= fun _ => pure ⟨⟩ := rfl
  rw [hdiscard, bind_assoc]
  simp only [pure_bind]

/-- Whatever comes back with a value has come through all of its parts. -/
theorem exists_of_run_bind_eq_ok {x : ExceptT ε (StateM σ) α} {f : α → ExceptT ε (StateM σ) β}
    {s t : σ} {b : β} (h : (ExceptT.run (x >>= f)).run s = (.ok b, t)) :
    ∃ a u, (ExceptT.run x).run s = (.ok a, u) ∧ (ExceptT.run (f a)).run u = (.ok b, t) := by
  rcases hx : (ExceptT.run x).run s with ⟨e | a, u⟩
  · rw [run_bind_of_error hx] at h
    cases h
  · exact ⟨a, u, rfl, (run_bind_of_ok hx).symm.trans h⟩

theorem run_tryCatch_of_ok {x : ExceptT ε (StateM σ) α} {handler : ε → ExceptT ε (StateM σ) α}
    {s t : σ} {a : α} (h : (ExceptT.run x).run s = (.ok a, t)) :
    (ExceptT.run (tryCatch x handler)).run s = (.ok a, t) := by
  show (ExceptT.run (ExceptT.tryCatch x handler)).run s = _
  simp only [ExceptT.tryCatch, ExceptT.run_mk, StateT.run_bind]
  rw [show StateT.run x s = (.ok a, t) from h]
  rfl

theorem run_tryCatch_of_error {x : ExceptT ε (StateM σ) α}
    {handler : ε → ExceptT ε (StateM σ) α} {s t : σ} {e : ε}
    (h : (ExceptT.run x).run s = (.error e, t)) :
    (ExceptT.run (tryCatch x handler)).run s = (ExceptT.run (handler e)).run t := by
  show (ExceptT.run (ExceptT.tryCatch x handler)).run s = _
  simp only [ExceptT.tryCatch, ExceptT.run_mk, StateT.run_bind]
  rw [show StateT.run x s = (.error e, t) from h]
  rfl

end Fleet
