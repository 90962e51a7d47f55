import Fleet.Proofs.Journal

/-!
# Doing the same in another world

What is done with a server is done in a world that others use as well.  It is uniform if it does the
same in every world that gives the same answers: it comes back with the same, and the same events
are entered in the journal.  Worlds may differ in everything that is neither looked at nor answered.

The requests that are made on the way are part of the condition, since worlds have to give the same
answers to these requests only.  So uniformity is put together along the parts of an action with
the requests of each part.

## Main definitions

- `World.Growth R`: a relation to later worlds, which holds at least where no request was made
- `Comparison`: which states are held to be alike, and for which requests
- `Uniform R K f`: on alike states, `f` does the same, if it only makes requests of the comparison
- `UniformAction R K x`: the same for actions that come back with a value or a failure

## Main statements

- `Uniform.bind`, `UniformAction.bind`, `UniformAction.tryCatch`: what is made of uniform parts is
  uniform
-/

namespace Fleet

open World

/-! ## §1 Later worlds -/

/-- Nothing has happened but events that are no requests. -/
structure World.Remarks (u v : World) : Prop where
  grows : u.Extends (fun e => e.request? = none) v
  network_eq : v.network = u.network
  tokens_eq : v.tokens = u.tokens

namespace World.Remarks

variable {u v w : World}

theorem refl (w : World) : w.Remarks w :=
  ⟨.refl w, rfl, rfl⟩

theorem record {e : Event} (h : e.request? = none) (w : World) : w.Remarks (w.record e) :=
  ⟨.record h w, rfl, rfl⟩

theorem trans (h : u.Remarks v) (h' : v.Remarks w) : u.Remarks w :=
  ⟨h.grows.trans h'.grows, h'.network_eq.trans h.network_eq, h'.tokens_eq.trans h.tokens_eq⟩

theorem requestsSince_eq_nil (h : u.Remarks v) : u.requestsSince v = [] :=
  World.requestsSince_eq_nil h.grows

end World.Remarks

/-- A relation from worlds to later ones. It holds at least if no request was made on the way. -/
class World.Growth (R : World → World → Prop) : Prop extends IsPreorder World R where
  grows_of : ∀ {u v}, R u v → u.Extends (fun _ => True) v
  of_remarks : ∀ {u v}, u.Remarks v → R u v

instance : World.Growth (Extends fun _ => True) where
  grows_of h := h
  of_remarks h := h.grows.mono fun _ _ => trivial

instance : World.Growth World.Remarks where
  refl := .refl
  trans _ _ _ := .trans
  grows_of h := h.grows.mono fun _ _ => trivial
  of_remarks h := h

/-! ## §2 Uniform functions -/

/-- Which states are compared, and which of them are alike as long as nothing but the given
requests is made. -/
structure Comparison (σ : Type) where
  world : σ → World
  asked : Request → Prop
  /-- what a state has to satisfy to be compared with others -/
  Fits : σ → Prop
  Alike : σ → σ → Prop
  fits_of_alike : ∀ {s t}, Fits s → Alike s t → Fits t

variable {R R' : World → World → Prop} {σ ε α β γ : Type} {K : Comparison σ}

namespace Comparison

/-- Between two states only requests of the comparison are made. -/
def AsksOnly (K : Comparison σ) (s s' : σ) : Prop :=
  ∀ q ∈ (K.world s).requestsSince (K.world s'), K.asked q

/-- The events between two states, the oldest first. -/
def between (K : Comparison σ) (s s' : σ) : List Event :=
  (K.world s).since (K.world s')

theorem between_trans [World.Growth R] {s s' s'' : σ} (h : R (K.world s) (K.world s'))
    (h' : R (K.world s') (K.world s'')) : K.between s s'' = K.between s s' ++ K.between s' s'' :=
  since_trans (Growth.grows_of h) (Growth.grows_of h')

theorem asksOnly_trans_iff [World.Growth R] {s s' s'' : σ} (h : R (K.world s) (K.world s'))
    (h' : R (K.world s') (K.world s'')) :
    K.AsksOnly s s'' ↔ K.AsksOnly s s' ∧ K.AsksOnly s' s'' := by
  simp only [AsksOnly, requestsSince_trans (Growth.grows_of h) (Growth.grows_of h'),
    List.mem_append, or_imp, forall_and]

end Comparison

/-- A function that comes back with nothing but the state. -/
def silent (f : σ → Option σ) (s : σ) : Option (Unit × σ) :=
  (f s).map ((), ·)

/-- On alike states the function does the same, if it only makes requests of the comparison. Where
it does not come to its end, nothing is said. -/
structure Uniform (R : World → World → Prop) (K : Comparison σ) (f : σ → Option (β × σ)) :
    Prop where
  onward : ∀ {s b s'}, K.Fits s → f s = some (b, s') → K.Fits s' ∧ R (K.world s) (K.world s')
  again : ∀ {s t b s'}, K.Fits s → K.Alike s t → f s = some (b, s') → K.AsksOnly s s' →
    ∃ t', f t = some (b, t') ∧ K.between t t' = K.between s s' ∧ K.Alike s' t'

namespace Uniform

variable {f : σ → Option (β × σ)} {g : β → σ → Option (γ × σ)}

/-- What is equal to a uniform function is uniform. -/
theorem of_eq {f' : σ → Option (β × σ)} (h : Uniform R K f) (heq : ∀ s, f' s = f s) :
    Uniform R K f' := by
  obtain rfl : f' = f := funext heq
  exact h

/-- Another relation to later worlds may be known to be kept. -/
theorem strengthen (h : Uniform R K f)
    (hkeeps : ∀ {s b s'}, f s = some (b, s') → R' (K.world s) (K.world s')) : Uniform R' K f where
  onward hs hf := ⟨(h.onward hs hf).1, hkeeps hf⟩
  again := h.again

theorem none : Uniform R K fun _ => (none : Option (β × σ)) where
  onward _ h := by cases h
  again _ _ h := by cases h

/-- A function may look at whatever alike states have in common. -/
theorem of_view (p : σ → γ) (f : γ → σ → Option (β × σ)) (hp : ∀ {s t}, K.Alike s t → p t = p s)
    (hf : ∀ s, K.Fits s → Uniform R K (f (p s))) : Uniform R K fun s => f (p s) s where
  onward hs h := (hf _ hs).onward hs h
  again := by
    intro s t b s' hs halike h hasks
    rw [hp halike]
    exact (hf s hs).again hs halike h hasks

variable [World.Growth R]

theorem pure (b : β) : Uniform R K fun s => some (b, s) where
  onward hs h := by
    cases h
    exact ⟨hs, refl_of R _⟩
  again _ halike h _ := by
    cases h
    exact ⟨_, rfl, by simp only [Comparison.between, since_self], halike⟩

/-- What goes on in a uniform way after a uniform beginning is uniform; it has to go on so only
after the results that the beginning can have. -/
theorem bind_of (hf : Uniform R K f) {P : β → Prop}
    (hP : ∀ {s b s'}, K.Fits s → f s = some (b, s') → P b) (hg : ∀ b, P b → Uniform R K (g b)) :
    Uniform R K fun s => (f s).bind fun p => g p.1 p.2 where
  onward := by
    intro s c s'' hs h
    obtain ⟨⟨b, s'⟩, hfs, hgs⟩ := Option.bind_eq_some_iff.mp h
    obtain ⟨hs', hstep⟩ := hf.onward hs hfs
    obtain ⟨hs'', hrest⟩ := (hg b (hP hs hfs)).onward hs' hgs
    exact ⟨hs'', trans_of R hstep hrest⟩
  again := by
    intro s t c s'' hs halike h hasks
    obtain ⟨⟨b, s'⟩, hfs, hgs⟩ := Option.bind_eq_some_iff.mp h
    have hb : P b := hP hs hfs
    obtain ⟨hs', hstep⟩ := hf.onward hs hfs
    obtain ⟨-, hrest⟩ := (hg b hb).onward hs' hgs
    -- the requests of the whole are those of the two parts
    obtain ⟨hasks₁, hasks₂⟩ := (Comparison.asksOnly_trans_iff hstep hrest).mp hasks
    obtain ⟨t', hft, hbetween₁, halike'⟩ := hf.again hs halike hfs hasks₁
    obtain ⟨t'', hgt, hbetween₂, halike''⟩ := (hg b hb).again hs' halike' hgs hasks₂
    have ht' := hf.onward (K.fits_of_alike hs halike) hft
    have ht'' := (hg b hb).onward ht'.1 hgt
    refine ⟨t'', Option.bind_eq_some_iff.mpr ⟨(b, t'), hft, hgt⟩, ?_, halike''⟩
    rw [Comparison.between_trans ht'.2 ht''.2, Comparison.between_trans hstep hrest, hbetween₁,
      hbetween₂]

theorem bind (hf : Uniform R K f) (hg : ∀ b, Uniform R K (g b)) :
    Uniform R K fun s => (f s).bind fun p => g p.1 p.2 :=
  hf.bind_of (P := fun _ => True) (fun _ _ => trivial) fun b _ => hg b

/-- One change after another. -/
theorem comp {f : σ → σ} {g : σ → Option (β × σ)}
    (hf : Uniform R K (silent fun s => some (f s))) (hg : Uniform R K g) :
    Uniform R K fun s => g (f s) :=
  (hf.bind fun _ => hg).of_eq fun _ => rfl

end Uniform

/-! ## §3 Uniform actions -/

/-- An action as a function that always comes to its end. -/
def total (x : ExceptT ε (StateM σ) α) (s : σ) : Option (Except ε α × σ) :=
  some ((ExceptT.run x).run s)

/-- On alike states the action does the same, if it only makes requests of the comparison. -/
def UniformAction (R : World → World → Prop) (K : Comparison σ) (x : ExceptT ε (StateM σ) α) :
    Prop :=
  Uniform R K (total x)

namespace UniformAction

variable [World.Growth R] {x : ExceptT ε (StateM σ) α} {f : α → ExceptT ε (StateM σ) β}

theorem pure (a : α) : UniformAction R K (pure a : ExceptT ε (StateM σ) α) :=
  (Uniform.pure (Except.ok a)).of_eq fun _ => rfl

theorem throw (e : ε) : UniformAction R K (throw e : ExceptT ε (StateM σ) α) :=
  (Uniform.pure (Except.error e)).of_eq fun _ => rfl

theorem ofExcept (o : Except ε α) : UniformAction R K (ofExcept o : ExceptT ε (StateM σ) α) := by
  cases o with
  | error e => exact .throw e
  | ok a => exact .pure a

theorem bind (hx : UniformAction R K x) (hf : ∀ a, UniformAction R K (f a)) :
    UniformAction R K (x >>= f) := by
  -- after a failure nothing goes on
  have hrest : ∀ o : Except ε α, Uniform R K fun s : σ =>
      match o with
      | .ok a => total (f a) s
      | .error e => some (.error e, s) := by
    intro o
    cases o with
    | error e => exact Uniform.pure (Except.error e)
    | ok a => exact hf a
  refine (Uniform.bind hx hrest).of_eq fun s => ?_
  rcases h : (ExceptT.run x).run s with ⟨e | a, t⟩
  · simp only [total, h, run_bind_of_error h, Option.bind_some]
  · simp only [total, h, run_bind_of_ok h, Option.bind_some]

theorem discard (hx : UniformAction R K x) :
    UniformAction R K (discard x : ExceptT ε (StateM σ) PUnit) :=
  hx.bind fun _ => .pure _

theorem tryCatch {handler : ε → ExceptT ε (StateM σ) α} (hx : UniformAction R K x)
    (hh : ∀ e, UniformAction R K (handler e)) : UniformAction R K (tryCatch x handler) := by
  have hrest : ∀ o : Except ε α, Uniform R K fun s : σ =>
      match o with
      | .ok a => some (.ok a, s)
      | .error e => total (handler e) s := by
    intro o
    cases o with
    | error e => exact hh e
    | ok a => exact Uniform.pure (Except.ok a)
  refine (Uniform.bind hx hrest).of_eq fun s => ?_
  rcases h : (ExceptT.run x).run s with ⟨e | a, t⟩
  · simp only [total, h, run_tryCatch_of_error h, Option.bind_some]
  · simp only [total, h, run_tryCatch_of_ok h, Option.bind_some]

end UniformAction

end Fleet
