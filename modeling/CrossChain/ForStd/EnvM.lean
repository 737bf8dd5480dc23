import Mathlib.Tactic.Common

/-!
# Programs that read an environment and may stop early

`EnvM ρ σ ε α` reads an environment `ρ`, threads a state `σ` and either returns
an `α` or stops with an `ε`.  The state survives the stop, so what the program
did up to there can still be inspected.

The rules: inversion of a `bind` that returned (`bind_eq_ok_iff`), exact weakest
preconditions with one postcondition for returning and one for stopping (`wp`),
and state relations every step respects (`Keeps`).
-/

/-- A program over environment `ρ` and state `σ` that returns `α` or stops with `ε`. -/
def EnvM (ρ σ ε α : Type) : Type := ρ → σ → Except ε α × σ

namespace EnvM

variable {ρ σ ε ε' α β : Type}

instance : Monad (EnvM ρ σ ε) where
  pure a := fun _ s => (.ok a, s)
  bind x f := fun r s =>
    match x r s with
    | (.ok a, s') => f a r s'
    | (.error e, s') => (.error e, s')

/-- The environment. -/
def ask : EnvM ρ σ ε ρ := fun r s => (.ok r, s)

/-- The state. -/
def get : EnvM ρ σ ε σ := fun _ s => (.ok s, s)

/-- Change the state. -/
def modify (g : σ → σ) : EnvM ρ σ ε Unit := fun _ s => (.ok (), g s)

/-- Stop, keeping the state. -/
def stop (e : ε) : EnvM ρ σ ε α := fun _ s => (.error e, s)

/-- A result computed without the environment or the state. -/
def ofExcept (x : Except ε α) : EnvM ρ σ ε α := fun _ s => (x, s)

/-- Go on after a stop: `h` turns each way to stop into a result or into another stop. -/
def recover (x : EnvM ρ σ ε α) (h : ε → Except ε' α) : EnvM ρ σ ε' α := fun r s =>
  match x r s with
  | (.ok a, s') => (.ok a, s')
  | (.error e, s') => (h e, s')

/-! ## Running -/

@[simp] theorem pure_run (a : α) (r : ρ) (s : σ) :
    (pure a : EnvM ρ σ ε α) r s = (.ok a, s) := rfl

@[simp] theorem ask_run (r : ρ) (s : σ) : (ask : EnvM ρ σ ε ρ) r s = (.ok r, s) := rfl

@[simp] theorem get_run (r : ρ) (s : σ) : (get : EnvM ρ σ ε σ) r s = (.ok s, s) := rfl

@[simp] theorem modify_run (g : σ → σ) (r : ρ) (s : σ) :
    (modify g : EnvM ρ σ ε Unit) r s = (.ok (), g s) := rfl

@[simp] theorem stop_run (e : ε) (r : ρ) (s : σ) :
    (stop e : EnvM ρ σ ε α) r s = (.error e, s) := rfl

@[simp] theorem ofExcept_run (x : Except ε α) (r : ρ) (s : σ) :
    (ofExcept x : EnvM ρ σ ε α) r s = (x, s) := rfl

theorem bind_run (x : EnvM ρ σ ε α) (f : α → EnvM ρ σ ε β) (r : ρ) (s : σ) :
    (x >>= f) r s =
      match x r s with
      | (.ok a, s') => f a r s'
      | (.error e, s') => (.error e, s') := rfl

theorem bind_pure (x : EnvM ρ σ ε α) : x >>= pure = x := by
  funext r s
  rw [bind_run]
  rcases x r s with ⟨e | a, s'⟩
  · rfl
  · rfl

theorem bind_assoc {γ : Type} (x : EnvM ρ σ ε α) (f : α → EnvM ρ σ ε β)
    (g : β → EnvM ρ σ ε γ) :
    (x >>= f) >>= g = x >>= fun a => f a >>= g := by
  funext r s
  rw [bind_run, bind_run, bind_run]
  rcases x r s with ⟨e | a, s'⟩
  · rfl
  · rfl

/-- A `bind` whose first part returns goes on with the rest. -/
theorem bind_run_of_ok {x : EnvM ρ σ ε α} {f : α → EnvM ρ σ ε β} {r : ρ} {s s' : σ} {a : α}
    (h : x r s = (.ok a, s')) : (x >>= f) r s = f a r s' := by
  rw [bind_run, h]

/-- A `bind` that returned: its first part returned, and so did the rest from there. -/
theorem bind_eq_ok_iff {x : EnvM ρ σ ε α} {f : α → EnvM ρ σ ε β} {r : ρ} {s s'' : σ} {b : β} :
    (x >>= f) r s = (.ok b, s'') ↔ ∃ a s', x r s = (.ok a, s') ∧ f a r s' = (.ok b, s'') := by
  rw [bind_run]
  -- a first part that stopped makes both sides false
  rcases hx : x r s with ⟨_ | a, s'⟩
  · simp
  · constructor
    · intro h; exact ⟨a, s', rfl, h⟩
    · rintro ⟨_, _, h, hf⟩; cases h; exact hf

theorem ofExcept_eq_ok_iff {x : Except ε α} {r : ρ} {s s' : σ} {a : α} :
    (ofExcept x : EnvM ρ σ ε α) r s = (.ok a, s') ↔ x = .ok a ∧ s' = s := by
  rw [ofExcept_run, Prod.mk.injEq, eq_comm (a := s)]

/-- The run returned; for concrete runs. -/
def returns (x : EnvM ρ σ ε α) (r : ρ) (s : σ) : Bool :=
  match (x r s).1 with
  | .ok _ => true
  | .error _ => false

theorem exists_of_returns {x : EnvM ρ σ ε α} {r : ρ} {s : σ} (h : returns x r s = true) :
    ∃ a s', x r s = (.ok a, s') := by
  rw [returns] at h
  rcases hx : x r s with ⟨e | a, s'⟩
  · rw [hx] at h
    cases h
  · exact ⟨a, s', rfl⟩

/-! ## Weakest preconditions -/

/-- From `r` and `s`, the program returns with `Q` or stops with `E`. -/
def wp (x : EnvM ρ σ ε α) (Q : α → σ → Prop) (E : ε → σ → Prop) (r : ρ) (s : σ) : Prop :=
  match x r s with
  | (.ok a, s') => Q a s'
  | (.error e, s') => E e s'

section

variable {Q : α → σ → Prop} {E : ε → σ → Prop} {r : ρ} {s : σ}

@[simp] theorem wp_pure {a : α} : wp (pure a) Q E r s ↔ Q a s := Iff.rfl

@[simp] theorem wp_stop {e : ε} : wp (stop e) Q E r s ↔ E e s := Iff.rfl

@[simp] theorem wp_ask {Q : ρ → σ → Prop} : wp ask Q E r s ↔ Q r s := Iff.rfl

@[simp] theorem wp_get {Q : σ → σ → Prop} : wp get Q E r s ↔ Q s s := Iff.rfl

@[simp] theorem wp_modify {g : σ → σ} {Q : Unit → σ → Prop} :
    wp (modify g) Q E r s ↔ Q () (g s) := Iff.rfl

theorem wp_ofExcept {x : Except ε α} :
    wp (ofExcept x) Q E r s ↔
      match x with
      | .ok a => Q a s
      | .error e => E e s := by
  cases x <;> exact Iff.rfl

@[simp] theorem wp_bind {x : EnvM ρ σ ε α} {f : α → EnvM ρ σ ε β} {Q : β → σ → Prop} :
    wp (x >>= f) Q E r s ↔ wp x (fun a s' => wp (f a) Q E r s') E r s := by
  rw [wp, bind_run, wp]
  rcases x r s with ⟨_ | a, s'⟩ <;> exact Iff.rfl

theorem wp_recover {x : EnvM ρ σ ε α} {h : ε → Except ε' α} {E : ε' → σ → Prop} :
    wp (recover x h) Q E r s ↔ wp x Q (fun e s' => wp (ofExcept (h e)) Q E r s') r s := by
  rw [wp, wp, recover]
  rcases x r s with ⟨e | a, s'⟩
  · exact Iff.rfl
  · exact Iff.rfl

theorem wp_ite {c : Prop} [Decidable c] {x y : EnvM ρ σ ε α} :
    wp (if c then x else y) Q E r s ↔ if c then wp x Q E r s else wp y Q E r s := by
  split <;> exact Iff.rfl

/-- Weakening both postconditions. -/
theorem wp_mono {x : EnvM ρ σ ε α} {Q' : α → σ → Prop} {E' : ε → σ → Prop}
    (h : wp x Q E r s) (hQ : ∀ a s', Q a s' → Q' a s') (hE : ∀ e s', E e s' → E' e s') :
    wp x Q' E' r s := by
  rw [wp] at h ⊢
  generalize x r s = res at h ⊢
  rcases res with ⟨_ | a, s'⟩
  · exact hE _ _ h
  · exact hQ _ _ h

/-- Equivalent postconditions give equivalent preconditions. -/
theorem wp_congr {x : EnvM ρ σ ε α} {Q' : α → σ → Prop}
    (hQ : ∀ a s', x r s = (.ok a, s') → (Q a s' ↔ Q' a s')) :
    wp x Q E r s ↔ wp x Q' E r s := by
  rw [wp, wp]
  rcases hx : x r s with ⟨_ | a, s'⟩
  · exact Iff.rfl
  · exact hQ a s' hx

/-- One postcondition for both ways to end. -/
abbrev wpState (x : EnvM ρ σ ε α) (P : σ → Prop) (r : ρ) (s : σ) : Prop :=
  wp x (fun _ => P) (fun _ => P) r s

/-- It is a statement about the final state. -/
theorem wpState_iff {x : EnvM ρ σ ε α} {P : σ → Prop} : wpState x P r s ↔ P (x r s).2 := by
  rw [wpState, wp]
  rcases x r s with ⟨_ | a, s'⟩
  · exact Iff.rfl
  · exact Iff.rfl

/-- A first part that ends in `s'` and a rest that stays there. -/
theorem wpState_bind_eq {x : EnvM ρ σ ε α} {f : α → EnvM ρ σ ε β} {s' : σ}
    (hx : wpState x (· = s') r s) (hf : ∀ a, wpState (f a) (· = s') r s') :
    wpState (x >>= f) (· = s') r s := by
  rw [wpState, wp_bind]
  apply wp_mono hx
  · intro a _ heq
    subst heq
    exact hf a
  · exact fun _ _ h => h

/-- What the precondition says of a run that returned. -/
theorem wp_ok {x : EnvM ρ σ ε α} {a : α} {s' : σ} (h : wp x Q E r s)
    (hx : x r s = (.ok a, s')) : Q a s' := by
  rwa [wp, hx] at h

end

/-! ## Preconditions over an observation of the state -/

section

variable {τ : Type} (obs : σ → τ)

/-- A weakest precondition whose postcondition sees of the final state only what `obs`
    observes. -/
def wpObs (x : EnvM ρ σ ε α) (E : ε → Prop) (k : α → τ → Prop) (r : ρ) (s : σ) : Prop :=
  wp x (fun a s' => k a (obs s')) (fun e _ => E e) r s

variable {obs} {E : ε → Prop} {r : ρ} {s : σ}

/-- If the rest's precondition is a property of the observation too, it is the
    postcondition of the first part. -/
theorem wpObs_bind {x : EnvM ρ σ ε α} {f : α → EnvM ρ σ ε β} {k : β → τ → Prop}
    {k' : α → τ → Prop}
    (h : ∀ a s', x r s = (.ok a, s') → (wpObs obs (f a) E k r s' ↔ k' a (obs s'))) :
    wpObs obs (x >>= f) E k r s ↔ wpObs obs x E k' r s := by
  -- only the runs of `x` that return reach the rest
  rw [wpObs, wp_bind, wpObs]
  exact wp_congr h

end

/-! ## State relations -/

/-- Every run of the program, returning or not, relates the states by `R`. -/
def Keeps (R : σ → σ → Prop) (x : EnvM ρ σ ε α) : Prop := ∀ r s, R s (x r s).2

section

variable {R : σ → σ → Prop}

theorem keeps_iff_wpState {x : EnvM ρ σ ε α} : Keeps R x ↔ ∀ r s, wpState x (R s) r s :=
  forall_congr' fun _ => forall_congr' fun _ => wpState_iff.symm

theorem keeps_pure [Std.Refl R] (a : α) : Keeps R (pure a : EnvM ρ σ ε α) :=
  fun _ s => refl_of R s

theorem keeps_stop [Std.Refl R] (e : ε) : Keeps R (stop e : EnvM ρ σ ε α) :=
  fun _ s => refl_of R s

theorem keeps_ask [Std.Refl R] : Keeps R (ask : EnvM ρ σ ε ρ) :=
  fun _ s => refl_of R s

theorem keeps_ofExcept [Std.Refl R] (x : Except ε α) : Keeps R (ofExcept x : EnvM ρ σ ε α) :=
  fun _ s => refl_of R s

theorem keeps_bind [IsTrans σ R] {x : EnvM ρ σ ε α} {f : α → EnvM ρ σ ε β}
    (hx : Keeps R x) (hf : ∀ a, Keeps R (f a)) : Keeps R (x >>= f) := by
  intro r s
  have h := hx r s
  rw [bind_run]
  generalize x r s = res at h ⊢
  rcases res with ⟨_ | a, s'⟩
  · exact h
  · -- through the state after the first part
    exact trans_of R h (hf a r s')

theorem keeps_ite {c : Prop} [Decidable c] {x y : EnvM ρ σ ε α}
    (hx : Keeps R x) (hy : Keeps R y) : Keeps R (if c then x else y) := by
  split
  · exact hx
  · exact hy

/-- What it says of one run. -/
theorem Keeps.run {x : EnvM ρ σ ε α} (h : Keeps R x) {r : ρ} {s s' : σ} {a : Except ε α}
    (hx : x r s = (a, s')) : R s s' := by
  have hstate := h r s
  rwa [hx] at hstate

theorem keeps_recover {x : EnvM ρ σ ε α} {h : ε → Except ε' α} (hx : Keeps R x) :
    Keeps R (recover x h) := by
  intro r s
  have hstate := hx r s
  rw [recover]
  generalize x r s = res at hstate
  rcases res with ⟨e | a, s'⟩
  · exact hstate
  · exact hstate

end

end EnvM
