import CrossChain.ForStd.EnvM

/-!
# Refinement of programs

`EnvM.Refines view I Q x y` relates two programs over one environment.  From a
state with `I`, the run of `x` leaves what `view` shows of its last state as the
run of `y` from there does; either both stop, with one error, or both return, and
`Q` holds of what they return and of the last state of `x`.
-/

namespace EnvM

variable {ρ σ τ ε α β γ δ : Type}

/-- How two runs ended. -/
def SameEnd (Q : α → β → Prop) : Except ε α → Except ε β → Prop
  | .ok a, .ok b => Q a b
  | .error e, .error e' => e = e'
  | _, _ => False

/-- Two runs that end the same way and return nothing of interest. -/
theorem SameEnd.eq {P : Unit → Unit → Prop} {a b : Except ε Unit} (h : SameEnd P a b) : a = b := by
  cases a with
  | error e =>
    cases b with
    | error e' => exact congrArg Except.error h
    | ok u => exact h.elim
  | ok u =>
    cases b with
    | error e' => exact h.elim
    | ok u' => rfl

/-- What returns ends the same way as what returns. -/
theorem SameEnd.exists_ok {Q : α → β → Prop} {a : α} {r : Except ε β}
    (h : SameEnd Q (.ok a) r) : ∃ b, r = .ok b ∧ Q a b := by
  cases r with
  | error e => exact h.elim
  | ok b => exact ⟨b, rfl, h⟩

/-- The program does, seen through `view`, what the other does. -/
def Refines (view : σ → τ) (I : σ → Prop) (Q : α → β → σ → Prop) (x : EnvM ρ σ ε α)
    (y : EnvM ρ τ ε β) : Prop :=
  ∀ r s, I s → view (x r s).2 = (y r (view s)).2 ∧
    SameEnd (fun a b => Q a b (x r s).2) (x r s).1 (y r (view s)).1

variable {view : σ → τ} {I : σ → Prop} {Q : α → β → σ → Prop} {Q' : γ → δ → σ → Prop}
  {x : EnvM ρ σ ε α} {y : EnvM ρ τ ε β}

/-- A step that returns and that the view does not show. -/
theorem refines_pure (b : β)
    (h : ∀ r s, I s → ∃ a s', x r s = (.ok a, s') ∧ view s' = view s ∧ Q a b s') :
    Refines view I Q x (pure b) := by
  intro r s hs
  obtain ⟨a, s', hx, hview, hQ⟩ := h r s hs
  rw [hx]
  exact ⟨hview, hQ⟩

/-- One program after the other. -/
theorem refines_bind {f : α → EnvM ρ σ ε γ} {g : β → EnvM ρ τ ε δ} (h : Refines view I Q x y)
    (h' : ∀ a b, Refines view (Q a b) Q' (f a) (g b)) :
    Refines view I Q' (x >>= f) (y >>= g) := by
  intro r s hs
  obtain ⟨hview, hend⟩ := h r s hs
  rw [bind_run, bind_run]
  generalize x r s = xs at hview hend
  generalize y r (view s) = ys at hview hend
  obtain ⟨e | a, s'⟩ := xs
  · obtain ⟨e' | b, t⟩ := ys
    · exact ⟨hview, hend⟩
    · exact hend.elim
  · obtain ⟨e' | b, t⟩ := ys
    · exact hend.elim
    · have hrest := h' a b r s' hend
      have hshown : view s' = t := hview
      rwa [hshown] at hrest

/-- A first step that the view does not show. -/
theorem refines_pure_bind {f : α → EnvM ρ σ ε γ} {z : EnvM ρ τ ε δ} {b : β}
    (h : Refines view I Q x (pure b)) (h' : ∀ a, Refines view (Q a b) Q' (f a) z) :
    Refines view I Q' (x >>= f) z := by
  intro r s hs
  obtain ⟨hview, hend⟩ := h r s hs
  rw [bind_run]
  generalize x r s = xs at hview hend
  obtain ⟨e | a, s'⟩ := xs
  · exact hend.elim
  · have hrest := h' a r s' hend
    have hshown : view s' = view s := hview
    rwa [hshown] at hrest

/-- A last step that the view does not show. -/
theorem refines_bind_pure {f : α → EnvM ρ σ ε γ} {Q' : γ → β → σ → Prop}
    (h : Refines view I Q x y) (h' : ∀ a b, Refines view (Q a b) Q' (f a) (pure b)) :
    Refines view I Q' (x >>= f) y := by
  have hbind : Refines view I Q' (x >>= f) (y >>= pure) := refines_bind h h'
  rwa [bind_pure] at hbind

/-- A weaker postcondition. -/
theorem Refines.mono {R : α → β → σ → Prop} (h : Refines view I Q x y)
    (hQ : ∀ a b s, Q a b s → R a b s) : Refines view I R x y := by
  intro r s hs
  obtain ⟨hview, hend⟩ := h r s hs
  refine ⟨hview, ?_⟩
  generalize x r s = xs at hend ⊢
  generalize (y r (view s)).1 = b at hend ⊢
  obtain ⟨e | a, s'⟩ := xs
  · cases b with
    | error e' => exact hend
    | ok b => exact hend.elim
  · cases b with
    | error e' => exact hend.elim
    | ok b => exact hQ a b s' hend

end EnvM
