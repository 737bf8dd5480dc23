import CrossChain.ForStd.EnvM

/-!
# Traces against a script

A script is a list of predicates, one for each event.  `Script.Full` is a trace
that plays the whole of it, `Script.Begins` one that stops somewhere.  A program
`Plays` a script if what it adds to the trace plays the whole of it where the
program returns, and begins it where the program stops.  Scripts of programs run
one after the other are appended (`plays_bind`).
-/

namespace EnvM

/-- What may happen, event by event. -/
abbrev Script (τ : Type) := List (τ → Prop)

namespace Script

variable {τ : Type} {script script' : Script τ} {trace trace' : List τ}

/-- The trace plays the whole script. -/
inductive Full : Script τ → List τ → Prop
  | nil : Full [] []
  | cons {p : τ → Prop} {a : τ} {script : Script τ} {trace : List τ} :
    p a → Full script trace → Full (p :: script) (a :: trace)

/-- The trace plays the script up to some event. -/
inductive Begins : Script τ → List τ → Prop
  | nil {script : Script τ} : Begins script []
  | cons {p : τ → Prop} {a : τ} {script : Script τ} {trace : List τ} :
    p a → Begins script trace → Begins (p :: script) (a :: trace)

theorem Full.append (h : Full script trace) (h' : Full script' trace') :
    Full (script ++ script') (trace ++ trace') := by
  induction h with
  | nil => exact h'
  | cons ha _ ih => exact .cons ha ih

/-- What begins a script begins every continuation of it. -/
theorem Begins.append_right (h : Begins script trace) (script' : Script τ) :
    Begins (script ++ script') trace := by
  induction h with
  | nil => exact .nil
  | cons ha _ ih => exact .cons ha ih

theorem Full.append_begins (h : Full script trace) (h' : Begins script' trace') :
    Begins (script ++ script') (trace ++ trace') := by
  induction h with
  | nil => exact h'
  | cons ha _ ih => exact .cons ha ih

/-- A beginning of two scripts in a row is one of the first, and then one of the second. -/
theorem Begins.of_append (h : Begins (script ++ script') trace) :
    ∃ trace₁ trace₂, trace = trace₁ ++ trace₂ ∧ Begins script trace₁ ∧ Begins script' trace₂ := by
  induction script generalizing trace with
  | nil => exact ⟨[], trace, rfl, .nil, h⟩
  | cons p script ih =>
    cases h with
    | nil => exact ⟨[], [], rfl, .nil, .nil⟩
    | cons ha h =>
      obtain ⟨trace₁, trace₂, rfl, h₁, h₂⟩ := ih h
      exact ⟨_ :: trace₁, trace₂, rfl, .cons ha h₁, h₂⟩

theorem Begins.length_le (h : Begins script trace) : trace.length ≤ script.length := by
  induction h with
  | nil => exact Nat.zero_le _
  | cons _ _ ih => exact Nat.succ_le_succ ih

/-- Every event of the trace is one of the script. -/
theorem Begins.exists_of_mem (h : Begins script trace) {a : τ} (ha : a ∈ trace) :
    ∃ p ∈ script, p a := by
  induction h with
  | nil => cases ha
  | @cons p b script trace hb _ ih =>
    obtain heq | hmem := List.mem_cons.mp ha
    · subst heq
      exact ⟨p, List.mem_cons_self, hb⟩
    · obtain ⟨q, hq, hqa⟩ := ih hmem
      exact ⟨q, List.mem_cons_of_mem p hq, hqa⟩

/-- Where each part has one event at most, what begins the whole plays the first parts. -/
theorem Begins.exists_full {α : Type} {f : α → Script τ} (hf : ∀ a, (f a).length ≤ 1) {l : List α}
    (h : Begins (l.flatMap f) trace) :
    ∃ l₁ l₂, l = l₁ ++ l₂ ∧ Full (l₁.flatMap f) trace := by
  induction l generalizing trace with
  | nil =>
    cases h
    exact ⟨[], [], rfl, .nil⟩
  | cons a l ih =>
    rw [List.flatMap_cons] at h
    have hlength := hf a
    cases hscript : f a with
    | nil =>
      rw [hscript, List.nil_append] at h
      obtain ⟨l₁, l₂, rfl, hl₁⟩ := ih h
      refine ⟨a :: l₁, l₂, rfl, ?_⟩
      rwa [List.flatMap_cons, hscript]
    | cons p script =>
      -- at most one event, so a part is either played whole or not begun
      rw [hscript, List.length_cons] at hlength
      obtain rfl : script = [] := List.length_eq_zero_iff.mp (by omega)
      rw [hscript] at h
      cases h with
      | nil => exact ⟨[], a :: l, rfl, .nil⟩
      | cons hp h =>
        obtain ⟨l₁, l₂, rfl, hl₁⟩ := ih h
        refine ⟨a :: l₁, l₂, rfl, ?_⟩
        rw [List.flatMap_cons, hscript]
        exact .cons hp hl₁

/-- No event of the script is one that `q` counts. -/
def Quiet (q : τ → Bool) (script : Script τ) : Prop := ∀ p ∈ script, ∀ a, p a → q a = false

/-- What is counted comes after a quiet part: at most as often as the rest is long. -/
theorem Begins.countP_le {q : τ → Bool} (hquiet : Quiet q script)
    (h : Begins (script ++ script') trace) : trace.countP q ≤ script'.length := by
  obtain ⟨trace₁, trace₂, rfl, h₁, h₂⟩ := h.of_append
  have hnone : trace₁.countP q = 0 := by
    rw [List.countP_eq_zero]
    intro a ha
    obtain ⟨p, hp, hpa⟩ := h₁.exists_of_mem ha
    rw [hquiet p hp a hpa]
    exact Bool.false_ne_true
  have hlast : trace₂.countP q ≤ trace₂.length := List.countP_le_length
  rw [List.countP_append, hnone]
  have hlength := h₂.length_le
  omega

end Script

/-! ## Programs that play a script -/

section

variable {ρ σ ε ε' α β τ : Type} (obs : σ → List τ)

/-- Every run of the program adds to the trace what the script says: the whole of it if the
    run returns. -/
def Plays (script : Script τ) (x : EnvM ρ σ ε α) : Prop :=
  ∀ r s, ∃ trace, obs (x r s).2 = obs s ++ trace ∧ script.Begins trace ∧
    ∀ a, (x r s).1 = .ok a → script.Full trace

/-- Every run of the program adds a beginning of the script. -/
def MayPlay (script : Script τ) (x : EnvM ρ σ ε α) : Prop :=
  ∀ r s, ∃ trace, obs (x r s).2 = obs s ++ trace ∧ script.Begins trace

variable {obs} {script script' : Script τ}

theorem Plays.mayPlay {x : EnvM ρ σ ε α} (h : Plays obs script x) : MayPlay obs script x := by
  intro r s
  obtain ⟨trace, hobs, hbegins, _⟩ := h r s
  exact ⟨trace, hobs, hbegins⟩

/-- A program whose runs add nothing. -/
theorem plays_nil {x : EnvM ρ σ ε α} (h : ∀ r s, obs (x r s).2 = obs s) : Plays obs [] x := by
  intro r s
  exact ⟨[], by rw [h, List.append_nil], .nil, fun _ _ => .nil⟩

theorem plays_pure (a : α) : Plays obs [] (pure a : EnvM ρ σ ε α) := plays_nil fun _ _ => rfl

theorem plays_ask : Plays obs [] (ask : EnvM ρ σ ε ρ) := plays_nil fun _ _ => rfl

theorem plays_ofExcept (x : Except ε α) : Plays obs [] (ofExcept x : EnvM ρ σ ε α) :=
  plays_nil fun _ _ => rfl

/-- A change that the trace does not show. -/
theorem plays_modify {g : σ → σ} (h : ∀ s, obs (g s) = obs s) :
    Plays obs [] (modify g : EnvM ρ σ ε Unit) := plays_nil fun _ s => h s

theorem plays_stop (e : ε) : Plays obs script (stop e : EnvM ρ σ ε α) := by
  intro r s
  refine ⟨[], (List.append_nil _).symm, .nil, ?_⟩
  intro a h
  cases h

theorem plays_ite {c : Prop} [Decidable c] {x y : EnvM ρ σ ε α} (hx : Plays obs script x)
    (hy : Plays obs script y) : Plays obs script (if c then x else y) := by
  split
  · exact hx
  · exact hy

/-- The rest of the program goes on where the first part ended, with what it returned. -/
theorem plays_bind {x : EnvM ρ σ ε α} {f : α → EnvM ρ σ ε β} (hx : Plays obs script x)
    (hf : ∀ a, Plays obs script' (f a)) : Plays obs (script ++ script') (x >>= f) := by
  intro r s
  obtain ⟨trace, hobs, hbegins, hfull⟩ := hx r s
  rw [bind_run]
  generalize x r s = res at hobs hfull
  obtain ⟨_ | a, s'⟩ := res
  · -- the first part stopped: the script is begun, and nothing was returned
    refine ⟨trace, hobs, hbegins.append_right script', ?_⟩
    intro b h
    cases h
  · obtain ⟨trace', hobs', hbegins', hfull'⟩ := hf a r s'
    -- the first part returned, so it has played its whole script before the second begins
    have hplayed : script.Full trace := hfull a rfl
    refine ⟨trace ++ trace', ?_, hplayed.append_begins hbegins', ?_⟩
    · rw [hobs', hobs, List.append_assoc]
    · intro b h
      exact hplayed.append (hfull' b h)

/-- A first part that adds nothing. -/
theorem plays_bind_nil {x : EnvM ρ σ ε α} {f : α → EnvM ρ σ ε β} (hx : Plays obs [] x)
    (hf : ∀ a, Plays obs script (f a)) : Plays obs script (x >>= f) := plays_bind hx hf

/-- A rest that adds nothing. -/
theorem plays_bind_right {x : EnvM ρ σ ε α} {f : α → EnvM ρ σ ε β} (hx : Plays obs script x)
    (hf : ∀ a, Plays obs [] (f a)) : Plays obs script (x >>= f) := by
  have h : Plays obs (script ++ []) (x >>= f) := plays_bind hx hf
  rwa [List.append_nil] at h

theorem mayPlay_bind_nil {x : EnvM ρ σ ε α} {f : α → EnvM ρ σ ε β} (hx : Plays obs [] x)
    (hf : ∀ a, (∃ r s, (x r s).1 = .ok a) → MayPlay obs script (f a)) :
    MayPlay obs script (x >>= f) := by
  intro r s
  obtain ⟨trace, hobs, hbegins, _⟩ := hx r s
  have hnil : trace = [] := by
    cases hbegins
    rfl
  rw [hnil, List.append_nil] at hobs
  have hran : ∀ a, (x r s).1 = .ok a → MayPlay obs script (f a) := fun a h => hf a ⟨r, s, h⟩
  rw [bind_run]
  generalize x r s = res at hobs hran
  obtain ⟨_ | a, s'⟩ := res
  · exact ⟨[], by rw [hobs, List.append_nil], .nil⟩
  · obtain ⟨trace', hobs', hbegins'⟩ := hran a rfl r s'
    exact ⟨trace', by rw [hobs', hobs], hbegins'⟩

/-- Going on after a stop adds nothing, but the script may not have been played to its end. -/
theorem mayPlay_recover {x : EnvM ρ σ ε α} {h : ε → Except ε' α} (hx : MayPlay obs script x) :
    MayPlay obs script (recover x h) := by
  intro r s
  obtain ⟨trace, hobs, hbegins⟩ := hx r s
  refine ⟨trace, ?_, hbegins⟩
  rw [recover]
  generalize x r s = res at hobs
  obtain ⟨_ | a, s'⟩ := res
  · exact hobs
  · exact hobs

/-- A rest that adds nothing. -/
theorem mayPlay_bind_right {x : EnvM ρ σ ε α} {f : α → EnvM ρ σ ε β} (hx : MayPlay obs script x)
    (hf : ∀ a, Plays obs [] (f a)) : MayPlay obs script (x >>= f) := by
  intro r s
  obtain ⟨trace, hobs, hbegins⟩ := hx r s
  rw [bind_run]
  generalize x r s = res at hobs
  obtain ⟨_ | a, s'⟩ := res
  · exact ⟨trace, hobs, hbegins⟩
  · obtain ⟨trace', hobs', hbegins', _⟩ := hf a r s'
    have hnil : trace' = [] := by
      cases hbegins'
      rfl
    refine ⟨trace, ?_, hbegins⟩
    rw [hobs', hnil, List.append_nil, hobs]

end

end EnvM
