import Mathlib.Tactic.Common

/-!
# The first match in a list

What a search loop that stops at the first element with a property looks for:
the element and its position.  `FirstMatch` follows the loop (`cons_iff`), has
at most one answer (`unique`), has one when some element matches
(`exists_iff`), and a search that tests less finds it exactly when what it stops
at passes the full test (`of_imp`).
-/

variable {α : Type}

/-- `a`, at position `k` of `as`, is the first element with `p`. -/
structure FirstMatch (p : α → Prop) (as : List α) (k : Nat) (a : α) : Prop where
  get : as[k]? = some a
  holds : p a
  before : ∀ j < k, ∀ b, as[j]? = some b → ¬ p b

namespace FirstMatch

variable {p q : α → Prop} {a b : α} {as : List α} {j k : Nat}

theorem mem (h : FirstMatch p as k a) : a ∈ as := List.mem_of_getElem? h.get

theorem not_nil : ¬ FirstMatch p [] k a := by
  intro h
  simpa using h.get

/-- An element with the property in front is the first. -/
theorem zero (h : p a) : FirstMatch p (a :: as) 0 a := by
  refine ⟨rfl, h, ?_⟩
  intro j hj
  omega

/-- An element without the property in front moves the first one by a place. -/
theorem succ_iff (hb : ¬ p b) : FirstMatch p (b :: as) (k + 1) a ↔ FirstMatch p as k a := by
  constructor
  · intro h
    refine ⟨by simpa using h.get, h.holds, ?_⟩
    intro j hj c hc
    exact h.before (j + 1) (by omega) c (by simpa using hc)
  · intro h
    refine ⟨by simpa using h.get, h.holds, ?_⟩
    intro j hj c hc
    cases j with
    | zero =>
      obtain rfl : b = c := by simpa using hc
      exact hb
    | succ j => exact h.before j (by omega) c (by simpa using hc)

/-- One round of the loop. -/
theorem cons_iff :
    FirstMatch p (b :: as) k a ↔
      (p b ∧ k = 0 ∧ a = b) ∨ (¬ p b ∧ ∃ j, k = j + 1 ∧ FirstMatch p as j a) := by
  cases k with
  | zero =>
    constructor
    · intro h
      obtain rfl : b = a := by simpa using h.get
      exact .inl ⟨h.holds, rfl, rfl⟩
    · rintro (⟨hb, _, rfl⟩ | ⟨_, j, hj, _⟩)
      · exact zero hb
      · omega
  | succ k =>
    constructor
    · intro h
      have hb : ¬ p b := h.before 0 (by omega) b rfl
      exact .inr ⟨hb, k, rfl, (succ_iff hb).mp h⟩
    · rintro (⟨_, hk, _⟩ | ⟨hb, j, hj, h⟩)
      · omega
      · obtain rfl : k = j := by omega
        exact (succ_iff hb).mpr h

theorem unique (h : FirstMatch p as k a) (h' : FirstMatch p as j b) : k = j ∧ a = b := by
  have hkj : k = j := by
    rcases Nat.lt_trichotomy k j with hlt | heq | hlt
    · exact absurd h.holds (h'.before k hlt a h.get)
    · exact heq
    · exact absurd h'.holds (h.before j hlt b h'.get)
  subst hkj
  exact ⟨rfl, Option.some.inj (h.get.symm.trans h'.get)⟩

/-- There is a first element with the property when there is any. -/
theorem exists_iff : (∃ k a, FirstMatch p as k a) ↔ ∃ a ∈ as, p a := by
  constructor
  · intro hgiven
    obtain ⟨k, a, h⟩ := hgiven
    exact ⟨a, h.mem, h.holds⟩
  · intro hgiven
    obtain ⟨a, ha, hp⟩ := hgiven
    induction as with
    | nil => simp at ha
    | cons b as ih =>
      by_cases hb : p b
      · exact ⟨0, b, zero hb⟩
      · have hmem : a ∈ as := by
          rcases List.mem_cons.mp ha with rfl | hmem
          · exact absurd hp hb
          · exact hmem
        obtain ⟨k, c, h⟩ := ih hmem
        exact ⟨k + 1, c, (succ_iff hb).mpr h⟩

/-- What a weaker test stops at is the first with `p` if it has `p`. -/
theorem of_imp (hpq : ∀ a, p a → q a) (h : FirstMatch q as k a) (ha : p a) :
    FirstMatch p as k a :=
  ⟨h.get, ha, fun j hj b hb hp => h.before j hj b hb (hpq b hp)⟩

end FirstMatch
