import Mathlib.Data.Nat.Digits.Lemmas

/-!
# Numerals with leading zeros

A numeral is its digits, most significant first.  Without its leading zeros it is
the one `Nat.digits` gives for its value, so a numeral is determined by its value
and the number of its leading zeros.
-/

namespace Numeral

/-- The value of a numeral in base `b`. -/
def value (b : Nat) (ds : List Nat) : Nat := Nat.ofDigits b ds.reverse

/-- The number of leading zeros. -/
def zeros (ds : List Nat) : Nat := (ds.takeWhile (· == 0)).length

/-- The numeral of a number without leading zeros. -/
def ofNat (b n : Nat) : List Nat := (Nat.digits b n).reverse

@[simp] theorem value_nil (b : Nat) : value b [] = 0 := by
  simp [value]

theorem value_append_singleton (b : Nat) (ds : List Nat) (d : Nat) :
    value b (ds ++ [d]) = value b ds * b + d := by
  simp [value, Nat.ofDigits_cons]
  ring

theorem value_append (b : Nat) (ds es : List Nat) :
    value b (ds ++ es) = value b ds * b ^ es.length + value b es := by
  simp [value, Nat.ofDigits_append]
  ring

@[simp] theorem value_zero_cons (b : Nat) (ds : List Nat) : value b (0 :: ds) = value b ds := by
  rw [value, Nat.ofDigits_reverse_zero_cons, value]

@[simp] theorem value_ofNat (b n : Nat) : value b (ofNat b n) = n := by
  rw [value, ofNat, List.reverse_reverse, Nat.ofDigits_digits]

theorem ofNat_lt {b : Nat} (hb : 1 < b) (n : Nat) : ∀ d ∈ ofNat b n, d < b := by
  intro d hd
  exact Nat.digits_lt_base hb (List.mem_reverse.mp hd)

/-- Digits are read from the left, each shifting what was read by one place. -/
theorem foldl_eq_value (b : Nat) (ds : List Nat) :
    ds.foldl (fun n d => n * b + d) 0 = value b ds := by
  induction ds using List.reverseRecOn with
  | nil => simp
  | append_singleton ds d ih =>
    rw [List.foldl_append, ih, value_append_singleton]
    rfl

/-! ## Leading zeros -/

theorem value_replicate_append (b k : Nat) (ds : List Nat) :
    value b (List.replicate k 0 ++ ds) = value b ds := by
  induction k with
  | zero => simp
  | succ k ih => rw [List.replicate_succ, List.cons_append, value_zero_cons, ih]

/-- A list is the run of `a` at its front and the rest. -/
theorem replicate_append_dropWhile {α : Type} [DecidableEq α] (a : α) (l : List α) :
    List.replicate (l.takeWhile (· == a)).length a ++ l.dropWhile (· == a) = l := by
  induction l with
  | nil => rfl
  | cons b l ih =>
    by_cases hb : b = a
    · subst hb
      simpa [List.replicate_succ] using ih
    · simp [hb]

/-- A run of `a` ends at the first other element. -/
theorem length_takeWhile_replicate {α : Type} [DecidableEq α] {a : α} {l : List α}
    (h : ∀ hne : l ≠ [], l.head hne ≠ a) (k : Nat) :
    ((List.replicate k a ++ l).takeWhile (· == a)).length = k := by
  induction k with
  | zero =>
    cases l with
    | nil => rfl
    | cons b l =>
      have hb : b ≠ a := h (by simp)
      simp [hb]
  | succ k ih =>
    rw [List.replicate_succ, List.cons_append, List.takeWhile_cons_of_pos (by simp),
      List.length_cons, ih]

/-- The numeral of a number starts with no zero. -/
theorem zeros_replicate_ofNat (b k n : Nat) :
    zeros (List.replicate k 0 ++ ofNat b n) = k := by
  apply length_takeWhile_replicate
  intro hne
  have hn : n ≠ 0 := by
    intro h0
    simp [ofNat, h0] at hne
  rw [← List.getLast_reverse (by simpa using hne)]
  simpa [ofNat] using Nat.getLast_digit_ne_zero b hn

/-- What follows the leading zeros is the numeral of the value. -/
theorem ofNat_value {b : Nat} (hb : 1 < b) {ds : List Nat} (hds : ∀ d ∈ ds, d < b) :
    ofNat b (value b ds) = ds.dropWhile (· == 0) := by
  induction ds with
  | nil => simp [ofNat]
  | cons d ds ih =>
    by_cases hd : d = 0
    · subst hd
      rw [value_zero_cons, ih fun e he => hds e (by simp [he])]
      simp
    · have hdrop : (d :: ds).dropWhile (· == 0) = d :: ds := by simp [hd]
      rw [hdrop, ofNat, value, Nat.digits_ofDigits b hb, List.reverse_reverse]
      · intro e he
        exact hds e (List.mem_reverse.mp he)
      · simp [hd]

/-- A numeral is determined by its value and its leading zeros. -/
theorem eq_replicate_ofNat {b : Nat} (hb : 1 < b) {ds : List Nat} (hds : ∀ d ∈ ds, d < b) :
    List.replicate (zeros ds) 0 ++ ofNat b (value b ds) = ds := by
  rw [ofNat_value hb hds]
  exact replicate_append_dropWhile 0 ds

/-- A numeral of `k` digits denotes a number below `b ^ k`. -/
theorem value_lt {b : Nat} (hb : 1 < b) {ds : List Nat} (hds : ∀ d ∈ ds, d < b) :
    value b ds < b ^ ds.length := by
  have hlt := Nat.ofDigits_lt_base_pow_length hb
    fun d (hd : d ∈ ds.reverse) => hds d (List.mem_reverse.mp hd)
  rwa [List.length_reverse] at hlt

end Numeral
