import Mathlib.Data.Nat.Digits.Lemmas

/-!
# Byte strings as numbers

Little-endian readings of byte strings: the number a string denotes (`ofLE`),
the fixed-width encoding (`toLE`) and the minimal encoding (`minLE`), which
`Nat.digits` gives.  The fixed-width pair is a bijection onto the strings of
one length; the minimal encoding is the one whose last byte is nonzero.
-/

/-- A string of bytes. -/
abbrev Bytes := List UInt8

namespace Bytes

/-! ## All bytes -/

/-- What holds of the numbers below `k`, tried one by one, holds of the bytes below `k`. -/
theorem forall_lt {k : Nat} {P : UInt8 → Prop} (h : ∀ n : Fin k, P (UInt8.ofNat n)) :
    ∀ b : UInt8, b.toNat < k → P b := by
  intro b hb
  have hP := h ⟨b.toNat, hb⟩
  rwa [UInt8.ofNat_toNat] at hP

theorem forall_byte {P : UInt8 → Prop} (h : ∀ n : Fin 256, P (UInt8.ofNat n)) : ∀ b, P b :=
  fun b => forall_lt h b b.toNat_lt

theorem forall_nibble {P : UInt8 → Prop} (h : ∀ n : Fin 16, P (UInt8.ofNat n)) :
    ∀ b < 16, P b :=
  fun b hb => forall_lt h b (UInt8.lt_iff_toNat_lt.mp hb)

/-- The bytes of a string one by one, and not all the bytes there are. -/
theorem forall_mem {P : UInt8 → Prop} [DecidablePred P] {bs : List UInt8}
    (h : bs.all (fun b => P b) = true) : ∀ b ∈ bs, P b :=
  fun b hb => of_decide_eq_true (List.all_eq_true.mp h b hb)

/-! ## Little-endian strings -/

/-- The number a little-endian byte string denotes. -/
def ofLE : Bytes → Nat
  | [] => 0
  | b :: bs => b.toNat + 256 * ofLE bs

/-- The `k` low bytes of `n`, least significant first. -/
def toLE : Nat → Nat → Bytes
  | 0, _ => []
  | k + 1, n => UInt8.ofNat n :: toLE k (n / 256)

/-- The bytes of `n`, least significant first, with no leading zero byte. -/
def minLE (n : Nat) : Bytes :=
  (Nat.digits 256 n).map UInt8.ofNat

@[simp] theorem ofLE_nil : ofLE [] = 0 := rfl

@[simp] theorem ofLE_cons (b : UInt8) (bs : Bytes) :
    ofLE (b :: bs) = b.toNat + 256 * ofLE bs := rfl

theorem ofLE_append (xs ys : Bytes) :
    ofLE (xs ++ ys) = ofLE xs + 256 ^ xs.length * ofLE ys := by
  induction xs with
  | nil => simp
  | cons x xs ih =>
    simp only [List.cons_append, ofLE_cons, ih, List.length_cons, Nat.pow_succ]
    ring

theorem ofLE_lt (bs : Bytes) : ofLE bs < 256 ^ bs.length := by
  induction bs with
  | nil => simp
  | cons b bs ih =>
    have hb : b.toNat < 256 := b.toNat_lt
    simp only [ofLE_cons, List.length_cons, Nat.pow_succ]
    omega

/-! ## Fixed width -/

@[simp] theorem length_toLE (k n : Nat) : (toLE k n).length = k := by
  induction k generalizing n with
  | zero => rfl
  | succ k ih => simp [toLE, ih]

/-- A fixed-width encoding denotes the number modulo the width. -/
theorem ofLE_toLE (k n : Nat) : ofLE (toLE k n) = n % 256 ^ k := by
  induction k generalizing n with
  | zero => simp [toLE, Nat.mod_one]
  | succ k ih =>
    have hbyte : (UInt8.ofNat n).toNat = n % 256 := UInt8.toNat_ofNat'
    rw [toLE, ofLE_cons, ih, hbyte, Nat.pow_succ, Nat.mul_comm (256 ^ k) 256, Nat.mod_mul]

theorem ofLE_toLE_of_lt {k n : Nat} (h : n < 256 ^ k) : ofLE (toLE k n) = n := by
  rw [ofLE_toLE, Nat.mod_eq_of_lt h]

/-- Every byte string is the fixed-width encoding of the number it denotes. -/
theorem toLE_ofLE (bs : Bytes) : toLE bs.length (ofLE bs) = bs := by
  induction bs with
  | nil => rfl
  | cons b bs ih =>
    have hb : b.toNat < 256 := b.toNat_lt
    -- the number splits into its low byte and the rest
    have hdiv : (b.toNat + 256 * ofLE bs) / 256 = ofLE bs := by omega
    have hbyte : UInt8.ofNat (b.toNat + 256 * ofLE bs) = b := by
      apply UInt8.toNat_inj.mp
      rw [UInt8.toNat_ofNat']
      omega
    simp only [ofLE_cons, List.length_cons, toLE, hdiv, hbyte, ih]

/-- Strings of one length that denote one number are equal. -/
theorem ofLE_inj {xs ys : Bytes} (hlen : xs.length = ys.length) (h : ofLE xs = ofLE ys) :
    xs = ys := by
  rw [← toLE_ofLE xs, ← toLE_ofLE ys, hlen, h]

/-! ## Big-endian strings -/

theorem ofLE_reverse_cons (b : UInt8) (bs : Bytes) :
    ofLE (b :: bs).reverse = ofLE bs.reverse + 256 ^ bs.length * b.toNat := by
  simp [ofLE_append]

/-- Between big-endian strings of one length the order of the numbers is that of the
    strings. -/
theorem ofLE_reverse_lt_iff {xs ys : Bytes} (hlen : xs.length = ys.length) :
    ofLE xs.reverse < ofLE ys.reverse ↔ xs < ys := by
  induction xs generalizing ys with
  | nil =>
    obtain rfl : ys = [] := List.eq_nil_of_length_eq_zero hlen.symm
    simp
  | cons x xs ih =>
    obtain ⟨y, ys, rfl⟩ := List.exists_cons_of_length_eq_add_one hlen.symm
    have hlen' : xs.length = ys.length := by simpa using hlen
    have hx := ofLE_lt xs.reverse
    have hy := ofLE_lt ys.reverse
    rw [List.length_reverse] at hx hy
    rw [List.cons_lt_cons_iff, ofLE_reverse_cons, ofLE_reverse_cons, ← ih hlen', hlen',
      UInt8.lt_iff_toNat_lt, ← UInt8.toNat_inj]
    rw [hlen'] at hx
    -- the first bytes decide, and the rest is less than one unit of them
    rcases Nat.lt_trichotomy x.toNat y.toNat with hlt | heq | hgt
    · have hmul : 256 ^ ys.length * (x.toNat + 1) ≤ 256 ^ ys.length * y.toNat :=
        Nat.mul_le_mul_left _ hlt
      rw [Nat.mul_succ] at hmul
      constructor
      · intro _
        exact .inl hlt
      · intro _
        omega
    · rw [heq]
      omega
    · have hmul : 256 ^ ys.length * (y.toNat + 1) ≤ 256 ^ ys.length * x.toNat :=
        Nat.mul_le_mul_left _ hgt
      rw [Nat.mul_succ] at hmul
      omega

/-! ## Minimal width -/

@[simp] theorem minLE_zero : minLE 0 = [] := by
  simp [minLE]

theorem minLE_eq_nil_iff (n : Nat) : minLE n = [] ↔ n = 0 := by
  simp [minLE, Nat.digits_eq_nil_iff_eq_zero]

private theorem ofLE_map_ofNat (ds : List Nat) (h : ∀ d ∈ ds, d < 256) :
    ofLE (ds.map UInt8.ofNat) = Nat.ofDigits 256 ds := by
  induction ds with
  | nil => simp
  | cons d ds ih =>
    have hd : d < 256 := h d (by simp)
    have hds : ∀ e ∈ ds, e < 256 := fun e he => h e (by simp [he])
    rw [List.map_cons, ofLE_cons, ih hds, Nat.ofDigits_cons, UInt8.toNat_ofNat',
      Nat.mod_eq_of_lt (by simpa using hd)]

/-- The minimal encoding denotes the number it encodes. -/
theorem ofLE_minLE (n : Nat) : ofLE (minLE n) = n := by
  rw [minLE, ofLE_map_ofNat _ fun d hd => Nat.digits_lt_base (by omega) hd,
    Nat.ofDigits_digits]

/-- The minimal encoding of `n` fits in `k` bytes when `n` does. -/
theorem length_minLE_le_iff (n k : Nat) : (minLE n).length ≤ k ↔ n < 256 ^ k := by
  rw [minLE, List.length_map]
  exact Nat.digits_length_le_iff (by omega) n

/-- The most significant byte of a minimal encoding is nonzero. -/
theorem minLE_getLast_ne_zero {n : Nat} (h : minLE n ≠ []) : (minLE n).getLast h ≠ 0 := by
  have hn : n ≠ 0 := fun h0 => h ((minLE_eq_nil_iff n).mpr h0)
  have hd : Nat.digits 256 n ≠ [] := Nat.digits_ne_nil_iff_ne_zero.mpr hn
  have hlast := Nat.getLast_digit_ne_zero 256 hn
  have hlt : (Nat.digits 256 n).getLast hd < 256 :=
    Nat.digits_lt_base (by omega) (List.getLast_mem hd)
  intro h0
  apply hlast
  have hmap : (minLE n).getLast h = UInt8.ofNat ((Nat.digits 256 n).getLast hd) := by
    simp only [minLE, List.getLast_map]
  have : (UInt8.ofNat ((Nat.digits 256 n).getLast hd)).toNat = 0 := by
    rw [← hmap, h0]; rfl
  rwa [UInt8.toNat_ofNat', Nat.mod_eq_of_lt (by simpa using hlt)] at this

/-- A string whose last byte is nonzero is a minimal encoding. -/
theorem minLE_ofLE {bs : Bytes} (h : ∀ hne : bs ≠ [], bs.getLast hne ≠ 0) :
    minLE (ofLE bs) = bs := by
  -- strings of one length with one value are equal, so the length is all that is left
  have hlen : (minLE (ofLE bs)).length = bs.length := by
    apply Nat.le_antisymm
    · exact (length_minLE_le_iff _ _).mpr (ofLE_lt bs)
    · rcases List.eq_nil_or_concat' bs with rfl | ⟨xs, b, rfl⟩
      · simp
      · have hb : b ≠ 0 := by simpa using h (by simp)
        have hb0 : 0 < b.toNat := by
          rcases Nat.eq_zero_or_pos b.toNat with h0 | h0
          · exact absurd (UInt8.toNat_inj.mp h0) hb
          · exact h0
        -- a shorter string cannot hold the nonzero top byte
        by_contra hlt
        have hle : (minLE (ofLE (xs ++ [b]))).length ≤ xs.length := by
          simp only [List.length_append, List.length_singleton] at hlt
          omega
        have hlt' := (length_minLE_le_iff _ _).mp hle
        rw [ofLE_append] at hlt'
        have : 256 ^ xs.length * 1 ≤ 256 ^ xs.length * ofLE [b] :=
          Nat.mul_le_mul_left _ (by rw [ofLE_cons, ofLE_nil]; omega)
        omega
  exact ofLE_inj hlen (ofLE_minLE _)

end Bytes
