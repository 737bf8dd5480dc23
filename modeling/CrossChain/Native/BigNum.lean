import CrossChain.Native.Basic

/-!
# CBigNum

`CBigNum` wraps an OpenSSL `BIGNUM`, here an `Int`.  Its conversions to and
from bytes go through the MPI format of OpenSSL's bn library, given here as
documented: four bytes of big-endian length, then the big-endian magnitude with
a zero byte in front if its top bit is set; the top bit of the first byte is
the sign.

The constructor takes an `int`, so a 64-bit argument is first reduced to 32
bits; `toInt32` is that conversion and `ofInt64` the constructor as the 64-bit
callers of script.h reach it.
-/

namespace CrossChain

namespace CBigNum

/-- Four big-endian bytes of `n`, the length header of the MPI format. -/
def be32 (n : Nat) : Bytes := (Bytes.toLE 4 n).reverse

/-- The number a big-endian byte string denotes (`BN_bin2bn`). -/
def bin2bn (d : Bytes) : Nat := Bytes.ofLE d.reverse

/-- The sign and body of an MPI, big-endian, for the magnitude bytes `mag`. -/
def mpiBody (neg : Bool) : Bytes → Bytes
  | [] => []
  | b :: bs =>
    if 0x80 ≤ b then (if neg then 0x80 else 0) :: b :: bs
    else (if neg then b ||| 0x80 else b) :: bs

/-- `BN_bn2mpi`. -/
def bn2mpi (a : Int) : Bytes :=
  let body := mpiBody (a < 0) (Bytes.minLE a.natAbs).reverse
  be32 body.length ++ body

/-- The conversion of a 64-bit argument to an `int`. -/
def toInt32 (n : Int) : Int := n.bmod (2 ^ 32)

/-- The number an MPI body denotes, the sign in the top bit of the first byte. -/
def mpiValue : Bytes → Int
  | [] => 0
  | b :: bs =>
    if 0x80 ≤ b then 2 ^ (8 * (bs.length + 1) - 1) - bin2bn (b :: bs)
    else bin2bn (b :: bs)

/-- `BN_mpi2bn` on `d` and its size, which it takes as an `int`; `none` where it fails,
    on a length header that does not fit. -/
def mpi2bn (d : Bytes) : Option Int :=
  let len := toInt32 d.length
  let n := bin2bn (d.take 4)
  if len < 4 ∨ n + 4 ≠ len then none
  else some (mpiValue ((d.drop 4).take n))

/-- The loop of `setint64` over the bytes of `n`, most significant first; the
    flag is `fLeadingZeroes`. -/
def setint64Go (fNegative : Bool) : Bool → Bytes → Bytes
  | _, [] => []
  | true, c :: cs =>
    if c = 0 then setint64Go fNegative true cs
    else if c &&& 0x80 ≠ 0 then
      (if fNegative then 0x80 else 0) :: c :: setint64Go fNegative false cs
    else (if fNegative then c ||| 0x80 else c) :: setint64Go fNegative false cs
  | false, c :: cs => c :: setint64Go fNegative false cs

/-- `setint64`: `sn` written as an MPI and read back. -/
def setint64 (sn : Int) : Int :=
  let pch := setint64Go (sn < 0) true (Bytes.toLE 8 sn.natAbs).reverse
  (mpi2bn (be32 pch.length ++ pch)).getD 0

/-- `CBigNum bn(n)` for a 64-bit `n`: `CBigNum(int n)` after the conversion. -/
def ofInt64 (n : Int) : Int :=
  if 0 ≤ toInt32 n then toInt32 n else setint64 (toInt32 n)

/-- `setvch`: little-endian bytes with the sign in the top bit of the last. -/
def setvch (vch : Bytes) : Int :=
  (mpi2bn (be32 vch.length ++ vch.reverse)).getD 0

/-- `getvch`: the MPI without its length, reversed. -/
def getvch (a : Int) : Bytes :=
  let vch := bn2mpi a
  if vch.length ≤ 4 then [] else (vch.drop 4).reverse

/-- `getint`, over the magnitude as `BN_get_word` gives it: all ones past 64 bits. -/
def getint (a : Int) : Int :=
  let n := if a.natAbs < 2 ^ 64 then a.natAbs else 2 ^ 64 - 1
  if 0 ≤ a then (if 2 ^ 31 - 1 < n then 2 ^ 31 - 1 else n)
  else if 2 ^ 31 - 1 < n then -2 ^ 31 else -n

/-! ## What the conversions compute -/

@[simp] theorem length_be32 (n : Nat) : (be32 n).length = 4 := by simp [be32]

theorem bin2bn_be32 {n : Nat} (h : n < 2 ^ 32) : bin2bn (be32 n) = n := by
  rw [bin2bn, be32, List.reverse_reverse]
  exact Bytes.ofLE_toLE_of_lt h

theorem bin2bn_cons (b : UInt8) (bs : Bytes) :
    bin2bn (b :: bs) = bin2bn bs + 256 ^ bs.length * b.toNat :=
  Bytes.ofLE_reverse_cons b bs

/-- Setting the top bit of a byte below 128 adds 128. -/
theorem toNat_or_top {b : UInt8} (h : b < 0x80) : (b ||| 0x80).toNat = b.toNat + 128 := by
  have hb : b.toNat < 2 ^ 7 := UInt8.lt_iff_toNat_lt.mp h
  rw [UInt8.toNat_or, Nat.or_comm]
  have := Nat.two_pow_add_eq_or_of_lt hb 1
  simp only [Nat.mul_one] at this
  change 2 ^ 7 ||| b.toNat = b.toNat + 128
  omega

/-- The mask test of `setint64` is the comparison with 128. -/
theorem and_top_ne_zero_iff (b : UInt8) : b &&& 0x80 ≠ 0 ↔ 0x80 ≤ b := by
  revert b
  apply Bytes.forall_byte
  decide +kernel

theorem setint64Go_false (neg : Bool) (cs : Bytes) : setint64Go neg false cs = cs := by
  induction cs with
  | nil => rfl
  | cons c cs ih => rw [setint64Go, ih]

/-- The loop drops the leading zero bytes and writes the rest as an MPI body. -/
theorem setint64Go_true (neg : Bool) (cs : Bytes) :
    setint64Go neg true cs = mpiBody neg (cs.dropWhile (· == 0)) := by
  induction cs with
  | nil => rfl
  | cons c cs ih =>
    -- a zero byte is dropped by both, any other ends the leading zeros
    by_cases h0 : c = 0
    · subst h0
      rw [setint64Go, if_pos rfl, ih]
      simp
    · have hdrop : (c :: cs).dropWhile (· == 0) = c :: cs := by simp [h0]
      rw [hdrop, setint64Go, if_neg h0, mpiBody, setint64Go_false]
      simp only [and_top_ne_zero_iff]

theorem bin2bn_dropWhile_zero (cs : Bytes) : bin2bn (cs.dropWhile (· == 0)) = bin2bn cs := by
  induction cs with
  | nil => rfl
  | cons c cs ih =>
    by_cases h0 : c = 0
    · subst h0
      rw [bin2bn_cons]
      simpa using ih
    · simp [h0]

theorem bin2bn_replicate_append (k : Nat) (cs : Bytes) :
    bin2bn (List.replicate k 0 ++ cs) = bin2bn cs := by
  induction k with
  | zero => simp
  | succ k ih =>
    rw [List.replicate_succ, List.cons_append, bin2bn_cons, ih]
    simp

/-- The bytes of a number are those of any big-endian string for it, less its leading
    zeros. -/
theorem minLE_bin2bn (cs : Bytes) :
    Bytes.minLE (bin2bn cs) = (cs.dropWhile (· == 0)).reverse := by
  rw [← bin2bn_dropWhile_zero, bin2bn]
  apply Bytes.minLE_ofLE
  intro hne
  have hne' : cs.dropWhile (· == 0) ≠ [] := by simpa using hne
  have hhead := List.head_dropWhile_not (· == 0) hne'
  rw [List.getLast_reverse]
  simpa using hhead

/-- The sign bit of a body of `k + 1` bytes. -/
theorem two_pow_sign (k : Nat) : (2 : Int) ^ (8 * (k + 1) - 1) = ((256 ^ k * 128 : Nat) : Int) := by
  have hexp : 8 * (k + 1) - 1 = 8 * k + 7 := by omega
  rw [hexp, pow_add, pow_mul]
  norm_num

/-- A number that fits an `int` is converted to itself. -/
theorem toInt32_eq_self {n : Int} (hlo : -2 ^ 31 ≤ n) (hhi : n < 2 ^ 31) : toInt32 n = n := by
  rw [toInt32, Int.bmod_eq_of_le (by omega) (by omega)]

/-- A body behind its length is read whole, when both fit an `int`. -/
theorem mpi2bn_be32 {body : Bytes} (hlen : body.length + 4 < 2 ^ 31) :
    mpi2bn (be32 body.length ++ body) = some (mpiValue body) := by
  have hhead : bin2bn (be32 body.length) = body.length := bin2bn_be32 (by omega)
  have hint : toInt32 ((be32 body.length ++ body).length : Nat) = body.length + 4 := by
    rw [toInt32_eq_self (by omega) (by simp; omega)]
    simp
    omega
  rw [mpi2bn]
  simp only [hint, List.take_left' (length_be32 _), List.drop_left' (length_be32 _), hhead,
    List.take_length]
  rw [if_neg (by omega)]

/-- A body written for the magnitude `m ≠ 0` denotes the signed number. -/
theorem mpiValue_mpiBody (neg : Bool) (m : Bytes) :
    mpiValue (mpiBody neg m) = if neg then -(bin2bn m : Int) else bin2bn m := by
  cases m with
  | nil => cases neg <;> simp [mpiBody, mpiValue, bin2bn]
  | cons b bs =>
    have hb : b.toNat < 256 := b.toNat_lt
    simp only [mpiBody]
    by_cases htop : 0x80 ≤ b
    · rw [if_pos htop]
      cases neg with
      | true =>
        -- the sign sits in a byte of its own
        simp only [↓reduceIte, mpiValue, show (0x80 : UInt8) ≤ 0x80 from by decide]
        rw [bin2bn_cons 0x80 (b :: bs), List.length_cons, two_pow_sign]
        change _ - ((_ + _ * 128 : Nat) : Int) = _
        push_cast
        ring
      | false =>
        -- a zero byte in front keeps the number positive
        have hz : ¬ (0x80 : UInt8) ≤ 0 := by decide
        simp only [Bool.false_eq_true, ↓reduceIte, mpiValue, hz]
        rw [bin2bn_cons 0 (b :: bs)]
        simp
    · rw [if_neg htop]
      have hlt : b < 0x80 := UInt8.not_le.mp htop
      cases neg with
      | true =>
        -- the sign goes into the free top bit
        have hor : 0x80 ≤ b ||| 0x80 := by
          rw [UInt8.le_iff_toNat_le, toNat_or_top hlt]
          change 128 ≤ _
          omega
        simp only [↓reduceIte, mpiValue, hor]
        rw [bin2bn_cons, bin2bn_cons, toNat_or_top hlt, two_pow_sign]
        push_cast
        ring
      | false => simp only [Bool.false_eq_true, ↓reduceIte, mpiValue, htop]

theorem length_mpiBody_le (neg : Bool) (m : Bytes) : (mpiBody neg m).length ≤ m.length + 1 := by
  cases m with
  | nil => simp [mpiBody]
  | cons b bs =>
    simp only [mpiBody]
    split <;> simp

/-- Reading back a body written for the magnitude `m ≠ 0` gives the signed number. -/
theorem mpi2bn_mpiBody (neg : Bool) (m : Bytes) (hlen : m.length + 5 < 2 ^ 31) :
    mpi2bn (be32 (mpiBody neg m).length ++ mpiBody neg m) =
      some (if neg then -(bin2bn m : Int) else bin2bn m) := by
  have hbody := length_mpiBody_le neg m
  rw [mpi2bn_be32 (by omega), mpiValue_mpiBody]

/-- `setint64` keeps every 64-bit value. -/
theorem setint64_eq {sn : Int} (h : sn.natAbs < 2 ^ 64) : setint64 sn = sn := by
  have hlen : ((Bytes.toLE 8 sn.natAbs).reverse.dropWhile (· == 0)).length + 5 < 2 ^ 31 := by
    have := (List.dropWhile_suffix (· == 0) (l := (Bytes.toLE 8 sn.natAbs).reverse)).length_le
    simp only [List.length_reverse, Bytes.length_toLE] at this
    omega
  have hval : bin2bn ((Bytes.toLE 8 sn.natAbs).reverse.dropWhile (· == 0)) = sn.natAbs := by
    rw [bin2bn_dropWhile_zero, bin2bn, List.reverse_reverse]
    exact Bytes.ofLE_toLE_of_lt h
  rw [setint64]
  simp only [setint64Go_true, mpi2bn_mpiBody _ _ hlen, hval, Option.getD_some, decide_eq_true_eq]
  split <;> omega

theorem toInt32_natAbs_le (n : Int) : (toInt32 n).natAbs ≤ 2 ^ 31 := by
  have hlo := Int.le_bmod (x := n) (m := 2 ^ 32) (by omega)
  have hhi := Int.bmod_lt (x := n) (m := 2 ^ 32) (by omega)
  rw [toInt32]
  omega

/-- The constructor yields the argument as an `int` sees it. -/
theorem ofInt64_eq (n : Int) : ofInt64 n = toInt32 n := by
  rw [ofInt64]
  split
  · rfl
  · exact setint64_eq (by have := toInt32_natAbs_le n; omega)

/-- `getvch` is the MPI body, least significant byte first. -/
theorem getvch_eq (a : Int) :
    getvch a = (mpiBody (a < 0) (Bytes.minLE a.natAbs).reverse).reverse := by
  simp only [getvch, bn2mpi, List.length_append, length_be32, List.drop_left' (length_be32 _)]
  split
  · rename_i h
    have hnil : mpiBody (a < 0) (Bytes.minLE a.natAbs).reverse = [] :=
      List.eq_nil_of_length_eq_zero (by omega)
    rw [hnil]; rfl
  · rfl

/-- `setvch` undoes `getvch`. -/
theorem setvch_getvch {a : Int} (h : a.natAbs < 2 ^ 64) : setvch (getvch a) = a := by
  have hlen : (Bytes.minLE a.natAbs).reverse.length + 5 < 2 ^ 31 := by
    have := (Bytes.length_minLE_le_iff a.natAbs 8).mpr h
    rw [List.length_reverse]
    omega
  have hval : bin2bn (Bytes.minLE a.natAbs).reverse = a.natAbs := by
    rw [bin2bn, List.reverse_reverse, Bytes.ofLE_minLE]
  rw [setvch, getvch_eq, List.reverse_reverse, List.length_reverse, mpi2bn_mpiBody _ _ hlen, hval,
    Option.getD_some]
  simp only [decide_eq_true_eq]
  split <;> omega

/-- A nonnegative number is the plain little-endian reading of its bytes. -/
theorem ofLE_getvch {a : Int} (h : 0 ≤ a) : (Bytes.ofLE (getvch a) : Int) = a := by
  have hneg : decide (a < 0) = false := decide_eq_false (by omega)
  have hbody (m : Bytes) : bin2bn (mpiBody false m) = bin2bn m := by
    cases m with
    | nil => rfl
    | cons b bs =>
      simp only [mpiBody, Bool.false_eq_true, ↓reduceIte]
      split
      · -- the sign byte is a leading zero
        rw [bin2bn_cons 0]
        simp
      · rfl
  have hmag := hbody (Bytes.minLE a.natAbs).reverse
  rw [bin2bn, bin2bn, List.reverse_reverse, Bytes.ofLE_minLE] at hmag
  rw [getvch_eq, hneg, hmag]
  omega

private theorem length_mpiBody (neg : Bool) (b : UInt8) (bs : Bytes) :
    (mpiBody neg (b :: bs)).length = bs.length + (if 0x80 ≤ b then 2 else 1) := by
  simp only [mpiBody]; split <;> simp

/-- How many bytes `getvch` needs: one bit of the last byte is the sign. -/
theorem length_getvch_le_iff (a : Int) (k : Nat) :
    (getvch a).length ≤ k ↔ 2 * a.natAbs < 256 ^ k := by
  rw [getvch_eq, List.length_reverse]
  generalize ha : a.natAbs = m
  rcases List.eq_nil_or_concat' (Bytes.minLE m) with hnil | ⟨xs, b, hcons⟩
  · have hm : m = 0 := (Bytes.minLE_eq_nil_iff m).mp hnil
    simp [mpiBody, hm]
  · have hrev : (Bytes.minLE m).reverse = b :: xs.reverse := by simp [hcons]
    -- `m` is the top byte `b` followed by `xs`
    have hm : m = Bytes.ofLE xs + 256 ^ xs.length * b.toNat := by
      rw [← Bytes.ofLE_minLE m, hcons, Bytes.ofLE_append]; simp
    have hxs := Bytes.ofLE_lt xs
    have hb0 : 0 < b.toNat := by
      have := Bytes.minLE_getLast_ne_zero (n := m) (by simp [hcons])
      simp only [hcons, List.getLast_append_singleton] at this
      exact Nat.pos_of_ne_zero fun h => this (UInt8.toNat_inj.mp h)
    have hb : b.toNat < 256 := b.toNat_lt
    rw [hrev, length_mpiBody, List.length_reverse]
    have hge : 256 ^ xs.length * 1 ≤ 256 ^ xs.length * b.toNat := Nat.mul_le_mul_left _ hb0
    split
    · rename_i htop
      -- the top byte is full: one more byte for the sign
      have htop' : 128 ≤ b.toNat := UInt8.le_iff_toNat_le.mp htop
      have h128 : 256 ^ xs.length * 128 ≤ 256 ^ xs.length * b.toNat :=
        Nat.mul_le_mul_left _ htop'
      have h256 : 256 ^ xs.length * b.toNat ≤ 256 ^ xs.length * 255 :=
        Nat.mul_le_mul_left _ (by omega)
      constructor
      · intro hk
        have hpow : 256 ^ (xs.length + 2) ≤ 256 ^ k := Nat.pow_le_pow_right (by omega) hk
        rw [Nat.pow_add] at hpow
        omega
      · intro hk
        by_contra hlt
        have hpow : 256 ^ k ≤ 256 ^ (xs.length + 1) := Nat.pow_le_pow_right (by omega) (by omega)
        rw [Nat.pow_succ] at hpow
        omega
    · rename_i htop
      -- the sign fits in the top byte
      have htop' : b.toNat < 128 := UInt8.lt_iff_toNat_lt.mp (UInt8.not_le.mp htop)
      have h127 : 256 ^ xs.length * b.toNat ≤ 256 ^ xs.length * 127 :=
        Nat.mul_le_mul_left _ (by omega)
      constructor
      · intro hk
        have hpow : 256 ^ (xs.length + 1) ≤ 256 ^ k := Nat.pow_le_pow_right (by omega) hk
        rw [Nat.pow_succ] at hpow
        omega
      · intro hk
        by_contra hlt
        have hpow : 256 ^ k ≤ 256 ^ xs.length := Nat.pow_le_pow_right (by omega) (by omega)
        omega

end CBigNum

end CrossChain
