import CrossChain.Spec.ContractUnlock

/-!
# Numbers on a script

`push_int64` and `push_uint64` write one instruction that denotes their argument
as the constructor of `CBigNum` sees it, an `int`.  So a number denotes itself
exactly when it fits 32 bits (`pushed_number_iff`).
-/

namespace CrossChain

/-- The number an instruction denotes, for the pushes, `OP_1NEGATE` and `OP_1` to `OP_16`. -/
def instrNumber (i : UInt8 × Bytes) : Option Int :=
  if i.1 ≤ opPushData4 then some (scriptNum i.2)
  else if i.1 = op1Negate then some (-1)
  else if opTrue ≤ i.1 ∧ i.1 ≤ op16 then some (i.1.toNat - 0x50)
  else none

/-- No shorter string denotes the same number. -/
def MinimalNum (v : Bytes) : Prop :=
  ∀ w : Bytes, scriptNum w = scriptNum v → v.length ≤ w.length

/-- The script is a single instruction for `GetOp`, which denotes `n`; pushed bytes are
    minimal. -/
def Denotes (code : CScript) (n : Int) : Prop :=
  ∃ i, CScript.getOp code = (some i, []) ∧ instrNumber i = some n ∧
    (i.1 ≤ opPushData4 → MinimalNum i.2)

/-! ## Sign and magnitude -/

/-- A string of `k` bytes denotes a number of `8 * k - 1` bits and a sign. -/
theorem natAbs_scriptNum_lt (w : Bytes) : 2 * (scriptNum w).natAbs < 256 ^ w.length := by
  rcases List.eq_nil_or_concat' w with rfl | ⟨xs, b, rfl⟩
  · decide
  · have hval : Bytes.ofLE (xs ++ [b]) = Bytes.ofLE xs + 256 ^ xs.length * b.toNat := by
      simp [Bytes.ofLE_append]
    have hxs := Bytes.ofLE_lt xs
    have hb : b.toNat < 256 := b.toNat_lt
    have hlen : (xs ++ [b]).length = xs.length + 1 := by simp
    have hpow : 256 ^ (xs.length + 1) = 256 ^ xs.length * 256 := Nat.pow_succ _ _
    have hnum : scriptNum (xs ++ [b]) =
        if 0x80 ≤ b then (2 : Int) ^ (8 * (xs.length + 1) - 1) - Bytes.ofLE (xs ++ [b])
        else Bytes.ofLE (xs ++ [b]) := by
      simp [scriptNum]
    rw [hnum, hlen, hpow, CBigNum.two_pow_sign, hval]
    by_cases htop : 0x80 ≤ b
    · -- the top bit is the sign
      have h128 : 128 ≤ b.toNat := UInt8.le_iff_toNat_le.mp htop
      have hlo : 256 ^ xs.length * 128 ≤ 256 ^ xs.length * b.toNat := Nat.mul_le_mul_left _ h128
      have hhi : 256 ^ xs.length * b.toNat ≤ 256 ^ xs.length * 255 :=
        Nat.mul_le_mul_left _ (by omega)
      rw [if_pos htop]
      omega
    · have h127 : b.toNat ≤ 127 := by
        have hlt := UInt8.lt_iff_toNat_lt.mp (UInt8.not_le.mp htop)
        have h128 : (0x80 : UInt8).toNat = 128 := rfl
        omega
      have hhi : 256 ^ xs.length * b.toNat ≤ 256 ^ xs.length * 127 :=
        Nat.mul_le_mul_left _ h127
      rw [if_neg htop]
      omega

/-- `getvch` takes as few bytes as any string that denotes its number. -/
theorem minimalNum_getvch {a : Int} (h : a.natAbs < 2 ^ 64) : MinimalNum (CBigNum.getvch a) := by
  intro w hw
  rw [scriptNum_getvch h] at hw
  have hlt := natAbs_scriptNum_lt w
  rw [hw] at hlt
  exact (CBigNum.length_getvch_le_iff a w.length).mpr hlt

/-! ## Pushed numbers -/

theorem Denotes.unique {code : CScript} {m n : Int} (hm : Denotes code m) (hn : Denotes code n) :
    m = n := by
  obtain ⟨i, hi, hm, _⟩ := hm
  obtain ⟨j, hj, hn, _⟩ := hn
  rw [hi] at hj
  cases hj
  rw [hm] at hn
  exact Option.some.inj hn

/-- The number written is the argument as an `int`. -/
theorem denotes_pushInt64 (n : Int) : Denotes (CScript.pushInt64 n) (CBigNum.toInt32 n) := by
  by_cases hsmall : n = -1 ∨ (1 ≤ n ∧ n ≤ 16)
  · have hpush : CScript.pushInt64 n = [UInt8.ofNat (n + (opTrue.toNat - 1)).toNat] := by
      rw [CScript.pushInt64, if_pos hsmall]
    rw [hpush]
    -- `OP_1NEGATE` or one of `OP_1` to `OP_16`
    rcases hsmall with rfl | ⟨h1, h16⟩
    · exact ⟨(op1Negate, []), by decide, by decide, fun h => absurd h (by decide)⟩
    · interval_cases n <;> exact ⟨_, rfl, by decide, fun h => absurd h (by decide)⟩
  · have h32 := CBigNum.toInt32_natAbs_le n
    have hpush : CScript.pushInt64 n = CScript.pushVec (CBigNum.getvch (CBigNum.toInt32 n)) := by
      rw [CScript.pushInt64, if_neg hsmall, CBigNum.ofInt64_eq]
    generalize CBigNum.toInt32 n = m at h32 hpush
    have hlen : (CBigNum.getvch m).length ≤ 5 :=
      (CBigNum.length_getvch_le_iff m 5).mpr (by omega)
    have hshort := (CScript.length_pushVec (CBigNum.getvch m)).2
    have hfits : (CScript.pushVec (CBigNum.getvch m) ++ []).length < 2 ^ 32 := by
      rw [List.append_nil]
      omega
    obtain ⟨op, hop, hread⟩ := CScript.getOp_pushVec hfits
    rw [List.append_nil] at hread
    have hnum : scriptNum (CBigNum.getvch m) = m := scriptNum_getvch (by omega)
    rw [hpush]
    refine ⟨(op, CBigNum.getvch m), hread, ?_, fun _ => minimalNum_getvch (by omega)⟩
    rw [instrNumber, if_pos hop]
    exact congrArg some hnum

/-- On nonnegative numbers the two functions write the same. -/
theorem pushUint64_eq (n : Nat) : CScript.pushUint64 n = CScript.pushInt64 n := by
  have hsmall : ((n : Int) = -1 ∨ (1 ≤ (n : Int) ∧ (n : Int) ≤ 16)) ↔ 1 ≤ n ∧ n ≤ 16 := by omega
  have hop : ((n : Int) + (opTrue.toNat - 1)).toNat = n + (opTrue.toNat - 1) := by
    have htrue : opTrue.toNat = 81 := rfl
    omega
  unfold CScript.pushUint64 CScript.pushInt64
  rw [hop]
  simp only [hsmall]

/-- A number that does not fit an `int` is converted to another one. -/
theorem toInt32_eq_self_iff (n : Int) : CBigNum.toInt32 n = n ↔ -2 ^ 31 ≤ n ∧ n < 2 ^ 31 := by
  constructor
  · intro h
    have hlo := Int.le_bmod (x := n) (m := 2 ^ 32) (by omega)
    have hhi := Int.bmod_lt (x := n) (m := 2 ^ 32) (by omega)
    rw [CBigNum.toInt32] at h
    omega
  · intro h
    exact CBigNum.toInt32_eq_self h.1 h.2

theorem denotes_pushInt64_iff (n : Int) :
    Denotes (CScript.pushInt64 n) n ↔ -2 ^ 31 ≤ n ∧ n < 2 ^ 31 := by
  rw [← toInt32_eq_self_iff]
  constructor
  · intro h
    exact (denotes_pushInt64 n).unique h
  · intro h
    have hdenotes := denotes_pushInt64 n
    rwa [h] at hdenotes

/-- A pushed number denotes itself exactly when it fits 32 bits with its sign. -/
theorem pushed_number_iff (n : Int) (m : Nat) :
    (Denotes (CScript.pushInt64 n) n ↔ -2 ^ 31 ≤ n ∧ n < 2 ^ 31) ∧
      (Denotes (CScript.pushUint64 m) m ↔ m < 2 ^ 31) := by
  constructor
  · exact denotes_pushInt64_iff n
  · rw [pushUint64_eq, denotes_pushInt64_iff]
    omega

/-- The first lock time past the range, 19 January 2038, is written as its negative. -/
theorem pushed_number_truncated : ¬ Denotes (CScript.pushInt64 (2 ^ 31)) (2 ^ 31) := by
  intro h
  have heq := (denotes_pushInt64 (2 ^ 31)).unique h
  revert heq
  decide

end CrossChain
