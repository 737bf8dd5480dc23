import CrossChain.Native.AtomicSwap

/-!
# What the contract recogniser accepts

`ISAtomicSwap` tests 17 positions and never the length.  `IsContract` is the
grammar it stands for.  The two agree, and no access throws, exactly on the
scripts of 81 bytes and on those with a wrong byte at a tested position that is
there (`isAtomicSwap_exact_iff`).

Also: a contract with a 20-byte hash is in the grammar exactly when its lock
time takes four bytes (`isAtomicSwap_contract_iff`).
-/

namespace CrossChain

/-- The contract script with its four variable parts. -/
def contractBytes (secHash them lock me : Bytes) : CScript :=
  [opIf, opRipemd160, 0x14] ++ secHash ++ [opEqualVerify, opDup, opHash160, 0x14] ++ them ++
    [opElse, 0x04] ++ lock ++
    [opCheckLockTimeVerify, opDrop, opDup, opHash160, 0x14] ++ me ++
    [opEndIf, opEqualVerify, opCheckSig]

/-- The contract grammar: three 20-byte hashes, a 4-byte lock time and nothing after
    the signature check. -/
def IsContract (s : CScript) : Prop :=
  ∃ secHash them lock me : Bytes, secHash.length = 20 ∧ them.length = 20 ∧ lock.length = 4 ∧
    me.length = 20 ∧ s = contractBytes secHash them lock me

/-- `ISAtomicSwap` returns a Boolean, and that Boolean is membership in the grammar. -/
def RecognisesExactly (s : CScript) : Prop :=
  ∃ b, CScript.isAtomicSwap s = .ok b ∧ (b = true ↔ IsContract s)

/-! ## A chain of positional tests -/

namespace CScript

theorem atAll_eq_true_iff (s : CScript) (l : List (Nat × UInt8)) :
    atAll s l = .ok true ↔ ∀ p ∈ l, s[p.1]? = some p.2 := by
  induction l with
  | nil => simp [atAll]
  | cons p l ih =>
    obtain ⟨i, b⟩ := p
    simp only [atAll, List.forall_mem_cons]
    cases hs : s[i]? with
    | none => simp
    | some v =>
      by_cases hv : v = b
      · simp [hv, ih]
      · simp [hv]

/-- A test that fails at a position that is there ends the chain before any access
    throws, as the positions increase. -/
theorem atAll_eq_false {s : CScript} {l : List (Nat × UInt8)}
    (hl : l.Pairwise fun p q => p.1 < q.1)
    (h : ∃ p ∈ l, p.1 < s.length ∧ s[p.1]? ≠ some p.2) : atAll s l = .ok false := by
  induction l with
  | nil => simp at h
  | cons q l ih =>
    obtain ⟨i, b⟩ := q
    obtain ⟨hq, hl⟩ := List.pairwise_cons.mp hl
    obtain ⟨p, hp, hlt, hne⟩ := h
    -- position `i` is not past `p`, so it is there as well
    have hi : i < s.length := by
      rcases List.mem_cons.mp hp with rfl | hp
      · exact hlt
      · exact Nat.lt_trans (hq p hp) hlt
    rw [atAll, List.getElem?_eq_getElem hi]
    -- a byte that is right passes the test on to `p`, a wrong one ends the chain here
    by_cases hv : s[i] = b
    · simp only [hv, ↓reduceIte]
      apply ih hl
      rcases List.mem_cons.mp hp with rfl | hp
      · exact absurd (by rw [List.getElem?_eq_getElem hi, hv]) hne
      · exact ⟨p, hp, hlt, hne⟩
    · simp only [hv, ↓reduceIte]

/-- A chain that ends in false met a wrong byte. -/
theorem exists_of_atAll_eq_false {s : CScript} {l : List (Nat × UInt8)}
    (h : atAll s l = .ok false) : ∃ p ∈ l, p.1 < s.length ∧ s[p.1]? ≠ some p.2 := by
  induction l with
  | nil => simp [atAll] at h
  | cons q l ih =>
    obtain ⟨i, b⟩ := q
    rw [atAll] at h
    cases hs : s[i]? with
    | none => simp [hs] at h
    | some v =>
      simp only [hs] at h
      -- the first test that fails is the witness
      split at h
      · obtain ⟨p, hp, hlt, hne⟩ := ih h
        exact ⟨p, List.mem_cons_of_mem _ hp, hlt, hne⟩
      · rename_i hv
        refine ⟨(i, b), List.mem_cons_self, ?_, by simp [hs, hv]⟩
        exact (List.getElem?_eq_some_iff.mp hs).1

theorem atomicSwapBytes_sorted : atomicSwapBytes.Pairwise fun p q => p.1 < q.1 := by
  decide

end CScript

/-! ## The grammar by positions -/

private theorem drop_eq_cons {s : Bytes} {i : Nat} {b : UInt8} (h : s[i]? = some b) :
    s.drop i = b :: s.drop (i + 1) := by
  obtain ⟨hi, hb⟩ := List.getElem?_eq_some_iff.mp h
  rw [List.drop_eq_getElem_cons hi, hb]

private theorem drop_eq_slice_append {s : Bytes} {i j : Nat} (h : i ≤ j) :
    s.drop i = slice s i j ++ s.drop j := by
  calc s.drop i = (s.drop i).take (j - i) ++ (s.drop i).drop (j - i) :=
        (List.take_append_drop _ _).symm
    _ = slice s i j ++ s.drop j := by rw [List.drop_drop, Nat.add_sub_cancel' h, slice]

theorem length_slice {s : Bytes} {i j : Nat} (hj : j ≤ s.length) : (slice s i j).length = j - i := by
  rw [slice, List.length_take, List.length_drop]
  omega

/-- A script with the right bytes at the tested positions is a contract up to what
    follows it. -/
theorem eq_contractBytes_append {s : CScript}
    (h : ∀ p ∈ CScript.atomicSwapBytes, s[p.1]? = some p.2) :
    s = contractBytes (slice s 3 23) (slice s 27 47) (slice s 49 53) (slice s 58 78) ++
      s.drop 81 := by
  have at' (i : Nat) (b : UInt8) (hp : (i, b) ∈ CScript.atomicSwapBytes) :
      s.drop i = b :: s.drop (i + 1) := drop_eq_cons (h _ hp)
  -- the script from each tested position on, and across each variable part
  have h0 := at' 0 opIf (by decide)
  have h1 := at' 1 opRipemd160 (by decide)
  have h2 := at' 2 0x14 (by decide)
  have h3 := drop_eq_slice_append (s := s) (i := 3) (j := 23) (by omega)
  have h23 := at' 23 opEqualVerify (by decide)
  have h24 := at' 24 opDup (by decide)
  have h25 := at' 25 opHash160 (by decide)
  have h26 := at' 26 0x14 (by decide)
  have h27 := drop_eq_slice_append (s := s) (i := 27) (j := 47) (by omega)
  have h47 := at' 47 opElse (by decide)
  have h48 := at' 48 0x04 (by decide)
  have h49 := drop_eq_slice_append (s := s) (i := 49) (j := 53) (by omega)
  have h53 := at' 53 opCheckLockTimeVerify (by decide)
  have h54 := at' 54 opDrop (by decide)
  have h55 := at' 55 opDup (by decide)
  have h56 := at' 56 opHash160 (by decide)
  have h57 := at' 57 0x14 (by decide)
  have h58 := drop_eq_slice_append (s := s) (i := 58) (j := 78) (by omega)
  have h78 := at' 78 opEndIf (by decide)
  have h79 := at' 79 opEqualVerify (by decide)
  have h80 := at' 80 opCheckSig (by decide)
  calc s = s.drop 0 := rfl
    _ = _ := by
      rw [h0, h1, h2, h3, h23, h24, h25, h26, h27, h47, h48, h49, h53, h54, h55, h56, h57, h58,
        h78, h79, h80]
      simp [contractBytes]

theorem length_contractBytes (secHash them lock me : Bytes) :
    (contractBytes secHash them lock me).length =
      secHash.length + them.length + lock.length + me.length + 17 := by
  simp only [contractBytes, List.length_append, List.length_cons, List.length_nil]
  omega

/-- The grammar holds the tested bytes. -/
theorem contractBytes_at {secHash them lock me : Bytes} (hs : secHash.length = 20)
    (ht : them.length = 20) (hl : lock.length = 4) (hm : me.length = 20) :
    ∀ p ∈ CScript.atomicSwapBytes, (contractBytes secHash them lock me)[p.1]? = some p.2 := by
  intro p hp
  simp only [CScript.atomicSwapBytes, List.mem_cons, List.not_mem_nil, or_false] at hp
  rcases hp with rfl | rfl | rfl | rfl | rfl | rfl | rfl | rfl | rfl | rfl | rfl | rfl | rfl | rfl |
    rfl | rfl | rfl <;> simp [contractBytes, hs, ht, hl, hm]

/-- The grammar is the tested bytes in a script of 81 bytes. -/
theorem isContract_iff (s : CScript) :
    IsContract s ↔
      s.length = 81 ∧ ∀ p ∈ CScript.atomicSwapBytes, s[p.1]? = some p.2 := by
  constructor
  · intro hgiven
    obtain ⟨secHash, them, lock, me, hs, ht, hl, hm, rfl⟩ := hgiven
    refine ⟨?_, contractBytes_at hs ht hl hm⟩
    rw [length_contractBytes]
    omega
  · intro hgiven
    obtain ⟨hlen, h⟩ := hgiven
    refine ⟨slice s 3 23, slice s 27 47, slice s 49 53, slice s 58 78, ?_, ?_, ?_, ?_, ?_⟩
    · exact length_slice (by omega)
    · exact length_slice (by omega)
    · exact length_slice (by omega)
    · exact length_slice (by omega)
    · have happ := eq_contractBytes_append h
      have hdrop : s.drop 81 = [] := List.drop_eq_nil_of_le (by omega)
      rwa [hdrop, List.append_nil] at happ

/-- The recogniser returns membership in the grammar exactly on the scripts of 81 bytes
    and on those with a wrong byte at a tested position that is there. -/
theorem isAtomicSwap_exact_iff (s : CScript) :
    RecognisesExactly s ↔
      s.length = 81 ∨
        ∃ p ∈ CScript.atomicSwapBytes, p.1 < s.length ∧ s[p.1]? ≠ some p.2 := by
  -- accepted, only the length can be wrong
  have hcontract : CScript.isAtomicSwap s = .ok true → (IsContract s ↔ s.length = 81) := by
    intro htrue
    rw [isContract_iff]
    exact and_iff_left ((CScript.atAll_eq_true_iff _ _).mp htrue)
  constructor
  · intro hgiven
    obtain ⟨b, hb, hiff⟩ := hgiven
    cases b with
    | true => exact .inl ((hcontract hb).mp (hiff.mp rfl))
    | false => exact .inr (CScript.exists_of_atAll_eq_false hb)
  · intro h
    by_cases hwrong : ∃ p ∈ CScript.atomicSwapBytes, p.1 < s.length ∧ s[p.1]? ≠ some p.2
    · refine ⟨false, CScript.atAll_eq_false CScript.atomicSwapBytes_sorted hwrong, ?_⟩
      obtain ⟨p, hp, _, hne⟩ := hwrong
      -- a contract has the right byte there
      constructor
      · intro hf
        cases hf
      · intro hc
        exact absurd (((isContract_iff s).mp hc).2 p hp) hne
    · have hlen : s.length = 81 := h.resolve_right hwrong
      have htrue : CScript.isAtomicSwap s = .ok true := by
        apply (CScript.atAll_eq_true_iff _ _).mpr
        intro p hp
        by_contra hne
        -- every tested position is below 81
        have hlt : p.1 < 81 := by
          have hall : ∀ q ∈ CScript.atomicSwapBytes, q.1 < 81 := by decide
          exact hall p hp
        exact hwrong ⟨p, hp, by omega, hne⟩
      exact ⟨true, htrue, by simp [hcontract htrue, hlen]⟩

/-! ## The contracts `AtomicSwapContract` builds -/

namespace CScript

/-- A pushed vector starts with its length when that is below 76, with a push opcode
    otherwise. -/
theorem pushVec_head {b : Bytes} {c : UInt8} (h : (pushVec b)[0]? = some c)
    (hc : c < opPushData1) : b.length = c.toNat ∧ pushVec b = c :: b := by
  unfold pushVec at h ⊢
  split at h
  · rename_i hlt
    rw [if_pos hlt]
    have hlt' : b.length < 256 := Nat.lt_trans hlt (by decide)
    simp only [List.getElem?_cons_zero, Option.some.injEq] at h
    subst h
    exact ⟨by rw [UInt8.toNat_ofNat', Nat.mod_eq_of_lt hlt'], rfl⟩
  · -- the other forms start with an opcode from `OP_PUSHDATA1` on
    exfalso
    split at h
    · simp only [List.getElem?_cons_zero, Option.some.injEq] at h
      subst h
      exact absurd hc (by decide)
    · split at h <;>
      · simp only [List.getElem?_cons_zero, Option.some.injEq] at h
        subst h
        exact absurd hc (by decide)

theorem pushInt64_ne_nil (n : Int) : pushInt64 n ≠ [] := by
  unfold pushInt64
  split
  · simp
  · exact pushVec_ne_nil _

/-- A pushed number starts with the byte 4 exactly when its 32-bit value takes four
    bytes, and these follow. -/
theorem pushInt64_head_iff (n : Int) :
    (pushInt64 n)[0]? = some 4 ↔
      2 ^ 23 ≤ (CBigNum.toInt32 n).natAbs ∧ (CBigNum.toInt32 n).natAbs < 2 ^ 31 := by
  have hle4 := CBigNum.length_getvch_le_iff (CBigNum.toInt32 n) 4
  have hle3 := CBigNum.length_getvch_le_iff (CBigNum.toInt32 n) 3
  rw [pushInt64]
  split
  · -- the small numbers take one opcode
    rename_i hsmall
    have habs : (CBigNum.toInt32 n).natAbs < 2 ^ 23 := by
      rw [CBigNum.toInt32_eq_self (by omega) (by omega)]
      omega
    constructor
    · intro h
      exfalso
      rcases hsmall with rfl | ⟨hlo, hhi⟩
      · revert h
        decide
      · have hn : n.toNat = n := Int.toNat_of_nonneg (by omega)
        have hop : (UInt8.ofNat (n + ((opTrue.toNat : Nat) - 1 : Int)).toNat).toNat = 4 := by
          have hbyte := congrArg UInt8.toNat (Option.some.inj h)
          exact hbyte
        have htrue : opTrue.toNat = 81 := rfl
        rw [htrue, UInt8.toNat_ofNat'] at hop
        omega
    · intro hgiven
      obtain ⟨hge, _⟩ := hgiven
      omega
  · rw [CBigNum.ofInt64_eq]
    constructor
    · intro h
      -- any other first byte is a different length
      have hlen := (pushVec_head h (by decide)).1
      have h4 : (4 : UInt8).toNat = 4 := rfl
      omega
    · intro hgiven
      obtain ⟨hge, hlt⟩ := hgiven
      have hlen : (CBigNum.getvch (CBigNum.toInt32 n)).length = 4 := by omega
      rw [pushVec_of_lt (by omega), hlen]
      rfl

/-- The four bytes of such a number. -/
theorem pushInt64_eq_of_head {n : Int} (h : (pushInt64 n)[0]? = some 4) :
    (CBigNum.getvch (CBigNum.toInt32 n)).length = 4 ∧
      pushInt64 n = 4 :: CBigNum.getvch (CBigNum.toInt32 n) := by
  have hrange := (pushInt64_head_iff n).mp h
  -- a number with an opcode of its own is not four bytes long
  have hsmall : ¬ (n = -1 ∨ (1 ≤ n ∧ n ≤ 16)) := by
    intro hsmall
    rw [CBigNum.toInt32_eq_self (by omega) (by omega)] at hrange
    omega
  rw [pushInt64, if_neg hsmall, CBigNum.ofInt64_eq] at h ⊢
  exact pushVec_head h (by decide)

end CScript

private theorem getElem?_append_head {xs ys zs : Bytes} {i : Nat} (hi : xs.length = i)
    (hy : ys ≠ []) : (xs ++ ys ++ zs)[i]? = ys[0]? := by
  have hpos : 0 < ys.length := List.length_pos_iff.mpr hy
  rw [List.append_assoc, List.getElem?_append_right (by omega), hi, Nat.sub_self,
    List.getElem?_append_left hpos]

/-- A contract with a 20-byte hash and a 4-byte lock time is in the grammar. -/
theorem atomicSwapContract_eq {me them : Uint160} {lockTime : Int} {secHash lock : Bytes}
    (hs : secHash.length = 20) (hl : CScript.pushInt64 lockTime = 4 :: lock) :
    atomicSwapContract me them lockTime secHash =
      contractBytes secHash them.bytes lock me.bytes := by
  have hpush : CScript.pushVec secHash = 0x14 :: secHash := by
    rw [CScript.pushVec_of_lt (by omega), hs]
    rfl
  have h20 : (UInt8.ofNat 20) = 0x14 := rfl
  simp [atomicSwapContract, contractBytes, CScript.pushUint, hpush, hl, h20]

/-- An accepted contract has at least 81 bytes. -/
theorem length_of_isAtomicSwap {s : CScript} (h : CScript.isAtomicSwap s = .ok true) :
    81 ≤ s.length := by
  have h80 := (CScript.atAll_eq_true_iff _ _).mp h (80, opCheckSig) (by decide)
  exact (List.getElem?_eq_some_iff.mp h80).1

/-- `ISAtomicSwap` accepts a built contract exactly when the hash has 20 bytes and the
    lock time, as 32 bits, takes four. -/
theorem isAtomicSwap_contract_iff (me them : Uint160) (lockTime : Int) (secHash : Bytes) :
    CScript.isAtomicSwap (atomicSwapContract me them lockTime secHash) = .ok true ↔
      secHash.length = 20 ∧ 2 ^ 23 ≤ (CBigNum.toInt32 lockTime).natAbs ∧
        (CBigNum.toInt32 lockTime).natAbs < 2 ^ 31 := by
  rw [← CScript.pushInt64_head_iff, CScript.isAtomicSwap, CScript.atAll_eq_true_iff]
  constructor
  · intro h
    -- position 2 is the length of the hash, position 48 that of the lock time
    have hsplit2 : atomicSwapContract me them lockTime secHash =
        [opIf, opRipemd160] ++ CScript.pushVec secHash ++
          ([opEqualVerify, opDup, opHash160] ++ CScript.pushUint them ++ [opElse] ++
            CScript.pushInt64 lockTime ++ [opCheckLockTimeVerify, opDrop, opDup, opHash160] ++
            CScript.pushUint me ++ [opEndIf, opEqualVerify, opCheckSig]) := by
      simp [atomicSwapContract]
    have h2 : (CScript.pushVec secHash)[0]? = some 0x14 := by
      have hat : (atomicSwapContract me them lockTime secHash)[2]? = some 0x14 :=
        h (2, 0x14) (by decide)
      have hpre : ([opIf, opRipemd160] : Bytes).length = 2 := rfl
      rwa [hsplit2, getElem?_append_head hpre (CScript.pushVec_ne_nil _)] at hat
    obtain ⟨hlen, hpush⟩ := CScript.pushVec_head h2 (by decide)
    have hs : secHash.length = 20 := hlen
    refine ⟨hs, ?_⟩
    have hsplit48 : atomicSwapContract me them lockTime secHash =
        ([opIf, opRipemd160] ++ 0x14 :: secHash ++ [opEqualVerify, opDup, opHash160] ++
            CScript.pushUint them ++ [opElse]) ++
          CScript.pushInt64 lockTime ++
          ([opCheckLockTimeVerify, opDrop, opDup, opHash160] ++ CScript.pushUint me ++
            [opEndIf, opEqualVerify, opCheckSig]) := by
      simp [atomicSwapContract, hpush]
    have hat : (atomicSwapContract me them lockTime secHash)[48]? = some 4 :=
      h (48, 0x04) (by decide)
    rwa [hsplit48, getElem?_append_head (by simp [hs, CScript.pushUint])
      (CScript.pushInt64_ne_nil _)] at hat
  · intro hgiven
    obtain ⟨hs, hhead⟩ := hgiven
    obtain ⟨hlen, hpush⟩ := CScript.pushInt64_eq_of_head hhead
    rw [atomicSwapContract_eq hs hpush]
    exact contractBytes_at hs them.length_bytes hlen me.length_bytes

/-! ## What is outside -/

/-- A contract followed by one more instruction is accepted, outside the grammar. -/
theorem not_recognisesExactly_longer :
    ¬ RecognisesExactly
      (contractBytes (List.replicate 20 1) (List.replicate 20 2) [0, 0, 0, 0x40]
        (List.replicate 20 3) ++ [opDrop]) := by
  intro h
  obtain ⟨b, hb, hiff⟩ := h
  have htrue : CScript.isAtomicSwap (contractBytes (List.replicate 20 1) (List.replicate 20 2)
      [0, 0, 0, 0x40] (List.replicate 20 3) ++ [opDrop]) = .ok true := by decide +kernel
  rw [htrue] at hb
  cases hb
  have hlen := ((isContract_iff _).mp (hiff.mp rfl)).1
  revert hlen
  decide

end CrossChain
