import CrossChain.Native.AtomicSwap
import CrossChain.Spec.ScriptReading

/-!
# FindAndDelete

On `OP_CODESEPARATOR` the erase loop stays aligned with the instructions: what
is left is the bytes of the instructions that are not separators, and the
unreadable tail (`findAndDelete_separators`).
-/

namespace CrossChain

namespace CScript

/-- The instructions of a script that are not code separators. -/
def keptInstrs (s : CScript) : List (UInt8 × Bytes) :=
  (instrs s).1.filter fun i => i.1 ≠ opCodeSeparator

/-- The number of code separators among the instructions of a script. -/
def separatorCount (s : CScript) : Nat :=
  (instrs s).1.countP fun i => i.1 = opCodeSeparator

/-! ## The erase loop -/

/-- An instruction matches when its opcode is the separator. -/
theorem isPrefixOf_instrBytes (i : UInt8 × Bytes) (rest : Bytes) :
    [opCodeSeparator].isPrefixOf (instrBytes i ++ rest) = (opCodeSeparator == i.1) := by
  simp [instrBytes, List.isPrefixOf]

/-- Where no instruction can be read there is no separator either. -/
theorem isPrefixOf_of_none {s : Bytes} (h : (getOp s).1 = none) :
    [opCodeSeparator].isPrefixOf s = false := by
  cases s with
  | nil => rfl
  | cons b rest =>
    by_cases hb : opCodeSeparator = b
    · subst hb
      rw [getOp_opcode (by decide)] at h
      cases h
    · simp [List.isPrefixOf, hb]

/-- Each turn of the loop erases a separator or moves past another instruction. -/
theorem findAndDeleteGo_eq (s : Bytes) {fuel : Nat} (hfuel : s.length < fuel) :
    findAndDeleteGo [opCodeSeparator] fuel s =
      ((keptInstrs s).flatMap instrBytes ++ (instrs s).2, separatorCount s) := by
  induction s using script_induction generalizing fuel with
  | stop s hnone =>
    cases fuel with
    | zero => omega
    | succ fuel =>
      rw [findAndDeleteGo, isPrefixOf_of_none hnone, keptInstrs, separatorCount,
        instrs_of_none hnone]
      cases hop : getOp s with
      | mk r rest =>
        rw [hop] at hnone
        simp only at hnone
        subst hnone
        rfl
  | step s i rest hop ih =>
    cases fuel with
    | zero => omega
    | succ fuel =>
      have hlt := getOp_suffix hop
      have hrest := ih (show rest.length < fuel by omega)
      obtain ⟨hwell, hs⟩ := getOp_bytes hop
      have hinstrs := instrs_of_getOp hop
      rw [findAndDeleteGo]
      by_cases hsep : i.1 = opCodeSeparator
      · -- a separator is erased, and reading goes on in its place
        have hpre : [opCodeSeparator].isPrefixOf s = true := by
          rw [hs, isPrefixOf_instrBytes, hsep]
          rfl
        have hbytes : instrBytes i = [opCodeSeparator] := by
          obtain ⟨op, b⟩ := i
          simp only at hsep
          subst hsep
          have hle : ¬ opCodeSeparator ≤ opPushData4 := by decide
          rw [(wellFormed_of_not_le hle b).mp hwell, instrBytes, lengthBytes_of_not_le hle]
          rfl
        have hdrop : s.drop [opCodeSeparator].length = rest := by
          rw [hs, hbytes]
          rfl
        rw [hpre, hdrop, hrest]
        simp [keptInstrs, separatorCount, hinstrs, hsep]
      · have hpre : [opCodeSeparator].isPrefixOf s = false := by
          rw [hs, isPrefixOf_instrBytes]
          simpa using fun h => hsep h.symm
        have htake : s.take (s.length - rest.length) = instrBytes i := by
          rw [hs, List.length_append, Nat.add_sub_cancel, List.take_left]
        rw [hpre, hop]
        simp only [hrest, htake]
        simp [keptInstrs, separatorCount, hinstrs, hsep]

theorem findAndDelete_eq (s : CScript) : findAndDelete s [opCodeSeparator] =
    ((keptInstrs s).flatMap instrBytes ++ (instrs s).2, CBigNum.toInt32 (separatorCount s)) := by
  rw [findAndDelete, if_neg (by simp), findAndDeleteGo_eq s (by omega)]

/-- Removing instructions does not lengthen a script. -/
theorem length_findAndDelete_le (s : CScript) :
    (findAndDelete s [opCodeSeparator]).1.length ≤ s.length := by
  obtain ⟨_, hs, _⟩ := instrs_bytes s
  have hsub : ((keptInstrs s).flatMap instrBytes).length ≤
      ((instrs s).1.flatMap instrBytes).length :=
    (List.filter_sublist.flatMap _).length_le
  rw [findAndDelete_eq]
  calc ((keptInstrs s).flatMap instrBytes ++ (instrs s).2).length
      ≤ ((instrs s).1.flatMap instrBytes ++ (instrs s).2).length := by
        simp only [List.length_append]
        omega
    _ = s.length := by rw [← hs]

/-! ## Scripts without separators -/

/-- The bytes of well-formed instructions none of which is a code separator. -/
def SeparatorFree (code : CScript) : Prop :=
  ∃ is : List (UInt8 × Bytes), code = is.flatMap instrBytes ∧
    ∀ i ∈ is, WellFormed i ∧ i.1 ≠ opCodeSeparator

theorem SeparatorFree.append {code code' : CScript} (h : SeparatorFree code)
    (h' : SeparatorFree code') : SeparatorFree (code ++ code') := by
  obtain ⟨is, hcode, his⟩ := h
  obtain ⟨is', hcode', his'⟩ := h'
  refine ⟨is ++ is', by rw [List.flatMap_append, hcode, hcode'], fun i hi => ?_⟩
  rcases List.mem_append.mp hi with hi | hi
  · exact his i hi
  · exact his' i hi

theorem separatorFree_opcode {op : UInt8} (h : opPushData4 < op) (hne : op ≠ opCodeSeparator) :
    SeparatorFree [op] := by
  have hle : ¬ op ≤ opPushData4 := UInt8.not_le.mpr h
  refine ⟨[(op, [])], ?_, ?_⟩
  · rw [List.flatMap_singleton, instrBytes, lengthBytes_of_not_le hle]
    rfl
  · simp only [List.mem_singleton, forall_eq]
    exact ⟨(wellFormed_of_not_le hle []).mpr rfl, hne⟩

/-- Pushed bytes are no instruction, whatever they are. -/
theorem separatorFree_pushVec {b : Bytes} (h : b.length < 2 ^ 32) : SeparatorFree (pushVec b) := by
  obtain ⟨op, hop, hbytes, hwell⟩ := pushVec_eq_instrBytes h
  have hne : op ≠ opCodeSeparator := by
    intro heq
    rw [heq] at hop
    exact absurd hop (by decide)
  refine ⟨[(op, b)], by rw [List.flatMap_singleton, hbytes], ?_⟩
  simp only [List.mem_singleton, forall_eq]
  exact ⟨hwell, hne⟩

theorem separatorFree_pushUint {n : Nat} (x : BaseUint n) (hn : n < 76) :
    SeparatorFree (pushUint x) := by
  have hlen : x.bytes.length = n := x.length_bytes
  rw [← pushVec_eq_pushUint x hn]
  exact separatorFree_pushVec (by omega)

theorem separatorFree_pushInt64 (n : Int) : SeparatorFree (pushInt64 n) := by
  unfold pushInt64
  split
  · rename_i hsmall
    -- `OP_1NEGATE` or one of `OP_1` to `OP_16`
    have hop : (n + (opTrue.toNat - 1)).toNat = 79 ∨
        81 ≤ (n + (opTrue.toNat - 1)).toNat ∧ (n + (opTrue.toNat - 1)).toNat ≤ 96 := by
      have htrue : (opTrue.toNat : Int) = 81 := rfl
      omega
    generalize (n + (opTrue.toNat - 1)).toNat = m at hop
    have hm : (UInt8.ofNat m).toNat = m := by
      rw [UInt8.toNat_ofNat']
      omega
    apply separatorFree_opcode
    · rw [UInt8.lt_iff_toNat_lt, hm]
      show 78 < m
      omega
    · intro heq
      rw [heq] at hm
      have hsep : opCodeSeparator.toNat = 171 := rfl
      omega
  · have hlen := (CBigNum.length_getvch_le_iff (CBigNum.ofInt64 n) 5).mpr (by
      have h32 := CBigNum.toInt32_natAbs_le n
      rw [CBigNum.ofInt64_eq]
      omega)
    exact separatorFree_pushVec (by omega)

/-- Every contract is free of separators, whatever bytes its hashes and lock time have. -/
theorem separatorFree_contract (me them : Uint160) (lockTime : Int) {secHash : Bytes}
    (h : secHash.length < 2 ^ 32) :
    SeparatorFree (atomicSwapContract me them lockTime secHash) := by
  have hop {op : UInt8} (hlt : opPushData4 < op) (hne : op ≠ opCodeSeparator) :
      SeparatorFree [op] := separatorFree_opcode hlt hne
  have hredeem : SeparatorFree ([opRipemd160] ++ pushVec secHash ++ [opEqualVerify] ++ [opDup] ++
      [opHash160] ++ pushUint them) :=
    (((((hop (by decide) (by decide)).append (separatorFree_pushVec h)).append
      (hop (by decide) (by decide))).append (hop (by decide) (by decide))).append
      (hop (by decide) (by decide))).append (separatorFree_pushUint them (by omega))
  have hrefund : SeparatorFree (pushInt64 lockTime ++ [opCheckLockTimeVerify] ++ [opDrop] ++
      [opDup] ++ [opHash160] ++ pushUint me) :=
    (((((separatorFree_pushInt64 lockTime).append (hop (by decide) (by decide))).append
      (hop (by decide) (by decide))).append (hop (by decide) (by decide))).append
      (hop (by decide) (by decide))).append (separatorFree_pushUint me (by omega))
  exact ((((((hop (by decide) (by decide)).append hredeem).append
    (hop (by decide) (by decide))).append hrefund).append (hop (by decide) (by decide))).append
    (hop (by decide) (by decide))).append (hop (by decide) (by decide))

/-- Nothing is removed from a script without separators. -/
theorem findAndDelete_of_separatorFree {s : CScript} (hfree : SeparatorFree s)
    (h : s.length < 2 ^ 32) : findAndDelete s [opCodeSeparator] = (s, 0) := by
  obtain ⟨is, hs, his⟩ := hfree
  have hinstrs : instrs (is.flatMap instrBytes ++ []) = (is ++ (instrs []).1, (instrs []).2) :=
    instrs_flatMap (fun i hi => (his i hi).1) (by simpa [← hs] using h)
  rw [List.append_nil, ← hs] at hinstrs
  have hkept : keptInstrs s = is := by
    rw [keptInstrs, hinstrs]
    simp only [instrs_nil, List.append_nil, List.filter_eq_self, decide_eq_true_eq]
    exact fun i hi => (his i hi).2
  have hcount : separatorCount s = 0 := by
    rw [separatorCount, hinstrs]
    simp only [instrs_nil, List.append_nil, List.countP_eq_zero, decide_eq_true_eq]
    exact fun i hi => (his i hi).2
  rw [findAndDelete_eq, hkept, hcount, hinstrs, instrs_nil, List.append_nil, ← hs]
  rfl

/-! ## Every script -/

/-- A script and what `FindAndDelete` leaves of it are the bytes of their instructions and
    one unreadable tail; the separators alone are gone, and below 2^31 they are counted.
    Contracts stay as they are. -/
theorem findAndDelete_separators (s : CScript) (h : s.length < 2 ^ 32) :
    s = (instrs s).1.flatMap instrBytes ++ (instrs s).2 ∧
      (findAndDelete s [opCodeSeparator]).1 =
        (keptInstrs s).flatMap instrBytes ++ (instrs s).2 ∧
      instrs (findAndDelete s [opCodeSeparator]).1 = (keptInstrs s, (instrs s).2) ∧
      (separatorCount s < 2 ^ 31 →
        (findAndDelete s [opCodeSeparator]).2 = separatorCount s) ∧
      ∀ (me them : Uint160) (lockTime : Int) (secHash : Bytes),
        s = atomicSwapContract me them lockTime secHash →
          findAndDelete s [opCodeSeparator] = (s, 0) := by
  obtain ⟨hwell, hs, htail⟩ := instrs_bytes s
  have hleft := findAndDelete_eq s
  have hlen := length_findAndDelete_le s
  refine ⟨hs, by rw [hleft], ?_, ?_, ?_⟩
  · -- the instructions kept read as before, and so does the tail
    have hkept : ∀ i ∈ keptInstrs s, WellFormed i := fun i hi =>
      hwell i (List.mem_of_mem_filter hi)
    rw [hleft] at hlen ⊢
    simp only at hlen ⊢
    rw [instrs_flatMap hkept (by omega), instrs_of_none htail, List.append_nil]
  · intro hcount
    have hint : CBigNum.toInt32 (separatorCount s : Int) = separatorCount s :=
      CBigNum.toInt32_eq_self (by omega) (by omega)
    rw [hleft, hint]
  · intro me them lockTime secHash hcontract
    have hsec : secHash.length < 2 ^ 32 := by
      have hpush := (length_pushVec secHash).1
      rw [hcontract] at h
      simp only [atomicSwapContract, List.length_append] at h
      omega
    apply findAndDelete_of_separatorFree _ h
    rw [hcontract]
    exact separatorFree_contract me them lockTime hsec

/-- Two separators around a push of the byte 0xab, and a truncated push. -/
theorem findAndDelete_separators_mixed :
    findAndDelete [0xab, 0x01, 0xab, 0xab, 0x4c] [opCodeSeparator] = ([0x01, 0xab, 0x4c], 2) ∧
      keptInstrs [0xab, 0x01, 0xab, 0xab, 0x4c] = [(0x01, [0xab])] ∧
      instrs (findAndDelete [0xab, 0x01, 0xab, 0xab, 0x4c] [opCodeSeparator]).1 =
        (keptInstrs [0xab, 0x01, 0xab, 0xab, 0x4c], (instrs [0xab, 0x01, 0xab, 0xab, 0x4c]).2) := by
  have hall := findAndDelete_separators [0xab, 0x01, 0xab, 0xab, 0x4c] (by decide)
  exact ⟨by decide, by decide, hall.2.2.1⟩

/-- Every byte of a run of separators is one. -/
theorem separatorCount_replicate (n : Nat) :
    separatorCount (List.replicate n opCodeSeparator) = n := by
  have hinstrs : instrs (List.replicate n opCodeSeparator) =
      (List.replicate n (opCodeSeparator, []), []) := by
    induction n with
    | zero => rfl
    | succ n ih =>
      rw [List.replicate_succ, instrs_of_getOp (getOp_opcode (by decide) _), ih]
      rfl
  rw [separatorCount, hinstrs]
  simp [List.countP_replicate]

/-- 2^31 separators do not fit the `int` they are counted in. -/
theorem separators_not_counted :
    (List.replicate (2 ^ 31) opCodeSeparator).length < 2 ^ 32 ∧
      (findAndDelete (List.replicate (2 ^ 31) opCodeSeparator) [opCodeSeparator]).2 ≠
        separatorCount (List.replicate (2 ^ 31) opCodeSeparator) := by
  have hint : CBigNum.toInt32 ((2 ^ 31 : Nat) : Int) ≠ ((2 ^ 31 : Nat) : Int) := by decide
  rw [findAndDelete_eq, separatorCount_replicate, List.length_replicate]
  exact ⟨by omega, hint⟩

end CScript

end CrossChain
