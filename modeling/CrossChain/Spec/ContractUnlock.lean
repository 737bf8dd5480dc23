import CrossChain.Spec.ScriptMachine

/-!
# Who can spend a contract

The contract script, read by `GetOp`, is one conditional with plain branches
(`instrs_contract`).  Running a branch on an arbitrary stack gives the stacks
that unlock it (`redeemBranch_iff`, `refundBranch_iff`), and together they give
the hash-time-lock property (`contract_unlocks_iff`).
-/

namespace CrossChain

/-! ## Numbers in a script -/

/-- The reference reading of a number is that of `CBigNum`. -/
theorem scriptNum_eq_setvch {v : Bytes} (h : v.length + 4 < 2 ^ 31) :
    scriptNum v = CBigNum.setvch v := by
  have hlen : v.reverse.length + 4 < 2 ^ 31 := by
    rw [List.length_reverse]
    exact h
  rw [CBigNum.setvch, ← List.length_reverse, CBigNum.mpi2bn_be32 hlen, Option.getD_some]
  rcases List.eq_nil_or_concat' v with rfl | ⟨xs, b, rfl⟩
  · rfl
  · rw [scriptNum]
    simp only [List.reverse_append, List.reverse_cons, List.reverse_nil, List.nil_append,
      List.singleton_append, List.getLast?_append, List.getLast?_singleton, Option.some_or]
    have hbin : CBigNum.bin2bn (b :: xs.reverse) = Bytes.ofLE (xs ++ [b]) := by
      simp [CBigNum.bin2bn]
    rw [CBigNum.mpiValue, hbin]
    simp

/-- The bytes `getvch` writes denote the number. -/
theorem scriptNum_getvch {a : Int} (h : a.natAbs < 2 ^ 64) :
    scriptNum (CBigNum.getvch a) = a := by
  have hlen : (CBigNum.getvch a).length ≤ 9 :=
    (CBigNum.length_getvch_le_iff a 9).mpr (by omega)
  rw [scriptNum_eq_setvch (by omega), CBigNum.setvch_getvch h]

/-- A number is written as one push of a number of at most five bytes that denotes its
    `int` value. -/
theorem pushInt64_reads (n : Int) :
    ∃ i v, (∀ rest : Bytes, rest.length < 2 ^ 31 →
        CScript.getOp (CScript.pushInt64 n ++ rest) = (some i, rest)) ∧
      pushedValue i = some v ∧ scriptNum v = CBigNum.toInt32 n ∧ v.length ≤ 5 ∧
      (CScript.pushInt64 n).length ≤ 6 := by
  have h32 := CBigNum.toInt32_natAbs_le n
  by_cases hsmall : n = -1 ∨ (1 ≤ n ∧ n ≤ 16)
  · -- one opcode
    have hpush : CScript.pushInt64 n = [UInt8.ofNat (n + (opTrue.toNat - 1)).toNat] := by
      rw [CScript.pushInt64, if_pos hsmall]
    rw [hpush]
    refine ⟨(UInt8.ofNat (n + (opTrue.toNat - 1)).toNat, []), ?_⟩
    rcases hsmall with rfl | ⟨h1, h16⟩
    · exact ⟨[0x81], fun rest _ => CScript.getOp_opcode (by decide) rest, by decide, by decide,
        by decide, by decide⟩
    · -- OP_1 to OP_16
      interval_cases n <;>
        exact ⟨_, fun rest _ => CScript.getOp_opcode (by decide) rest, rfl, by decide, by decide,
          by decide⟩
  · have hpush : CScript.pushInt64 n = CScript.pushVec (CBigNum.getvch (CBigNum.toInt32 n)) := by
      rw [CScript.pushInt64, if_neg hsmall, CBigNum.ofInt64_eq]
    -- a push of `getvch`, at most five bytes
    generalize CBigNum.toInt32 n = m at h32 hpush
    have hlen : (CBigNum.getvch m).length ≤ 5 :=
      (CBigNum.length_getvch_le_iff m 5).mpr (by omega)
    have hvec : CScript.pushVec (CBigNum.getvch m) =
        UInt8.ofNat (CBigNum.getvch m).length :: CBigNum.getvch m :=
      CScript.pushVec_of_lt (by omega)
    refine ⟨(UInt8.ofNat (CBigNum.getvch m).length, CBigNum.getvch m), CBigNum.getvch m, ?_, ?_, ?_,
      hlen, ?_⟩
    · intro rest hrest
      rw [hpush, hvec]
      exact CScript.getOp_short (by omega) (by rw [List.length_append]; omega)
    · rw [pushedValue, if_pos]
      rw [UInt8.le_iff_toNat_le, UInt8.toNat_ofNat', Nat.mod_eq_of_lt (by omega)]
      change (CBigNum.getvch m).length ≤ 78
      omega
    · exact scriptNum_getvch (by omega)
    · rw [hpush, hvec, List.length_cons]
      omega

/-! ## Reading the contract -/

/-- The instructions of the redeem branch. -/
def redeemBranch (secHash them : Uint160) : List (UInt8 × Bytes) :=
  [(opRipemd160, []), (0x14, secHash.bytes), (opEqualVerify, []), (opDup, []), (opHash160, []),
    (0x14, them.bytes)]

/-- The instructions of the refund branch, with the push of the lock time. -/
def refundBranch (lock : UInt8 × Bytes) (me : Uint160) : List (UInt8 × Bytes) :=
  [lock, (opCheckLockTimeVerify, []), (opDrop, []), (opDup, []), (opHash160, []), (0x14, me.bytes)]

/-- The instructions after the branches. -/
def signatureCheck : List (UInt8 × Bytes) := [(opEqualVerify, []), (opCheckSig, [])]

/-- `GetOp` reads a contract as one conditional, for any way to read its lock time. -/
theorem instrs_contract {me them secHash : Uint160} {lockTime : Int} {lock : UInt8 × Bytes}
    (hlock : ∀ rest : Bytes, rest.length < 2 ^ 31 →
      CScript.getOp (CScript.pushInt64 lockTime ++ rest) = (some lock, rest))
    (hlen : (CScript.pushInt64 lockTime).length ≤ 6) :
    CScript.instrs (atomicSwapContract me them lockTime secHash.bytes) =
      ((opIf, []) :: redeemBranch secHash them ++ (opElse, []) :: refundBranch lock me ++
        (opEndIf, []) :: signatureCheck, []) := by
  have hvec : CScript.pushVec secHash.bytes = CScript.pushUint secHash :=
    CScript.pushVec_eq_pushUint secHash (by omega)
  have h20 : UInt8.ofNat 20 = 0x14 := rfl
  have hcontract : atomicSwapContract me them lockTime secHash.bytes =
      opIf :: opRipemd160 :: (CScript.pushUint secHash ++ opEqualVerify :: opDup :: opHash160 ::
        (CScript.pushUint them ++ opElse :: (CScript.pushInt64 lockTime ++
          opCheckLockTimeVerify :: opDrop :: opDup :: opHash160 :: (CScript.pushUint me ++
            [opEndIf, opEqualVerify, opCheckSig])))) := by
    simp [atomicSwapContract, hvec]
  have huint (x : Uint160) : (CScript.pushUint x).length = 21 := by
    simp [CScript.pushUint]
  -- one instruction after the other; the bytes left are far below 2^31
  rw [hcontract]
  rw [CScript.instrs_of_getOp (CScript.getOp_opcode (by decide) _),
    CScript.instrs_of_getOp (CScript.getOp_opcode (by decide) _),
    CScript.instrs_of_getOp (CScript.getOp_pushUint secHash (by decide)
      (by simp only [List.length_cons, List.length_append, huint, List.length_nil]; omega)),
    CScript.instrs_of_getOp (CScript.getOp_opcode (by decide) _),
    CScript.instrs_of_getOp (CScript.getOp_opcode (by decide) _),
    CScript.instrs_of_getOp (CScript.getOp_opcode (by decide) _),
    CScript.instrs_of_getOp (CScript.getOp_pushUint them (by decide)
      (by simp only [List.length_cons, List.length_append, huint, List.length_nil]; omega)),
    CScript.instrs_of_getOp (CScript.getOp_opcode (by decide) _),
    CScript.instrs_of_getOp (hlock _
      (by simp only [List.length_cons, List.length_append, huint, List.length_nil]; omega)),
    CScript.instrs_of_getOp (CScript.getOp_opcode (by decide) _),
    CScript.instrs_of_getOp (CScript.getOp_opcode (by decide) _),
    CScript.instrs_of_getOp (CScript.getOp_opcode (by decide) _),
    CScript.instrs_of_getOp (CScript.getOp_opcode (by decide) _),
    CScript.instrs_of_getOp (CScript.getOp_pushUint me (by decide) (by decide)),
    CScript.instrs_of_getOp (CScript.getOp_opcode (by decide) _),
    CScript.instrs_of_getOp (CScript.getOp_opcode (by decide) _),
    CScript.instrs_of_getOp (CScript.getOp_opcode (by decide) _)]
  simp [redeemBranch, refundBranch, signatureCheck, h20]

/-! ## The two branches -/

section

variable {ssl : OpenSSL} {ctx : SpendContext}

/-- A stack whose top is true. -/
def TrueOnTop (s : Option (List Bytes)) : Prop :=
  ∃ v rest, s = some (v :: rest) ∧ castToBool v = true

theorem trueOnTop_none : ¬ TrueOnTop none := by
  intro hgiven
  obtain ⟨_, _, h, _⟩ := hgiven
  cases h

/-- The outcome of `OP_CHECKSIG` on top is its verdict. -/
theorem trueOnTop_checkSig (b : Bool) (s : List Bytes) :
    TrueOnTop (some ((if b then [1] else []) :: s)) ↔ b = true := by
  constructor
  · intro hgiven
    obtain ⟨_, _, h, htrue⟩ := hgiven
    cases h
    cases b with
    | true => rfl
    | false => exact absurd htrue (by decide)
  · intro heq
    subst heq
    exact ⟨[1], s, rfl, by decide⟩

/-- `OP_DUP OP_HASH160 <h> OP_EQUALVERIFY OP_CHECKSIG` on a stack: the public key has the
    hash and the signature below it is valid. -/
theorem payToPubkeyHash_iff (h : Uint160) (stack : List Bytes) :
    TrueOnTop ((scriptMachine ssl ctx).execAll
        ([(opDup, []), (opHash160, []), (0x14, h.bytes)] ++ signatureCheck) stack) ↔
      ∃ pk sig rest, stack = pk :: sig :: rest ∧ hash160 ssl pk = h ∧
        ctx.checkSig sig pk = true := by
  rw [show [(opDup, []), (opHash160, []), (0x14, h.bytes)] ++ signatureCheck =
    (opDup, []) :: (opHash160, []) :: (0x14, h.bytes) :: (opEqualVerify, []) ::
      [(opCheckSig, [])] from rfl, CondMachine.execAll_cons, exec_dup]
  cases stack with
  | nil =>
    constructor
    · intro htop
      exact absurd htop trueOnTop_none
    · intro hgiven
      obtain ⟨_, _, _, hs, _⟩ := hgiven
      cases hs
  | cons pk s =>
    simp only [Option.bind_some]
    rw [CondMachine.execAll_cons, exec_hash160]
    simp only [Option.bind_some]
    rw [CondMachine.execAll_cons, exec_hashPush, Option.bind_some, CondMachine.execAll_cons,
      exec_equalVerify]
    dsimp only
    -- OP_EQUALVERIFY ends the run on a wrong key
    by_cases hpk : h.bytes = (hash160 ssl pk).bytes
    · rw [if_pos hpk, Option.bind_some, CondMachine.execAll_cons, exec_checkSig]
      cases s with
      | nil =>
        constructor
        · intro htop
          exact absurd htop trueOnTop_none
        · intro hgiven
          obtain ⟨_, _, _, hs, _⟩ := hgiven
          cases hs
      | cons sig rest =>
        simp only [Option.bind_some]
        rw [show (scriptMachine ssl ctx).execAll [] = some from rfl, trueOnTop_checkSig]
        constructor
        · intro hsig
          exact ⟨pk, sig, rest, rfl, BaseUint.ext hpk.symm, hsig⟩
        · intro hgiven
          obtain ⟨pk', sig', rest', hs, _, hsig⟩ := hgiven
          cases hs
          exact hsig
    · rw [if_neg hpk, Option.bind_none]
      constructor
      · intro htop
        exact absurd htop trueOnTop_none
      · intro hgiven
        obtain ⟨pk', sig, rest, hs, hh, _⟩ := hgiven
        cases hs
        exact absurd (by rw [hh]) hpk

/-- The redeem branch: a preimage of the hash, then what pays to the recipient. -/
theorem redeemBranch_iff (secHash them : Uint160) (stack : List Bytes) :
    TrueOnTop ((scriptMachine ssl ctx).execAll (redeemBranch secHash them ++ signatureCheck)
        stack) ↔
      ∃ p pk sig rest, stack = p :: pk :: sig :: rest ∧ ssl.ripemd160 p = secHash ∧
        hash160 ssl pk = them ∧ ctx.checkSig sig pk = true := by
  have hsplit : redeemBranch secHash them ++ signatureCheck =
      (opRipemd160, []) :: (0x14, secHash.bytes) :: (opEqualVerify, []) ::
        ([(opDup, []), (opHash160, []), (0x14, them.bytes)] ++ signatureCheck) := rfl
  rw [hsplit, CondMachine.execAll_cons, exec_ripemd160]
  cases stack with
  | nil =>
    constructor
    · intro htop
      exact absurd htop trueOnTop_none
    · intro h
      obtain ⟨_, _, _, _, hs, _⟩ := h
      cases hs
  | cons p s =>
    simp only [Option.bind_some]
    rw [CondMachine.execAll_cons, exec_hashPush, Option.bind_some, CondMachine.execAll_cons,
      exec_equalVerify]
    dsimp only
    -- OP_EQUALVERIFY ends the run on a wrong preimage
    by_cases hp : secHash.bytes = (ssl.ripemd160 p).bytes
    · rw [if_pos hp, Option.bind_some, payToPubkeyHash_iff]
      constructor
      · intro h
        obtain ⟨pk, sig, rest, rfl, hpk, hsig⟩ := h
        exact ⟨p, pk, sig, rest, rfl, BaseUint.ext hp.symm, hpk, hsig⟩
      · intro h
        obtain ⟨p', pk, sig, rest, hs, _, hpk, hsig⟩ := h
        cases hs
        exact ⟨pk, sig, rest, rfl, hpk, hsig⟩
    · rw [if_neg hp, Option.bind_none]
      constructor
      · intro htop
        exact absurd htop trueOnTop_none
      · intro h
        obtain ⟨p', pk, sig, rest, hs, hh, _⟩ := h
        cases hs
        exact absurd (by rw [hh]) hp

/-- The refund branch: a lock time that is no negative number and is reached, then what
    pays to the refunder. -/
theorem refundBranch_iff {lock : UInt8 × Bytes} {v : Bytes} {lockTime : Int}
    (hpush : pushedValue lock = some v) (hnum : scriptNum v = lockTime) (hlen : v.length ≤ 5)
    (me : Uint160) (stack : List Bytes) :
    TrueOnTop ((scriptMachine ssl ctx).execAll (refundBranch lock me ++ signatureCheck) stack) ↔
      (0 ≤ lockTime ∧ LockTimeReached ctx lockTime) ∧
        ∃ pk sig rest, stack = pk :: sig :: rest ∧ hash160 ssl pk = me ∧
          ctx.checkSig sig pk = true := by
  have hsplit : refundBranch lock me ++ signatureCheck =
      lock :: (opCheckLockTimeVerify, []) :: (opDrop, []) ::
        ([(opDup, []), (opHash160, []), (0x14, me.bytes)] ++ signatureCheck) := rfl
  have hcond : (v.length ≤ 5 ∧ 0 ≤ scriptNum v ∧ LockTimeReached ctx (scriptNum v)) ↔
      0 ≤ lockTime ∧ LockTimeReached ctx lockTime := by
    rw [hnum]
    exact ⟨fun h => h.2, fun h => ⟨hlen, h⟩⟩
  rw [hsplit, CondMachine.execAll_cons, exec_push hpush, Option.bind_some,
    CondMachine.execAll_cons, exec_checkLockTimeVerify]
  simp only [hcond]
  -- OP_CHECKLOCKTIMEVERIFY ends the run before the lock time
  by_cases hreached : 0 ≤ lockTime ∧ LockTimeReached ctx lockTime
  · rw [if_pos hreached, Option.bind_some, CondMachine.execAll_cons, exec_drop]
    simp only [Option.bind_some, hreached, true_and]
    exact payToPubkeyHash_iff me stack
  · rw [if_neg hreached, Option.bind_none, iff_false_right (fun h => hreached h.1)]
    exact trueOnTop_none

end

/-! ## The contract -/

section

variable {ssl : OpenSSL} {ctx : SpendContext}

theorem not_unlocks_nil (me them secHash : Uint160) (lockTime : Int) :
    ¬ Unlocks ssl ctx (atomicSwapContract me them lockTime secHash.bytes) [] := by
  obtain ⟨lock, v, hread, hpush, hnum, hlen, hsize⟩ := pushInt64_reads lockTime
  intro h
  obtain ⟨_, _, hrun, _⟩ := h
  rw [runScript, instrs_contract hread hsize, if_pos rfl] at hrun
  cases hrun

/-- The top of the stack chooses the branch. -/
theorem unlocks_cons_iff (me them secHash : Uint160) (lockTime : Int) (top : Bytes)
    (stack : List Bytes) :
    Unlocks ssl ctx (atomicSwapContract me them lockTime secHash.bytes) (top :: stack) ↔
      if castToBool top then
        ∃ p pk sig rest, stack = p :: pk :: sig :: rest ∧ ssl.ripemd160 p = secHash ∧
          hash160 ssl pk = them ∧ ctx.checkSig sig pk = true
      else (0 ≤ CBigNum.toInt32 lockTime ∧ LockTimeReached ctx (CBigNum.toInt32 lockTime)) ∧
        ∃ pk sig rest, stack = pk :: sig :: rest ∧ hash160 ssl pk = me ∧
          ctx.checkSig sig pk = true := by
  obtain ⟨lock, v, hread, hpush, hnum, hlen, hsize⟩ := pushInt64_reads lockTime
  -- neither branch nests another conditional
  have hthen : (scriptMachine ssl ctx).Plain (redeemBranch secHash them) := by
    intro i hi
    simp only [redeemBranch, List.mem_cons, List.not_mem_nil, or_false] at hi
    rcases hi with rfl | rfl | rfl | rfl | rfl | rfl <;> rfl
  have helse : (scriptMachine ssl ctx).Plain (refundBranch lock me) := by
    intro i hi
    simp only [refundBranch, List.mem_cons, List.not_mem_nil, or_false] at hi
    rcases hi with rfl | rfl | rfl | rfl | rfl | rfl
    · exact control_push hpush
    all_goals rfl
  have hrest : (scriptMachine ssl ctx).Plain signatureCheck := by
    intro i hi
    simp only [signatureCheck, List.mem_cons, List.not_mem_nil, or_false] at hi
    rcases hi with rfl | rfl <;> rfl
  have hcontrolIf : (scriptMachine ssl ctx).control (opIf, []) = .opIf := rfl
  have hcontrolElse : (scriptMachine ssl ctx).control (opElse, []) = .opElse := rfl
  have hcontrolEndIf : (scriptMachine ssl ctx).control (opEndIf, []) = .opEndIf := rfl
  -- the run is a test of the top item and one branch with the signature check
  have hrun : Unlocks ssl ctx (atomicSwapContract me them lockTime secHash.bytes)
        (top :: stack) ↔
      TrueOnTop (((scriptMachine ssl ctx).test (top :: stack)).bind fun (c, d) =>
        (scriptMachine ssl ctx).execAll
          ((if c then redeemBranch secHash them else refundBranch lock me) ++ signatureCheck)
          d) := by
    rw [← CondMachine.runProgram_ifElse hcontrolIf hcontrolElse hcontrolEndIf hthen helse hrest,
      Unlocks, runScript, instrs_contract hread hsize, if_pos rfl]
    rfl
  rw [hrun, show (scriptMachine ssl ctx).test (top :: stack) = some (castToBool top, stack) from
    rfl, Option.bind_some]
  cases castToBool top with
  | true => exact redeemBranch_iff secHash them stack
  | false => exact refundBranch_iff hpush hnum hlen me stack

end

/-- A stack unlocks a contract exactly when its top is true and below it lie a preimage of
    the hash, the recipient's key and a signature, or its top is false and below it lie
    the refunder's key and a signature, in an input that has reached the lock time. -/
theorem contract_unlocks_iff (ssl : OpenSSL) (ctx : SpendContext) (me them secHash : Uint160)
    (lockTime : Int) (hlo : 0 ≤ lockTime) (hhi : lockTime < 2 ^ 31) (stack : List Bytes) :
    Unlocks ssl ctx (atomicSwapContract me them lockTime secHash.bytes) stack ↔
      (∃ top p pk sig rest, stack = top :: p :: pk :: sig :: rest ∧ castToBool top = true ∧
        ssl.ripemd160 p = secHash ∧ hash160 ssl pk = them ∧ ctx.checkSig sig pk = true) ∨
      (∃ top pk sig rest, stack = top :: pk :: sig :: rest ∧ castToBool top = false ∧
        hash160 ssl pk = me ∧ ctx.checkSig sig pk = true ∧
        ctx.nSequence ≠ uintMax ∧ SameKind ctx.nLockTime.toNat lockTime ∧
        lockTime ≤ ctx.nLockTime.toNat) := by
  have h32 : CBigNum.toInt32 lockTime = lockTime := CBigNum.toInt32_eq_self (by omega) hhi
  cases stack with
  | nil =>
    constructor
    · -- OP_IF needs an item
      intro h
      exact absurd h (not_unlocks_nil me them secHash lockTime)
    · rintro (⟨_, _, _, _, _, hs, _⟩ | ⟨_, _, _, _, hs, _⟩) <;> cases hs
  | cons top s =>
    rw [unlocks_cons_iff, h32]
    cases htop : castToBool top with
    | true =>
      simp only [↓reduceIte]
      constructor
      · intro hgiven
        obtain ⟨p, pk, sig, rest, rfl, hp, hpk, hsig⟩ := hgiven
        exact .inl ⟨top, p, pk, sig, rest, rfl, htop, hp, hpk, hsig⟩
      · rintro (⟨_, p, pk, sig, rest, hs, _, hp, hpk, hsig⟩ | ⟨_, _, _, _, hs, hfalse, _⟩)
        · cases hs
          exact ⟨p, pk, sig, rest, rfl, hp, hpk, hsig⟩
        · cases hs
          rw [htop] at hfalse
          cases hfalse
    | false =>
      simp only [Bool.false_eq_true, ↓reduceIte]
      constructor
      · intro hgiven
        obtain ⟨⟨_, hkind, hle, hseq⟩, pk, sig, rest, rfl, hpk, hsig⟩ := hgiven
        exact .inr ⟨top, pk, sig, rest, rfl, htop, hpk, hsig, hseq, hkind, hle⟩
      · rintro (⟨_, _, _, _, _, hs, htrue, _⟩ |
          ⟨_, pk, sig, rest, hs, _, hpk, hsig, hseq, hkind, hle⟩)
        · cases hs
          rw [htop] at htrue
          cases htrue
        · cases hs
          exact ⟨⟨hlo, hkind, hle, hseq⟩, pk, sig, rest, rfl, hpk, hsig⟩

/-- The contract of private keys 1 (refund) and 2 (redeem) for the secret 11...11 is
    unlocked by that secret and key 2. -/
theorem contract_unlocks_sample :
    Unlocks digestsOnly ⟨fun sig _ => sig == [0x30], 0, 0⟩
      (atomicSwapContract
        (BaseUint.ofBytes 20 (hexBytes "751e76e8199196d454941c45d1b3a323f1433bd6"))
        (BaseUint.ofBytes 20 (hexBytes "06afd46bcdfd22ef94ac122aa11f241244a37ecc"))
        1515172800 (digestsOnly.ripemd160 (List.replicate 32 0x11)).bytes)
      [[1], List.replicate 32 0x11,
        hexBytes "02c6047f9441ed7d6d3045406e95c07cd85c778e4b8cef3ca7abac09b95c709ee5",
        [0x30]] :=
  (contract_unlocks_iff digestsOnly _ _ _ _ 1515172800 (by decide) (by decide) _).mpr
    (.inl ⟨[1], _, _, _, [], rfl, by decide, rfl, by decide +kernel, by decide⟩)

end CrossChain
