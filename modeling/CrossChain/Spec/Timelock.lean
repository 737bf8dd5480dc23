import Mathlib.Logic.Relation
import CrossChain.Spec.ContractUnlock
import CrossChain.Spec.Extract
import CrossChain.Spec.Funding

/-!
# The two contracts of a swap in time

A swap as a transition system: a clock, two chains, and the five operations run
by the two parties.  Each operation is a run of the program; a chain accepts a
transaction it hands in by running the contract's script.

The lock times of the two contracts are computed by separate calls.  The one of
the first contract is later as long as `Participate` runs at most a day after
`Initiate` (`swap_atomic`), and the program does not check that
(`swap_not_atomic`).
-/

namespace CrossChain

/-! ## What a chain accepts -/

/-- The stack an input leaves for the script it spends, top first. -/
def pushedStack (scriptSig : CScript) : List Bytes :=
  ((CScript.instrs scriptSig).1.filterMap pushedValue).reverse

section

variable (ssl : OpenSSL) (checkSig : CScript → CTransaction → Bytes → Bytes → Bool)

/-- At moment `now` a chain accepts `tx` as spending a contract with `stack`: the lock time
    of `tx` has come, its first input pushes the contract on top of the stack, and the
    stack unlocks the contract. -/
structure Accepted (contract : CScript) (tx : CTransaction) (stack : List Bytes) (now : Int) :
    Prop where
  final : tx.nLockTime.toNat ≤ now
  spends : ∃ input, tx.vin.head? = some input ∧
    pushedStack input.scriptSig = contract :: stack ∧
    Unlocks ssl ⟨checkSig contract tx, tx.nLockTime, input.nSequence⟩ contract stack

/-- At moment `now` some transaction can take the refund branch of a contract. -/
def Refundable (contract : CScript) (now : Int) : Prop :=
  ∃ tx top stack, castToBool top = false ∧
    Accepted ssl checkSig contract tx (top :: stack) now

end

/-- The number `OP_CHECKLOCKTIMEVERIFY` finds in a contract. -/
def contractLock (contract : CScript) : Int :=
  scriptNum (extractAtomicSwapData contract).lockTime

/-- A contract that was built and is accepted by `ISAtomicSwap` holds the `int` value of
    its lock time. -/
theorem contractLock_eq {me them : Uint160} {lockTime : Int} {secHash : Bytes}
    (h : CScript.isAtomicSwap (atomicSwapContract me them lockTime secHash) = .ok true) :
    contractLock (atomicSwapContract me them lockTime secHash) = CBigNum.toInt32 lockTime := by
  obtain ⟨hlen, hrange⟩ := (isAtomicSwap_contract_iff _ _ _ _).mp h
  obtain ⟨hlock, hpush⟩ :=
    CScript.pushInt64_eq_of_head ((CScript.pushInt64_head_iff lockTime).mpr hrange)
  have h32 := CBigNum.toInt32_natAbs_le lockTime
  rw [contractLock, atomicSwapContract_eq hlen hpush,
    extractAtomicSwapData_contractBytes hlen them.length_bytes hlock me.length_bytes,
    scriptNum_getvch (by omega)]

/-- A refund is accepted from the contract's lock time on only. -/
theorem Refundable.lock_le {ssl : OpenSSL}
    {checkSig : CScript → CTransaction → Bytes → Bytes → Bool} {me them secHash : Uint160}
    {lockTime now : Int}
    (h : Refundable ssl checkSig (atomicSwapContract me them lockTime secHash.bytes) now) :
    0 ≤ CBigNum.toInt32 lockTime ∧ CBigNum.toInt32 lockTime ≤ now := by
  obtain ⟨tx, top, stack, htop, hfinal, input, _, _, hunlocks⟩ := h
  rw [unlocks_cons_iff, htop] at hunlocks
  -- the lock time is at most that of the transaction, which is at most now
  obtain ⟨⟨hnonneg, _, hle, _⟩, _⟩ := hunlocks
  exact ⟨hnonneg, Int.le_trans hle hfinal⟩

/-! ## The transition system -/

/-- The two chains: `Initiate` funds on the first, `Participate` on the second. -/
inductive Side where
  | a
  | b
  deriving DecidableEq

/-- A contract on its chain and the moment it was funded at. -/
structure Deposit where
  contract : CScript
  fundedAt : Int

/-- How a contract was spent, and when. -/
inductive Spend where
  | redeemed (tx : CTransaction) (moment : Int)
  | refunded (tx : CTransaction) (moment : Int)

structure ChainState where
  deposit : Option Deposit
  spend : Option Spend

/-- The clock, what the parties know, and the two chains. -/
structure SwapState where
  now : Int
  /-- "Secret" and "Secret hash" of the response to Initiate. -/
  secret : Option Str
  secretHash : Option Str
  /-- "secret" of the response to ExtractSecret. -/
  learned : Option Str
  chain : Side → ChainState

namespace SwapState

def initial (now : Int) : SwapState := ⟨now, none, none, none, fun _ => ⟨none, none⟩⟩

/-- The secret the party that redeems on this chain knows. -/
def known (s : SwapState) : Side → Option Str
  | .a => s.learned
  | .b => s.secret

/-- A contract is funded now. -/
def fund (s : SwapState) (side : Side) (contract : CScript) : SwapState :=
  { s with chain := Function.update s.chain side ⟨some ⟨contract, s.now⟩, none⟩ }

/-- The contract is spent now. -/
def spend (s : SwapState) (side : Side) (how : Spend) : SwapState :=
  { s with chain := Function.update s.chain side ⟨(s.chain side).deposit, some how⟩ }

@[simp] theorem fund_now (s : SwapState) (side : Side) (contract : CScript) :
    (s.fund side contract).now = s.now := rfl

@[simp] theorem fund_secretHash (s : SwapState) (side : Side) (contract : CScript) :
    (s.fund side contract).secretHash = s.secretHash := rfl

@[simp] theorem fund_chain_self (s : SwapState) (side : Side) (contract : CScript) :
    (s.fund side contract).chain side = ⟨some ⟨contract, s.now⟩, none⟩ := by
  simp [fund]

@[simp] theorem fund_chain_ne (s : SwapState) {side side' : Side} (contract : CScript)
    (h : side' ≠ side) : (s.fund side contract).chain side' = s.chain side' := by
  simp [fund, h]

@[simp] theorem spend_now (s : SwapState) (side : Side) (how : Spend) :
    (s.spend side how).now = s.now := rfl

@[simp] theorem spend_secretHash (s : SwapState) (side : Side) (how : Spend) :
    (s.spend side how).secretHash = s.secretHash := rfl

@[simp] theorem spend_chain_self (s : SwapState) (side : Side) (how : Spend) :
    (s.spend side how).chain side = ⟨(s.chain side).deposit, some how⟩ := by
  simp [spend]

@[simp] theorem spend_chain_ne (s : SwapState) {side side' : Side} (how : Spend)
    (h : side' ≠ side) : (s.spend side how).chain side' = s.chain side' := by
  simp [spend, h]

/-- Spending leaves every deposit as it is. -/
theorem spend_deposit (s : SwapState) (side side' : Side) (how : Spend) :
    ((s.spend side how).chain side').deposit = (s.chain side').deposit := by
  by_cases h : side' = side
  · subst h
    simp
  · simp [h]

end SwapState

section

variable (ssl : OpenSSL) (checkSig : CScript → CTransaction → Bytes → Bytes → Bool)
  (conf : Side → RpcConf)

/-- One event of a swap: time passes, or one of the parties runs an operation, which reads
    the clock and gets any answers from its node. -/
inductive Step : SwapState → SwapState → Prop where
  | tick {s : SwapState} (now : Int) (hnow : s.now ≤ now) : Step s { s with now := now }
  | initiate {s : SwapState} {p : FundParams} {env : Env} {w' : World}
      {secret secretHash hex : Str} (hnone : (s.chain .a).deposit = none)
      (hnow : env.now = s.now)
      (hrun : initiate ssl p (conf .a) env World.initial = (.ok (), w'))
      (hsecret : w'.response.lookup "Secret" = some (.string secret))
      (hhash : w'.response.lookup "Secret hash" = some (.string secretHash))
      (hhex : w'.response.lookup "Contract hex" = some (.string hex)) :
      Step s { s.fund .a (parseHex hex) with secret := some secret, secretHash := some secretHash }
  | participate {s : SwapState} {p : FundParams} {env : Env} {w' : World} {secretHash hex : Str}
      (hnone : (s.chain .b).deposit = none) (hhash : s.secretHash = some secretHash)
      (hnow : env.now = s.now)
      (hrun : participate ssl p secretHash (conf .b) env World.initial = (.ok (), w'))
      (hhex : w'.response.lookup "Contract hex" = some (.string hex)) :
      Step s (s.fund .b (parseHex hex))
  | redeem {s : SwapState} {side : Side} {d : Deposit} {hex txid secret address : Str} {env : Env}
      {tx : CTransaction} {w' : World} {stack : List Bytes}
      (hdeposit : (s.chain side).deposit = some d) (hspend : (s.chain side).spend = none)
      (hhex : parseHex hex = d.contract) (hknown : s.known side = some secret)
      (hnow : env.now = s.now)
      (hrun : redeemTransaction ssl hex txid secret address (conf side) env World.initial =
        (.ok tx, w'))
      (haccepted : Accepted ssl checkSig d.contract tx stack s.now) :
      Step s (s.spend side (.redeemed tx s.now))
  | extract {s : SwapState} {tx : CTransaction} {moment : Int} {small : UInt8 × Bytes → Str}
      {txid secretHash secret : Str} {env : Env} {w' : World}
      (hspend : (s.chain .b).spend = some (.redeemed tx moment))
      (hhash : s.secretHash = some secretHash) (hnode : NodeDecodes small env 0 tx)
      (hrun : extractSecret ssl txid secretHash (conf .b) env World.initial = (.ok (), w'))
      (hsecret : w'.response.lookup "secret" = some (.string secret)) :
      Step s { s with learned := some secret }
  | refund {s : SwapState} {side : Side} {d : Deposit} {hex txid address : Str} {env : Env}
      {tx : CTransaction} {w' : World} {stack : List Bytes}
      (hdeposit : (s.chain side).deposit = some d) (hspend : (s.chain side).spend = none)
      (hhex : parseHex hex = d.contract) (hnow : env.now = s.now)
      (hrun : refundTransaction ssl hex txid address (conf side) env World.initial = (.ok tx, w'))
      (haccepted : Accepted ssl checkSig d.contract tx stack s.now) :
      Step s (s.spend side (.refunded tx s.now))

/-- The states of a swap that begins at some moment. -/
def Reachable (s : SwapState) : Prop :=
  ∃ now, 0 ≤ now ∧ Relation.ReflTransGen (Step ssl checkSig conf) (.initial now) s

end

/-! ## What every run keeps -/

section

variable {ssl : OpenSSL} {checkSig : CScript → CTransaction → Bytes → Bytes → Bool}
  {conf : Side → RpcConf}

/-- What holds of every state of a swap. -/
structure SwapInv (ssl : OpenSSL) (checkSig : CScript → CTransaction → Bytes → Bytes → Bool)
    (s : SwapState) : Prop where
  clock : 0 ≤ s.now
  /-- The first contract was built with the lock time of its moment. -/
  initiated : ∀ d, (s.chain .a).deposit = some d → 0 ≤ d.fundedAt ∧ d.fundedAt ≤ s.now ∧
    ∃ me them secHash : Uint160,
      d.contract = atomicSwapContract me them (d.fundedAt + initiateLocktime) secHash.bytes
  /-- The hash is known from the first contract on. -/
  hashed : s.secretHash.isSome → (s.chain .a).deposit.isSome
  /-- The second contract was built after the first. -/
  participated : ∀ d, (s.chain .b).deposit = some d → d.fundedAt ≤ s.now ∧
    (∃ me them secHash,
      d.contract = atomicSwapContract me them (d.fundedAt + participateLocktime) secHash) ∧
    ∃ dA, (s.chain .a).deposit = some dA ∧ dA.fundedAt ≤ d.fundedAt
  /-- A redeemed contract was accepted by `ISAtomicSwap`, and funded before. -/
  redeemed : ∀ side tx m, (s.chain side).spend = some (.redeemed tx m) →
    ∃ d, (s.chain side).deposit = some d ∧ d.fundedAt ≤ m ∧
      CScript.isAtomicSwap d.contract = .ok true
  /-- The first contract was refunded when it was refundable. -/
  refunded : ∀ tx m, (s.chain .a).spend = some (.refunded tx m) →
    ∃ d, (s.chain .a).deposit = some d ∧ Refundable ssl checkSig d.contract m

theorem swapInv_initial {now : Int} (h : 0 ≤ now) : SwapInv ssl checkSig (.initial now) := by
  constructor
  case clock => exact h
  case initiated =>
    intro d hd
    cases hd
  case hashed =>
    intro hsome
    cases hsome
  case participated =>
    intro d hd
    cases hd
  case redeemed =>
    intro side tx m hspend
    cases hspend
  case refunded =>
    intro tx m hspend
    cases hspend

theorem swapInv_tick {s : SwapState} (hi : SwapInv ssl checkSig s) {now : Int}
    (hnow : s.now ≤ now) : SwapInv ssl checkSig { s with now := now } := by
  constructor
  case clock => exact Int.le_trans hi.clock hnow
  case initiated =>
    intro d hd
    obtain ⟨h0, hle, hbuilt⟩ := hi.initiated d hd
    exact ⟨h0, Int.le_trans hle hnow, hbuilt⟩
  case hashed => exact hi.hashed
  case participated =>
    intro d hd
    obtain ⟨hle, hbuilt⟩ := hi.participated d hd
    exact ⟨Int.le_trans hle hnow, hbuilt⟩
  case redeemed => exact hi.redeemed
  case refunded => exact hi.refunded

/-- Learning a secret changes nothing on the chains. -/
theorem swapInv_learn {s : SwapState} (hi : SwapInv ssl checkSig s) (learned : Option Str) :
    SwapInv ssl checkSig { s with learned := learned } :=
  ⟨hi.clock, hi.initiated, hi.hashed, hi.participated, hi.redeemed, hi.refunded⟩

theorem swapInv_initiate {s : SwapState} (hi : SwapInv ssl checkSig s)
    (hnone : (s.chain .a).deposit = none) {contract : CScript}
    (hbuilt : ∃ me them secHash : Uint160,
      contract = atomicSwapContract me them (s.now + initiateLocktime) secHash.bytes)
    (secret secretHash : Str) :
    SwapInv ssl checkSig
      { s.fund .a contract with secret := some secret, secretHash := some secretHash } := by
  have hchain : ({ s.fund .a contract with secret := some secret, secretHash := some secretHash } :
      SwapState).chain = (s.fund .a contract).chain := rfl
  constructor
  case clock => exact hi.clock
  case initiated =>
    intro d hd
    rw [hchain, SwapState.fund_chain_self] at hd
    cases hd
    exact ⟨hi.clock, Int.le_refl _, hbuilt⟩
  case hashed =>
    intro _
    rw [hchain, SwapState.fund_chain_self]
    rfl
  case participated =>
    intro d hd
    rw [hchain, SwapState.fund_chain_ne s contract (by decide)] at hd
    -- no second contract before the first
    obtain ⟨_, _, dA, hdA, _⟩ := hi.participated d hd
    rw [hnone] at hdA
    cases hdA
  case redeemed =>
    intro side tx m hspend
    cases side with
    | a =>
      rw [hchain, SwapState.fund_chain_self] at hspend
      cases hspend
    | b =>
      rw [hchain, SwapState.fund_chain_ne s contract (by decide)] at hspend ⊢
      exact hi.redeemed .b tx m hspend
  case refunded =>
    intro tx m hspend
    rw [hchain, SwapState.fund_chain_self] at hspend
    cases hspend

theorem swapInv_participate {s : SwapState} (hi : SwapInv ssl checkSig s) {secretHash : Str}
    (hhash : s.secretHash = some secretHash) {contract : CScript}
    (hbuilt : ∃ me them secHash,
      contract = atomicSwapContract me them (s.now + participateLocktime) secHash) :
    SwapInv ssl checkSig (s.fund .b contract) := by
  -- the first chain is not touched
  have ha : (s.fund .b contract).chain .a = s.chain .a :=
    SwapState.fund_chain_ne s contract (by decide)
  obtain ⟨dA, hdA⟩ := Option.isSome_iff_exists.mp (hi.hashed (by rw [hhash]; rfl))
  constructor
  case clock => exact hi.clock
  case initiated =>
    intro d hd
    rw [ha] at hd
    exact hi.initiated d hd
  case hashed =>
    intro h
    rw [ha]
    exact hi.hashed h
  case participated =>
    intro d hd
    rw [SwapState.fund_chain_self] at hd
    cases hd
    obtain ⟨_, hle, _⟩ := hi.initiated dA hdA
    exact ⟨Int.le_refl _, hbuilt, dA, by rw [ha, hdA], hle⟩
  case redeemed =>
    intro side tx m hspend
    cases side with
    | a =>
      rw [ha] at hspend ⊢
      exact hi.redeemed .a tx m hspend
    | b =>
      rw [SwapState.fund_chain_self] at hspend
      cases hspend
  case refunded =>
    intro tx m hspend
    rw [ha] at hspend ⊢
    exact hi.refunded tx m hspend

/-- Spending keeps the invariant if it was right for the way it was done. -/
theorem swapInv_spend {s : SwapState} (hi : SwapInv ssl checkSig s) {side : Side} {d : Deposit}
    (hdeposit : (s.chain side).deposit = some d) {how : Spend}
    (hredeemed : ∀ tx m, how = .redeemed tx m →
      m = s.now ∧ CScript.isAtomicSwap d.contract = .ok true)
    (hrefunded : ∀ tx m, how = .refunded tx m → side = .a → Refundable ssl checkSig d.contract m) :
    SwapInv ssl checkSig (s.spend side how) := by
  -- a contract is funded before it is spent
  have hfunded : d.fundedAt ≤ s.now := by
    cases side with
    | a => exact (hi.initiated d hdeposit).2.1
    | b => exact (hi.participated d hdeposit).1
  constructor
  case clock => exact hi.clock
  case initiated =>
    intro d' hd'
    rw [SwapState.spend_deposit] at hd'
    exact hi.initiated d' hd'
  case hashed =>
    intro h
    rw [SwapState.spend_deposit]
    exact hi.hashed h
  case participated =>
    intro d' hd'
    rw [SwapState.spend_deposit] at hd' ⊢
    exact hi.participated d' hd'
  case redeemed =>
    intro side' tx m hspend
    rw [SwapState.spend_deposit]
    -- the spent contract, or one spent before
    by_cases hside : side' = side
    · subst hside
      rw [SwapState.spend_chain_self] at hspend
      obtain ⟨rfl, hswap⟩ := hredeemed tx m (Option.some.inj hspend)
      exact ⟨d, hdeposit, hfunded, hswap⟩
    · rw [SwapState.spend_chain_ne s how hside] at hspend
      exact hi.redeemed side' tx m hspend
  case refunded =>
    intro tx m hspend
    rw [SwapState.spend_deposit]
    by_cases hside : Side.a = side
    · subst hside
      rw [SwapState.spend_chain_self] at hspend
      exact ⟨d, hdeposit, hrefunded tx m (Option.some.inj hspend) rfl⟩
    · rw [SwapState.spend_chain_ne s how hside] at hspend
      exact hi.refunded tx m hspend

/-! ## Every run -/

theorem pushedValue_of_le {op : UInt8} (h : op ≤ opPushData4) (b : Bytes) :
    pushedValue (op, b) = some b := by
  rw [pushedValue, if_pos h]

/-- Vectors pushed in a row are the stack, the last on top. -/
theorem pushedStack_pushVecs (bs : List Bytes)
    (h : (bs.flatMap CScript.pushVec).length < 2 ^ 32) :
    pushedStack (bs.flatMap CScript.pushVec) = bs.reverse := by
  rw [← List.append_nil (bs.flatMap CScript.pushVec)] at h
  obtain ⟨pushes, hbytes, hops, hread⟩ := CScript.instrs_pushVecs bs h
  have hvalues : pushes.filterMap pushedValue = pushes.filterMap (some ∘ Prod.snd) :=
    List.filterMap_congr fun i hi => pushedValue_of_le (hops i hi) i.2
  rw [← List.append_nil (bs.flatMap CScript.pushVec), pushedStack, hread, CScript.instrs_nil,
    List.append_nil, hvalues, List.filterMap_eq_map, hbytes]

/-- What Refund builds leaves the stack of the refund branch. -/
theorem refund_pushedStack {hex txid address : Str} {rpc : RpcConf} {env : Env} {w w' : World}
    {tx : CTransaction}
    (h : refundTransaction ssl hex txid address rpc env w = (.ok tx, w'))
    (hlen : (parseHex hex).length < 2 ^ 30) :
    ∃ input pubKey sig, tx.vin.head? = some input ∧
      pushedStack input.scriptSig = [parseHex hex, [], pubKey, sig] := by
  obtain ⟨outIndex, amount, keyID, key, pubKey, sig, pushKey, w₁, _, _, hsign, hpush, rfl⟩ :=
    refundTransaction_eq_ok h
  obtain ⟨prikey, vchSecret, _, _, rfl, hpub, hsig⟩ := signContract_eq_ok_iff.mp hsign
  obtain rfl := CScript.pushPubKey_eq_ok hpush
  refine ⟨_, pubKey, sig, rfl, ?_⟩
  have hsiglen := CKey.length_sign_le ssl hsig
  have hpublen := CKey.length_getPubKey ssl hpub
  have h₁ := (CScript.length_pushVec sig).2
  have h₂ := (CScript.length_pushVec pubKey).2
  have h₄ := (CScript.length_pushVec (parseHex hex)).2
  -- OP_FALSE is the push of no bytes
  have hfalse : CScript.pushVec [] = [opFalse] := rfl
  have hshape : CScript.pushVec sig ++ CScript.pushVec pubKey ++ [opFalse] ++
      CScript.pushVec (parseHex hex) =
      [sig, pubKey, [], parseHex hex].flatMap CScript.pushVec := by
    simp [hfalse]
  show pushedStack (CScript.pushVec sig ++ CScript.pushVec pubKey ++ [opFalse] ++
    CScript.pushVec (parseHex hex)) = _
  rw [hshape, pushedStack_pushVecs]
  · rfl
  · rw [← hshape]
    simp only [List.length_append, List.length_singleton]
    omega

/-- A refund that was accepted shows the contract refundable. -/
theorem refundable_of_refund {hex txid address : Str} {rpc : RpcConf} {env : Env} {w w' : World}
    {tx : CTransaction} {stack : List Bytes} {contract : CScript} {now : Int}
    (h : refundTransaction ssl hex txid address rpc env w = (.ok tx, w'))
    (hhex : parseHex hex = contract) (hlen : contract.length < 2 ^ 30)
    (haccepted : Accepted ssl checkSig contract tx stack now) :
    Refundable ssl checkSig contract now := by
  obtain ⟨input, pubKey, sig, hinput, hpushed⟩ := refund_pushedStack h (by rw [hhex]; exact hlen)
  obtain ⟨hfinal, input', hinput', hpushed', hunlocks⟩ := haccepted
  rw [hinput] at hinput'
  obtain rfl := Option.some.inj hinput'
  rw [hpushed, hhex] at hpushed'
  obtain rfl := (List.cons.inj hpushed').2
  have htop : castToBool [] = false := rfl
  have hstack : pushedStack input.scriptSig = contract :: [] :: [pubKey, sig] := by
    rw [hpushed, hhex]
  exact ⟨tx, [], _, htop, hfinal, input, hinput, hstack, hunlocks⟩

/-- A contract of a 20-byte hash is short, whatever its lock time. -/
theorem length_atomicSwapContract_lt (me them secHash : Uint160) (lockTime : Int) :
    (atomicSwapContract me them lockTime secHash.bytes).length < 2 ^ 30 := by
  obtain ⟨_, _, _, _, _, _, hlock⟩ := pushInt64_reads lockTime
  have hhash := (CScript.length_pushVec secHash.bytes).2
  rw [secHash.length_bytes] at hhash
  simp only [atomicSwapContract, CScript.pushUint, List.length_append, List.length_cons,
    List.length_nil, me.length_bytes, them.length_bytes]
  omega

theorem swapInv_step {s s' : SwapState} (hi : SwapInv ssl checkSig s)
    (hstep : Step ssl checkSig conf s s') : SwapInv ssl checkSig s' := by
  cases hstep with
  | tick now hnow => exact swapInv_tick hi hnow
  | @initiate p env w' secret secretHash hex hnone hnow hrun hsecret hhash hhex =>
    have hfunded := EnvM.wp_ok (initiate_wp ssl p (conf .a) env World.initial) hrun
    rw [hfunded.2] at hhex
    cases hhex
    rw [parseHex_hexStr, hnow]
    exact swapInv_initiate hi hnone ⟨_, _, ssl.ripemd160 env.rand.bytes, rfl⟩ secret secretHash
  | @participate p env w' secretHash hex hnone hhash hnow hrun hhex =>
    have hfunded := EnvM.wp_ok (participate_wp ssl p (conf .b) secretHash env World.initial) hrun
    rw [hfunded.2] at hhex
    cases hhex
    rw [parseHex_hexStr, hnow]
    exact swapInv_participate hi hhash ⟨_, _, _, rfl⟩
  | @redeem side d hex txid secret address env tx w' stack hdeposit hspend hhex hknown hnow hrun
      haccepted =>
    obtain ⟨_, _, _, _, _, _, _, _, _, hswap, _⟩ := redeemTransaction_eq_ok hrun
    rw [hhex] at hswap
    refine swapInv_spend hi hdeposit ?_ ?_
    · intro tx' m heq
      cases heq
      exact ⟨rfl, hswap⟩
    · intro tx' m heq
      cases heq
  | extract hspend hhash hnode hrun hsecret => exact swapInv_learn hi _
  | @refund side d hex txid address env tx w' stack hdeposit hspend hhex hnow hrun haccepted =>
    refine swapInv_spend hi hdeposit ?_ ?_
    · intro tx' m heq
      cases heq
    · intro tx' m heq hside
      cases heq
      subst hside
      obtain ⟨_, _, me, them, secHash, hbuilt⟩ := hi.initiated d hdeposit
      refine refundable_of_refund hrun hhex ?_ haccepted
      rw [hbuilt]
      exact length_atomicSwapContract_lt me them secHash _

theorem swapInv_of_reachable {s : SwapState} (h : Reachable ssl checkSig conf s) :
    SwapInv ssl checkSig s := by
  obtain ⟨now, hnow, hrun⟩ := h
  induction hrun with
  | refl => exact swapInv_initial hnow
  | tail _ hstep ih => exact swapInv_step ih hstep

/-- The `int` value of the first lock time is negative or later than that of the second,
    if the second is funded at most a day after the first and its lock time lies ahead. -/
theorem lock_order {tA tB m : Int} (h0 : 0 ≤ tA) (hAB : tA ≤ tB)
    (hwindow : tB ≤ tA + (initiateLocktime - participateLocktime)) (hm : tB ≤ m)
    (hbefore : m < CBigNum.toInt32 (tB + participateLocktime)) :
    m < tA + initiateLocktime ∧
      (CBigNum.toInt32 (tA + initiateLocktime) < 0 ∨
        m < CBigNum.toInt32 (tA + initiateLocktime)) := by
  have hbmod (t : Int) : CBigNum.toInt32 t = t % 4294967296 ∧ t % 4294967296 < 2147483648 ∨
      CBigNum.toInt32 t = t % 4294967296 - 4294967296 ∧ 2147483648 ≤ t % 4294967296 := by
    rw [CBigNum.toInt32, Int.bmod_def]
    split
    · left; omega
    · right; omega
  have hA := hbmod (tA + 172800)
  have hB := hbmod (tB + 86400)
  simp only [initiateLocktime, participateLocktime] at *
  -- a wrapped lock time of the second contract would not lie ahead
  have hfit : CBigNum.toInt32 (tB + 86400) = tB + 86400 := by omega
  omega

/-- In every state of a swap whose second contract was funded at most a day after the
    first: once the second has been redeemed before its lock time, the first was not
    refundable at that moment, and had not been refunded. -/
theorem swap_atomic (ssl : OpenSSL) (checkSig : CScript → CTransaction → Bytes → Bytes → Bool)
    (conf : Side → RpcConf) (s : SwapState) (hreach : Reachable ssl checkSig conf s)
    (dA dB : Deposit) (hA : (s.chain .a).deposit = some dA) (hB : (s.chain .b).deposit = some dB)
    (hwindow : dB.fundedAt ≤ dA.fundedAt + (initiateLocktime - participateLocktime))
    (tx : CTransaction) (m : Int) (hredeemed : (s.chain .b).spend = some (.redeemed tx m))
    (hbefore : m < contractLock dB.contract) :
    m < dA.fundedAt + initiateLocktime ∧ ¬ Refundable ssl checkSig dA.contract m ∧
      ∀ tx' m', (s.chain .a).spend = some (.refunded tx' m') → m < m' := by
  have hi := swapInv_of_reachable hreach
  obtain ⟨h0, _, me, them, secHash, hbuiltA⟩ := hi.initiated dA hA
  obtain ⟨_, ⟨_, _, _, hbuiltB⟩, dA', hdA', hAB⟩ := hi.participated dB hB
  rw [hA] at hdA'
  obtain rfl := Option.some.inj hdA'
  obtain ⟨d, hd, hmoment, hswap⟩ := hi.redeemed .b tx m hredeemed
  rw [hB] at hd
  obtain rfl := Option.some.inj hd
  rw [hbuiltB] at hswap hbefore
  rw [contractLock_eq hswap] at hbefore
  obtain ⟨hahead, hlock⟩ := lock_order h0 hAB hwindow hmoment hbefore
  -- a refund at any moment up to `m` would need the lock time to have come
  have hnot {n : Int} (hn : n ≤ m) : ¬ Refundable ssl checkSig dA.contract n := by
    intro hrefundable
    rw [hbuiltA] at hrefundable
    obtain ⟨hnonneg, hle⟩ := hrefundable.lock_le
    omega
  refine ⟨hahead, hnot (Int.le_refl m), ?_⟩
  intro tx' m' hrefunded
  obtain ⟨d, hd, hrefundable⟩ := hi.refunded tx' m' hrefunded
  rw [hA] at hd
  obtain rfl := Option.some.inj hd
  by_contra hle
  exact hnot (by omega) hrefundable

end

/-! ## A swap whose second contract is funded later and later -/

section

variable (ssl : OpenSSL) (p : FundParams) (conf : RpcConf)

/-- The shared part of Initiate and Participate fills in four fields and no other. -/
theorem fundContract_lookup (lockTime : Int) (secHash : Bytes) (env : Env) (w : World) :
    EnvM.wpState (fundContract ssl p conf lockTime secHash)
      (fun s => ∀ key ∉ ["Refund address", "Contract hex", "Contract address", "txid"],
        s.response.lookup key = w.response.lookup key) env w := by
  simp only [List.mem_cons, List.not_mem_nil, or_false, not_or]
  simp only [fundContract, EnvM.wp_bind, wp_setResponse]
  apply EnvM.wp_mono (callChecked_state _ _ _)
  · intro reply _ heq
    subst heq
    -- only "txid" is written after the call
    rw [wp_raise]
    cases fundTxid conf reply with
    | error e =>
      intro key h
      obtain ⟨hrefund, hhex, haddress, _⟩ := h
      simp [hrefund, hhex, haddress]
    | ok txid =>
      intro key h
      obtain ⟨hrefund, hhex, haddress, htxid⟩ := h
      simp [hrefund, hhex, haddress, htxid]
  · intro _ _ heq key h
    subst heq
    obtain ⟨hrefund, hhex, haddress, _⟩ := h
    simp [hrefund, hhex, haddress]

/-- Initiate reports the secret and its hash. -/
theorem initiate_reports (env : Env) (w : World) :
    EnvM.wpState (initiate ssl p conf)
      (fun s => s.response.lookup "Secret" = some (.string (hexStr env.rand.bytes)) ∧
        s.response.lookup "Secret hash" =
          some (.string (hexStr (ssl.ripemd160 env.rand.bytes).bytes))) env w := by
  simp only [initiate, EnvM.wp_bind, EnvM.wp_ask, wp_setResponse]
  apply EnvM.wp_mono (fundContract_lookup ssl p conf _ _ _ _)
  · intro _ _ h
    rw [h "Secret" (by decide), h "Secret hash" (by decide)]
    simp
  · intro _ _ h
    rw [h "Secret" (by decide), h "Secret hash" (by decide)]
    simp

end

/-- The first contract on a bitcoin chain, the second on a blackcoin chain. -/
def sampleConf : Side → RpcConf
  | .a => RpcConf.localNode "bitcoin"
  | .b => RpcConf.localNode "blackcoin"

/-- A node asked at moment `now`. -/
def Env.sampleAt (now : Int) (answers : List RpcAnswer) : Env :=
  { Env.sample (answersOf answers) with now := now }

/-- Signatures are valid if the private key 1 or 2 makes them. -/
def sampleCheckSig (code : CScript) (tx : CTransaction) (sig pubKey : Bytes) : Bool :=
  [sampleSecretKey 1, sampleSecretKey 2].any fun secret =>
    let key := CKey.set secret true
    match key.getPubKey sampleSSL with
    | .ok pk => pk == pubKey &&
        key.sign sampleSSL (signatureHash sampleSSL code tx 0 sighashAll) sighashAll.toUInt8 ==
          some sig
    | .error _ => false

/-- The answer to the question whether a chain accepts a transaction. -/
def accepts (ssl : OpenSSL) (checkSig : CScript → CTransaction → Bytes → Bytes → Bool)
    (contract : CScript) (tx : CTransaction) (now : Int) : Bool :=
  match tx.vin.head? with
  | none => false
  | some input =>
    match pushedStack input.scriptSig with
    | [] => false
    | script :: stack =>
      decide (script = contract) && decide ((tx.nLockTime.toNat : Int) ≤ now) &&
        match runScript ssl ⟨checkSig contract tx, tx.nLockTime, input.nSequence⟩ contract stack with
        | some (v :: _) => castToBool v
        | _ => false

theorem accepted_of_accepts {ssl : OpenSSL}
    {checkSig : CScript → CTransaction → Bytes → Bytes → Bool} {contract : CScript}
    {tx : CTransaction} {now : Int} (h : accepts ssl checkSig contract tx now = true) :
    ∃ stack, Accepted ssl checkSig contract tx stack now := by
  rw [accepts] at h
  split at h
  · cases h
  · rename_i input hinput
    split at h
    · cases h
    · rename_i script stack hstack
      simp only [Bool.and_eq_true, decide_eq_true_eq] at h
      obtain ⟨⟨rfl, hfinal⟩, hrun⟩ := h
      split at hrun
      · rename_i v rest hscript
        exact ⟨stack, hfinal, input, hinput, hstack, v, rest, hscript, hrun⟩
      · cases hrun

/-- A run built a transaction that a chain accepts; for concrete runs. -/
def buildsAccepted (run : Swap CTransaction) (env : Env) (contract : CScript) : Bool :=
  match (run env World.initial).1 with
  | .ok tx => accepts sampleSSL sampleCheckSig contract tx env.now
  | .error _ => false

theorem exists_accepted {run : Swap CTransaction} {env : Env} {contract : CScript}
    (h : buildsAccepted run env contract = true) :
    ∃ tx w' stack, run env World.initial = (.ok tx, w') ∧
      Accepted sampleSSL sampleCheckSig contract tx stack env.now := by
  rw [buildsAccepted] at h
  rcases hrun : run env World.initial with ⟨e | tx, w'⟩
  · rw [hrun] at h
    cases h
  · rw [hrun] at h
    obtain ⟨stack, hstack⟩ := accepted_of_accepts h
    exact ⟨tx, w', stack, rfl, hstack⟩

/-- Pay 1 blackcoin to the address of private key 1, refunded to that of private key 2. -/
def participateSample : FundParams :=
  { fundSample with
    themAddress := str "BF8MAsLp7aSfb9g9qGSHwzDerit8nAZAJX"
    refundAddress := str "B54SJjUL2xndPGcjV4uiQFxogc5b3eMhts" }

/-- The two contracts, the second funded at moment `t`. -/
def sampleContractA : CScript :=
  fundedContract sampleSSL fundSample (str "bitcoin") (1515000000 + initiateLocktime)
    (sampleSSL.ripemd160 sampleSecret).bytes
def sampleContractB (t : Int) : CScript :=
  fundedContract sampleSSL participateSample (str "blackcoin") (t + participateLocktime)
    (sampleSSL.ripemd160 sampleSecret).bytes

def sampleInitiateEnv : Env := Env.sampleAt 1515000000 [.result (.string sampleTxid)]
def sampleParticipateEnv (t : Int) : Env := Env.sampleAt t [.result (.string sampleTxid)]

/-- The Redeem of the second contract at moment `m`. -/
def sampleRedeemBEnv (t m : Int) : Env := Env.sampleAt m
  [.result (.string (str "00")), .result (fundingReply "blackcoin" (sampleContractB t)),
    .result (.string (str "PdiUUh8dnXB36B2XcbPdodUX5Ujoj2VDubJwcW1V8DJu69XHZWGg"))]
def sampleRedeemB (t : Int) : Swap CTransaction :=
  redeemTransaction sampleSSL (hexStr (sampleContractB t)) sampleTxid (hexStr sampleSecret)
    (str "BF8MAsLp7aSfb9g9qGSHwzDerit8nAZAJX") (sampleConf .b)

/-- The Initiate of the swap returns. -/
theorem sampleInitiate_returns :
    EnvM.returns (initiate sampleSSL fundSample (sampleConf .a)) sampleInitiateEnv World.initial =
      true := by
  decide +kernel

/-- The Participate at moment `t` returns. -/
def ParticipateReturns (t : Int) : Prop :=
  EnvM.returns (participate sampleSSL participateSample
    (hexStr (sampleSSL.ripemd160 sampleSecret).bytes) (sampleConf .b)) (sampleParticipateEnv t)
    World.initial = true

instance (t : Int) : Decidable (ParticipateReturns t) :=
  inferInstanceAs (Decidable (_ = _))

/-- The swap with Participate at moment `t` and the second contract redeemed at `m`. -/
theorem sampleSwap_reachable {t m : Int} (ht : 1515000000 ≤ t) (hm : t ≤ m)
    (hparticipate : ParticipateReturns t)
    (hredeem : buildsAccepted (sampleRedeemB t) (sampleRedeemBEnv t m) (sampleContractB t) = true) :
    ∃ s tx, Reachable sampleSSL sampleCheckSig sampleConf s ∧
      (s.chain .a).deposit = some ⟨sampleContractA, 1515000000⟩ ∧
      (s.chain .b).deposit = some ⟨sampleContractB t, t⟩ ∧
      (s.chain .b).spend = some (.redeemed tx m) := by
  obtain ⟨_, w₁, hinit⟩ := EnvM.exists_of_returns sampleInitiate_returns
  obtain ⟨_, w₂, hpart⟩ := EnvM.exists_of_returns hparticipate
  obtain ⟨tx, w₃, stack, hrun, haccepted⟩ := exists_accepted hredeem
  have hfundedA := EnvM.wp_ok (initiate_wp _ _ _ _ _) hinit
  obtain ⟨hsecret, hhash⟩ := EnvM.wp_ok (initiate_reports _ _ _ _ _) hinit
  have hfundedB := EnvM.wp_ok (participate_wp _ _ _ _ _ _) hpart
  rw [parseHex_hexStr] at hfundedB
  -- Initiate, wait, Participate, wait, Redeem
  let s₁ : SwapState :=
    { (SwapState.initial 1515000000).fund .a (parseHex (hexStr sampleContractA)) with
      secret := some (hexStr sampleSecret)
      secretHash := some (hexStr (sampleSSL.ripemd160 sampleSecret).bytes) }
  let s₂ : SwapState := { s₁ with now := t }
  let s₃ : SwapState := s₂.fund .b (parseHex (hexStr (sampleContractB t)))
  let s₄ : SwapState := { s₃ with now := m }
  have hstep₁ : Step sampleSSL sampleCheckSig sampleConf (.initial 1515000000) s₁ :=
    Step.initiate rfl rfl hinit hsecret hhash hfundedA.2
  have hstep₂ : Step sampleSSL sampleCheckSig sampleConf s₁ s₂ := Step.tick t ht
  have hstep₃ : Step sampleSSL sampleCheckSig sampleConf s₂ s₃ :=
    Step.participate rfl rfl rfl hpart hfundedB.2
  have hstep₄ : Step sampleSSL sampleCheckSig sampleConf s₃ s₄ := Step.tick m hm
  have hdeposit : (s₄.chain .b).deposit = some ⟨sampleContractB t, t⟩ := by
    have hfund : (s₄.chain .b).deposit =
        some ⟨parseHex (hexStr (sampleContractB t)), t⟩ := rfl
    rw [hfund, parseHex_hexStr]
  have hstep₅ : Step sampleSSL sampleCheckSig sampleConf s₄ (s₄.spend .b (.redeemed tx m)) :=
    Step.redeem hdeposit rfl (parseHex_hexStr _) rfl rfl hrun haccepted
  refine ⟨_, tx, ⟨1515000000, by decide, (((Relation.ReflTransGen.single hstep₁).tail hstep₂).tail
    hstep₃).tail hstep₄ |>.tail hstep₅⟩, ?_, ?_, rfl⟩
  · have hfund : ((s₄.spend .b (.redeemed tx m)).chain .a).deposit =
        some ⟨parseHex (hexStr sampleContractA), 1515000000⟩ := rfl
    rw [hfund, parseHex_hexStr]
  · rw [SwapState.spend_deposit, hdeposit]

/-- A swap with Participate a day after Initiate. -/
theorem swap_atomic_sample :
    ∃ s tx, Reachable sampleSSL sampleCheckSig sampleConf s ∧
      (s.chain .b).spend = some (.redeemed tx 1515086400) ∧
      ¬ Refundable sampleSSL sampleCheckSig sampleContractA 1515086400 := by
  obtain ⟨s, tx, hreach, hA, hB, hredeemed⟩ := sampleSwap_reachable (t := 1515086400)
    (m := 1515086400) (by decide) (by decide) (by decide +kernel) (by decide +kernel)
  have hbefore : 1515086400 < contractLock (sampleContractB 1515086400) := by decide +kernel
  obtain ⟨_, hnot, _⟩ := swap_atomic sampleSSL sampleCheckSig sampleConf s hreach _ _ hA hB
    (by decide) tx 1515086400 hredeemed hbefore
  exact ⟨s, tx, hreach, hredeemed, hnot⟩

/-- The Refund of the first contract at moment `m`. -/
def sampleRefundAEnv (m : Int) : Env := Env.sampleAt m
  [.result (.string (str "00")), .result (fundingReply "bitcoin" sampleContractA),
    .result sampleKeyText1]
def sampleRefundA : Swap CTransaction :=
  refundTransaction sampleSSL (hexStr sampleContractA) sampleTxid
    (str "1BgGZ9tcN4rm9KBzDn7KprQz87SZ26SAMH") (sampleConf .a)

/-- A swap with Participate a day and a second after Initiate: the second contract is
    redeemed before its lock time, when the first can be refunded. -/
theorem swap_not_atomic :
    ∃ s dA dB tx m, Reachable sampleSSL sampleCheckSig sampleConf s ∧
      (s.chain .a).deposit = some dA ∧ (s.chain .b).deposit = some dB ∧
      dA.fundedAt ≤ dB.fundedAt ∧ (s.chain .b).spend = some (.redeemed tx m) ∧
      m < contractLock dB.contract ∧ Refundable sampleSSL sampleCheckSig dA.contract m := by
  obtain ⟨s, tx, hreach, hA, hB, hredeemed⟩ := sampleSwap_reachable (t := 1515086401)
    (m := 1515172800) (by decide) (by decide) (by decide +kernel) (by decide +kernel)
  have hbefore : 1515172800 < contractLock (sampleContractB 1515086401) := by decide +kernel
  have hrefund : buildsAccepted sampleRefundA (sampleRefundAEnv 1515172800) sampleContractA =
      true := by
    decide +kernel
  obtain ⟨tx', w', stack, hrun, haccepted⟩ := exists_accepted hrefund
  have hlen : sampleContractA.length < 2 ^ 30 := length_atomicSwapContract_lt _ _ _ _
  have hrefundable := refundable_of_refund hrun (parseHex_hexStr _) hlen haccepted
  exact ⟨s, _, _, tx, 1515172800, hreach, hA, hB, by decide, hredeemed, hbefore, hrefundable⟩

end CrossChain
