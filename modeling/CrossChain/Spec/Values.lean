import Mathlib.Tactic.Linarith
import CrossChain.Spec.ContractOutput
import CrossChain.Spec.FeeInput

/-!
# What is paid

Redeem and Refund pay the same value for bitcoin and blackcoin, and not for
cfos, where Refund deducts what an unset variable holds
(`refundsAsRedeemed_iff`).  What they broadcast stays in range and conserves
value exactly when the amounts cover the fees deducted from them, which no code
tests (`spends_keep_value_iff`).
-/

namespace CrossChain

/-! ## Truncation -/

/-- A `double` is cut by less than 1. -/
theorem truncToInt64_bounds (q : ℚ) :
    (q.num.tdiv q.den : ℚ) - 1 < q ∧ q < (q.num.tdiv q.den : ℚ) + 1 := by
  have hden : (0 : Int) < q.den := by exact_mod_cast q.den_pos
  have hsplit : ((q.den * q.num.tdiv q.den + q.num.tmod q.den : Int) : ℚ) = q * q.den := by
    rw [Int.mul_tdiv_add_tmod, Rat.mul_den_eq_num]
  have hlo : (-(q.den : Int) : ℚ) < (q.num.tmod q.den : Int) := by
    exact_mod_cast Int.lt_tmod_of_pos q.num hden
  have hhi : ((q.num.tmod q.den : Int) : ℚ) < (q.den : Int) := by
    exact_mod_cast Int.tmod_lt_of_pos q.num hden
  have hpos : (0 : ℚ) < (q.den : Int) := by exact_mod_cast hden
  push_cast at hsplit hlo hhi hpos
  constructor
  · nlinarith
  · nlinarith

theorem truncToInt64_intCast (n : Int) : truncToInt64 (n : ℚ) = Int64.ofInt n := by
  rw [truncToInt64, Rat.num_intCast, Rat.den_intCast, Nat.cast_one, Int.tdiv_one]

/-- Two more or less is seen after the cut. -/
theorem truncToInt64_sub_two_ne (q : ℚ) : truncToInt64 (q - 2) ≠ truncToInt64 q := by
  intro h
  obtain ⟨hlo, hhi⟩ := truncToInt64_bounds q
  obtain ⟨hlo', hhi'⟩ := truncToInt64_bounds (q - 2)
  rw [truncToInt64, truncToInt64] at h
  generalize q.num.tdiv q.den = a at *
  generalize (q - 2).num.tdiv (q - 2).den = b at *
  have hab : b < a := by
    have hcast : (b : ℚ) < a := by linarith
    exact_mod_cast hcast
  have hba : a < b + 4 := by
    have hcast : (a : ℚ) < b + 4 := by linarith
    exact_mod_cast hcast
  -- the cut values are less than 2^64 apart
  have hmod : b % 2 ^ 64 = a % 2 ^ 64 := by
    have hint := congrArg Int64.toInt h
    rw [Int64.toInt_ofInt, Int64.toInt_ofInt] at hint
    have hsize := congrArg (· % (Int64.size : Int)) hint
    simp only [Int.bmod_emod] at hsize
    exact hsize
  omega

/-! ## Refund against Redeem -/

/-- Refund pays for a contract output of `amount` a value that no unset variable decides,
    and it is the value Redeem pays. -/
structure RefundsAsRedeemed (coinType : Str) (amount : ℚ) : Prop where
  determined : ∀ unsetFee unsetFee' : Int64,
    refundValue unsetFee.toInt coinType amount = refundValue unsetFee'.toInt coinType amount
  same : ∀ unsetFee : Int64,
    refundValue unsetFee.toInt coinType amount = redeemValue coinType amount

theorem refundValue_eq_redeemValue {coinType : Str}
    (h : coinType = str "bitcoin" ∨ coinType = str "blackcoin") (unsetFee : Int) (amount : ℚ) :
    refundValue unsetFee coinType amount = redeemValue coinType amount := by
  have hcfos : coinType ≠ str "cfos" := by
    rcases h with rfl | rfl <;> decide
  rw [refundValue, redeemValue, if_neg hcfos]
  by_cases hbitcoin : coinType = str "bitcoin"
  · rw [if_pos hbitcoin, if_pos hbitcoin]
  · have hblackcoin : coinType = str "blackcoin" := h.resolve_left hbitcoin
    rw [if_neg hbitcoin, if_pos hblackcoin, if_neg hbitcoin, if_pos hblackcoin]

/-- Refund pays what Redeem pays for bitcoin and blackcoin alone. -/
theorem refundsAsRedeemed_iff (coinType : Str) (amount : ℚ) :
    RefundsAsRedeemed coinType amount ↔
      coinType = str "bitcoin" ∨ coinType = str "blackcoin" := by
  constructor
  · intro h
    by_contra hcoin
    push Not at hcoin
    -- no branch sets the fee: 0 and 2 in its place pay different values
    have hpaid := h.determined 2 0
    rw [refundValue, refundValue, if_neg hcoin.1, if_neg hcoin.2, if_neg hcoin.1,
      if_neg hcoin.2] at hpaid
    apply truncToInt64_sub_two_ne (amount * coin)
    simpa using hpaid
  · intro h
    constructor
    · intro unsetFee unsetFee'
      rw [refundValue_eq_redeemValue h, refundValue_eq_redeemValue h]
    · intro unsetFee
      exact refundValue_eq_redeemValue h _ amount

/-- A refund of 1 cfos pays, with 0 in the unset variable, 100000000 base units, a redeem
    10000. -/
theorem refund_cfos_differs :
    refundValue 0 (str "cfos") 1 = 100000000 ∧ refundValue 5 (str "cfos") 1 = 99999995 ∧
      redeemValue (str "cfos") 1 = 10000 := by
  decide +kernel

/-! ## Base units -/

/-- The base units of a coin. -/
def baseUnit (coinType : Str) : Int := if coinType = str "cfos" then cfosCoin else coin

/-- The fee that is deducted from the contract's output. -/
def minTxFee (coinType : Str) : Int :=
  if coinType = str "bitcoin" then bitcoinMinTxFee
  else if coinType = str "blackcoin" then blackcoinMinTxFee
  else 0

theorem minTxFee_nonneg (coinType : Str) : 0 ≤ minTxFee coinType := by
  unfold minTxFee
  split
  · decide
  · split <;> decide

theorem minTxFee_le (coinType : Str) : minTxFee coinType ≤ 10000 := by
  unfold minTxFee
  split
  · decide
  · split <;> decide

/-- Redeem pays the contract's base units less the fee. -/
theorem redeemValue_of_units {coinType : Str} {amount : ℚ} {n : Int}
    (h : amount * baseUnit coinType = n) :
    redeemValue coinType amount = Int64.ofInt (n - minTxFee coinType) := by
  rw [redeemValue, minTxFee]
  by_cases hcfos : coinType = str "cfos"
  · have hbitcoin : coinType ≠ str "bitcoin" := by rw [hcfos]; decide
    have hblackcoin : coinType ≠ str "blackcoin" := by rw [hcfos]; decide
    rw [baseUnit, if_pos hcfos] at h
    rw [if_pos hcfos, if_neg hbitcoin, if_neg hblackcoin, h, truncToInt64_intCast, Int.sub_zero]
  · rw [baseUnit, if_neg hcfos] at h
    rw [if_neg hcfos, h, ← Int.cast_sub, truncToInt64_intCast]

/-- A value that is no further below 0 than a fee. -/
theorem toInt_ofInt_units {m : Int} (hlo : -10000 ≤ m) (hhi : m ≤ maxMoney) :
    (Int64.ofInt m).toInt = m := by
  have hmax : maxMoney = 50000000000000000 := by decide
  apply Int64.toInt_ofInt_of_le
  · omega
  · omega

/-- What is left of `n` base units after a fee is in range exactly when they cover it. -/
theorem moneyRange_sub_iff {n fee : Int} (hn : 0 ≤ n ∧ n ≤ maxMoney) (hfee : 0 ≤ fee ∧ fee ≤ 10000) :
    moneyRange (Int64.ofInt (n - fee)) = true ↔ fee ≤ n := by
  rw [moneyRange, toInt_ofInt_units (by omega) (by omega), Bool.and_eq_true, decide_eq_true_iff,
    decide_eq_true_iff]
  omega

/-! ## Value kept -/

/-- What every output holds, in base units. -/
structure Holdings where
  units : COutPoint → Int
  inRange : ∀ o, 0 ≤ units o ∧ units o ≤ maxMoney

/-- Every output is in range and holds no more than the output spent at its position, which
    is of the same asset: the contract's first, the fee coin second. -/
structure KeepsValue (held : Holdings) (tx : CTransaction) : Prop where
  inRange : ∀ out ∈ tx.vout, moneyRange out.nValue = true
  conserves : List.Forall₂ (fun out input => out.nValue.toInt ≤ held.units input.prevout)
    tx.vout tx.vin

section

variable {held : Holdings} {tx : CTransaction}

/-- Input and output by input and output. -/
theorem keepsValue_iff :
    KeepsValue held tx ↔ List.Forall₂ (fun out input =>
      moneyRange out.nValue = true ∧ out.nValue.toInt ≤ held.units input.prevout)
      tx.vout tx.vin := by
  rw [List.forall₂_and_left]
  constructor
  · intro h
    exact ⟨h.inRange, h.conserves⟩
  · intro h
    exact ⟨h.1, h.2⟩

/-- The scripts of the inputs do not matter. -/
theorem keepsValue_setScriptSig (s : CScript) :
    KeepsValue held (tx.setScriptSig s) ↔ KeepsValue held tx := by
  obtain ⟨type, version, time, vin, vout, lockTime⟩ := tx
  rw [keepsValue_iff, keepsValue_iff]
  cases vin with
  | nil => exact Iff.rfl
  | cons input vin =>
    cases vout with
    | nil => simp [CTransaction.setScriptSig]
    | cons out vout => simp [CTransaction.setScriptSig]

/-- `n` base units paid on, less a fee. -/
theorem keeps_sub_iff {n fee : Int} {o : COutPoint} (hn : 0 ≤ n ∧ n ≤ maxMoney)
    (hfee : 0 ≤ fee ∧ fee ≤ 10000) :
    (moneyRange (Int64.ofInt (n - fee)) = true ∧
        (Int64.ofInt (n - fee)).toInt ≤ held.units o) ↔
      fee ≤ n ∧ n - fee ≤ held.units o := by
  rw [moneyRange_sub_iff hn hfee, toInt_ofInt_units (by omega) (by omega)]

/-- The fee's input and output behind the contract's. -/
theorem keepsValue_feeTransaction {conf : RpcConf} {keyID : Uint160} {entry : FeeEntry} {k : Nat}
    {out : CTxOut} {input : CTxIn} {m : Int} (hvout : tx.vout = [out]) (hvin : tx.vin = [input])
    (hm : 0 ≤ m ∧ m ≤ maxMoney) (hunits : entry.amount * cfosCoin = m) :
    KeepsValue held (feeTransaction conf keyID entry k tx) ↔
      KeepsValue held tx ∧ blackcoinMinTxFee ≤ m ∧
        m - blackcoinMinTxFee ≤ held.units ⟨BaseUint.setHex 32 entry.txid, UInt32.ofNat k⟩ := by
  have hvalue : truncToInt64 (entry.amount * cfosCoin - blackcoinMinTxFee) =
      Int64.ofInt (m - blackcoinMinTxFee) := by
    rw [hunits, ← Int.cast_sub, truncToInt64_intCast]
  have hvout' : (feeTransaction conf keyID entry k tx).vout =
      [out, ⟨Int64.ofInt (m - blackcoinMinTxFee), payToPubkeyHash keyID, conf.type⟩] := by
    rw [feeTransaction, hvalue, hvout]
    rfl
  have hvin' : (feeTransaction conf keyID entry k tx).vin =
      [input, ⟨⟨BaseUint.setHex 32 entry.txid, UInt32.ofNat k⟩, [], uintMax - 1⟩] := by
    rw [feeTransaction, hvin]
    rfl
  rw [keepsValue_iff, keepsValue_iff, hvout', hvin', hvout, hvin, List.forall₂_cons,
    List.forall₂_cons, List.forall₂_cons, keeps_sub_iff hm (by decide)]
  simp only [List.forall₂_nil_left_iff, and_true]

end

/-! ## What is broadcast -/

section

variable (ssl : OpenSSL) (conf : RpcConf) (env : Env) (w : World) (held : Holdings)
  (contract txid : Str)

/-- The node reports what the contract's output holds. -/
def ReportsContract : Prop :=
  ∀ i amount w', findContractOut ssl conf (parseHex contract) txid env w = (.ok (i, amount), w') →
    amount * baseUnit conf.type = held.units ⟨BaseUint.setHex 32 txid, UInt32.ofNat i⟩

/-- The amount of the contract's output covers the fee. -/
def ContractCovers : Prop :=
  ∀ i amount w', findContractOut ssl conf (parseHex contract) txid env w = (.ok (i, amount), w') →
    (minTxFee conf.type : ℚ) ≤ amount * baseUnit conf.type

/-- The fee branch of Redeem takes this entry from the reply to its call. -/
def FeeChoice (k : Nat) (entry : FeeEntry) : Prop :=
  ∃ reply unspents unspent, env.answers (w.calls.length + 3) = .reply (.object reply) ∧
    reply.lookup "result" = some (.array unspents) ∧
    feeUnspent 0 unspents = .ok (some (k, unspent)) ∧ readFeeEntry unspent = .ok entry

/-- The entry is worth a number of base units that is in range. -/
def ReportsFee : Prop :=
  ∀ k entry, FeeChoice env w k entry →
    ∃ m : Int, (0 ≤ m ∧ m ≤ maxMoney) ∧ entry.amount * cfosCoin = m

/-- The amount of the entry covers the fee. -/
def FeeCovers : Prop :=
  ∀ k entry, FeeChoice env w k entry → (blackcoinMinTxFee : ℚ) ≤ entry.amount * cfosCoin

/-- The output that is spent for the entry, whose number is the entry's position, holds what
    is left after the fee. -/
def FeeHolds : Prop :=
  ∀ k entry, FeeChoice env w k entry → entry.amount * cfosCoin - blackcoinMinTxFee ≤
    held.units ⟨BaseUint.setHex 32 entry.txid, UInt32.ofNat k⟩

/-- The amounts a Redeem deducts fees from cover them. -/
def RedeemCovers : Prop :=
  ContractCovers ssl conf env w contract txid ∧ (conf.type = str "cfos" → FeeCovers env w)

/-- What the run hands to `sendrawtransaction` is the transaction that was built, and it
    keeps value; if the amounts do not cover the fees, the run returns false and hands over
    nothing. -/
structure SafeSpend (covers : Prop) (build : Swap CTransaction) (spend : Swap Unit) : Prop where
  keeps : ∀ call ∈ newCalls w (spend env w).2, call.method = "sendrawtransaction" →
    ∃ tx w', build env w = (.ok tx, w') ∧ call.params = [.string (hexStr tx.serialize)] ∧
      KeepsValue held tx
  stops : ¬ covers →
    (∃ text, (spend env w).1 = .error (.failed text)) ∧ ¬ Broadcasts w (spend env w).2

end

section

variable {ssl : OpenSSL} {conf : RpcConf} {env : Env} {w w' : World} {held : Holdings}
  {contract txid : Str}

theorem FeeChoice.unique {k k' : Nat} {entry entry' : FeeEntry} (h : FeeChoice env w k entry)
    (h' : FeeChoice env w k' entry') : k = k' ∧ entry = entry' := by
  obtain ⟨reply, unspents, unspent, hanswer, hresult, hsearch, hread⟩ := h
  obtain ⟨reply', unspents', unspent', hanswer', hresult', hsearch', hread'⟩ := h'
  rw [hanswer] at hanswer'
  cases hanswer'
  rw [hresult] at hresult'
  cases hresult'
  rw [hsearch] at hsearch'
  cases hsearch'
  rw [hread] at hread'
  cases hread'
  exact ⟨rfl, rfl⟩

/-- Finding the contract's output takes two calls. -/
theorem findContractOut_calls {c : CScript} {out : Nat × ℚ}
    (h : findContractOut ssl conf c txid env w = (.ok out, w')) :
    w'.calls.length = w.calls.length + 2 := by
  rw [findContractOut, EnvM.bind_eq_ok_iff] at h
  obtain ⟨txResult, w₁, hfetch, h⟩ := h
  obtain ⟨_, _, _, _, _, _, _, _, _, rfl⟩ := fetchTransaction_eq_ok_iff.mp hfetch
  obtain ⟨found, _, hraise, h⟩ := EnvM.bind_eq_ok_iff.mp h
  obtain ⟨_, rfl⟩ := raise_eq_ok_iff.mp hraise
  obtain ⟨_, rfl⟩ := orFail_eq_ok_iff.mp h
  simp

/-- Signing takes one. -/
theorem signContract_calls {c : CScript} {keyHash : Bytes} {tx : CTransaction}
    {r : CKey × Bytes × Bytes} (h : signContract ssl conf c keyHash tx env w = (.ok r, w')) :
    w'.calls.length = w.calls.length + 1 := by
  obtain ⟨key, pubKey, sig⟩ := r
  obtain ⟨prikey, secret, hdump, _⟩ := signContract_eq_ok_iff.mp h
  obtain ⟨_, _, _, _, rfl⟩ := dumpPrivKey_eq_ok_iff.mp hdump
  simp

/-- The contract's output, paid on less the fee. -/
theorem keepsValue_spend_iff {tx : CTransaction} {script : CScript} {amount : ℚ} {input : CTxIn}
    (hvin : tx.vin = [input])
    (hvout : tx.vout = [⟨redeemValue conf.type amount, script, conf.type⟩])
    (hunits : amount * baseUnit conf.type = held.units input.prevout) :
    KeepsValue held tx ↔ (minTxFee conf.type : ℚ) ≤ amount * baseUnit conf.type := by
  have hfee := And.intro (minTxFee_nonneg conf.type) (minTxFee_le conf.type)
  rw [keepsValue_iff, hvout, hvin, List.forall₂_cons, redeemValue_of_units hunits,
    keeps_sub_iff (held.inRange input.prevout) hfee, hunits, Int.cast_le]
  simp only [List.forall₂_nil_left_iff, and_true]
  omega

/-- The run found one output, so the condition is about its amount. -/
theorem contractCovers_iff {i : Nat} {amount : ℚ} {w₁ : World}
    (hfind : findContractOut ssl conf (parseHex contract) txid env w = (.ok (i, amount), w₁)) :
    ContractCovers ssl conf env w contract txid ↔
      (minTxFee conf.type : ℚ) ≤ amount * baseUnit conf.type := by
  constructor
  · intro h
    exact h i amount w₁ hfind
  · intro h i' amount' w' hfind'
    rw [hfind] at hfind'
    cases hfind'
    exact h

/-- The branch chose one entry, so the conditions are about its amount. -/
theorem feeCovers_iff {k : Nat} {entry : FeeEntry} {m : Int} (hchoice : FeeChoice env w k entry)
    (hm : entry.amount * cfosCoin = m) :
    FeeCovers env w ∧ FeeHolds env w held ↔ blackcoinMinTxFee ≤ m ∧
      m - blackcoinMinTxFee ≤ held.units ⟨BaseUint.setHex 32 entry.txid, UInt32.ofNat k⟩ := by
  have hcovers : (blackcoinMinTxFee : ℚ) ≤ entry.amount * cfosCoin ↔ blackcoinMinTxFee ≤ m := by
    rw [hm, Int.cast_le]
  have hholds : entry.amount * cfosCoin - blackcoinMinTxFee ≤
      (held.units ⟨BaseUint.setHex 32 entry.txid, UInt32.ofNat k⟩ : ℚ) ↔
      m - blackcoinMinTxFee ≤ held.units ⟨BaseUint.setHex 32 entry.txid, UInt32.ofNat k⟩ := by
    rw [hm, ← Int.cast_sub, Int.cast_le]
  rw [← hcovers, ← hholds]
  constructor
  · intro hgiven
    obtain ⟨h, h'⟩ := hgiven
    exact ⟨h k entry hchoice, h' k entry hchoice⟩
  · intro hgiven
    obtain ⟨h, h'⟩ := hgiven
    constructor
    · intro k' entry' hchoice'
      obtain ⟨rfl, rfl⟩ := hchoice.unique hchoice'
      exact h
    · intro k' entry' hchoice'
      obtain ⟨rfl, rfl⟩ := hchoice.unique hchoice'
      exact h'

theorem redeem_keepsValue_iff {secret redeemAddress : Str} {tx : CTransaction}
    (hcontract : ReportsContract ssl conf env w held contract txid)
    (hfee : conf.type = str "cfos" → ReportsFee env w)
    (h : redeemTransaction ssl contract txid secret redeemAddress conf env w = (.ok tx, w')) :
    KeepsValue held tx ↔ RedeemCovers ssl conf env w contract txid ∧
      (conf.type = str "cfos" → FeeHolds env w held) := by
  obtain ⟨i, amount, keyID, key, pubKey, sig, pushKey, w₁, w₂, _, hfind, hsign, _, hrest⟩ :=
    redeemTransaction_eq_ok h
  have hunits := hcontract i amount w₁ hfind
  have hbase (s : CScript) :
      KeepsValue held ((redeemUnsigned conf env txid i amount keyID).setScriptSig s) ↔
        (minTxFee conf.type : ℚ) ≤ amount * baseUnit conf.type := by
    rw [keepsValue_setScriptSig]
    exact keepsValue_spend_iff rfl rfl hunits
  rw [RedeemCovers, contractCovers_iff hfind]
  by_cases hcfos : conf.type = str "cfos"
  · rw [if_pos hcfos] at hrest
    obtain ⟨reply, unspents, k, unspent, entry, sig', hanswer, hresult, hsearch, hread, _, rfl⟩ :=
      addFeeInput_eq_ok hrest
    -- three calls came before
    rw [signContract_calls hsign, findContractOut_calls hfind] at hanswer
    have hchoice : FeeChoice env w k entry := ⟨reply, unspents, unspent, hanswer, hresult, hsearch,
      hread⟩
    obtain ⟨m, hm, hmunits⟩ := hfee hcfos k entry hchoice
    rw [keepsValue_setScriptSig, keepsValue_feeTransaction rfl rfl hm hmunits, hbase,
      ← feeCovers_iff hchoice hmunits]
    simp only [hcfos, forall_const, and_assoc]
  · rw [if_neg hcfos] at hrest
    cases hrest
    rw [hbase]
    simp only [hcfos, false_implies, and_true]

theorem refund_keepsValue_iff {refundAddress : Str} {tx : CTransaction}
    (hcoin : conf.type = str "bitcoin" ∨ conf.type = str "blackcoin")
    (hcontract : ReportsContract ssl conf env w held contract txid)
    (h : refundTransaction ssl contract txid refundAddress conf env w = (.ok tx, w')) :
    KeepsValue held tx ↔ ContractCovers ssl conf env w contract txid := by
  obtain ⟨i, amount, keyID, key, pubKey, sig, pushKey, w₁, _, hfind, _, _, rfl⟩ :=
    refundTransaction_eq_ok h
  have hunits := hcontract i amount w₁ hfind
  -- Refund pays what Redeem pays
  have hvout : (refundUnsigned conf env (parseHex contract) txid i amount keyID).vout =
      [⟨redeemValue conf.type amount, payToPubkeyHash keyID, conf.type⟩] := by
    rw [← refundValue_eq_redeemValue hcoin env.unsetFee]
    rfl
  rw [contractCovers_iff hfind, keepsValue_setScriptSig]
  exact keepsValue_spend_iff rfl hvout hunits

/-- A run that builds a transaction and broadcasts it is safe under the condition on which
    the transaction keeps value, and if it broadcasts, under no other. -/
theorem safeSpend_of_keepsValue {build : Swap CTransaction} {covers cond : Prop}
    (hbuild : EnvM.Keeps NoBroadcast build)
    (hkeeps : ∀ tx w', build env w = (.ok tx, w') → (KeepsValue held tx ↔ cond))
    (hcovers : cond → covers) :
      (cond → SafeSpend env w held covers build (build >>= fun tx => broadcast conf tx)) ∧
      (Broadcasts w ((build >>= fun tx => broadcast conf tx) env w).2 →
        SafeSpend env w held covers build (build >>= fun tx => broadcast conf tx) → cond) := by
  constructor
  · intro hcond
    constructor
    · intro call hcall hmethod
      obtain ⟨tx, w', hrun, rfl⟩ := sends_of_keeps hbuild hcall hmethod
      exact ⟨tx, w', hrun, rfl, (hkeeps tx w' hrun).mpr hcond⟩
    · intro hnot
      exact absurd (hcovers hcond) hnot
  · intro h hsafe
    obtain ⟨call, hcall, hmethod⟩ := h
    obtain ⟨tx, w', hrun, _, hvalue⟩ := hsafe.keeps call hcall hmethod
    exact (hkeeps tx w' hrun).mp hvalue

end

/-- Redeem is safe if the contract's amount covers the fee and, for cfos, so does the amount
    of the fee output and the output spent for it holds what is left; Refund of bitcoin and
    blackcoin, if the contract's amount covers the fee.  A run that broadcasts is safe only
    then. -/
theorem spends_keep_value_iff (ssl : OpenSSL) (conf : RpcConf) (env : Env) (w : World)
    (held : Holdings) (contract txid : Str)
    (hcontract : ReportsContract ssl conf env w held contract txid)
    (hfee : conf.type = str "cfos" → ReportsFee env w) :
    (∀ secret redeemAddress : Str,
      (RedeemCovers ssl conf env w contract txid ∧
          (conf.type = str "cfos" → FeeHolds env w held) →
        SafeSpend env w held (RedeemCovers ssl conf env w contract txid)
          (redeemTransaction ssl contract txid secret redeemAddress conf)
          (redeem ssl contract txid secret redeemAddress conf)) ∧
      (Broadcasts w (redeem ssl contract txid secret redeemAddress conf env w).2 →
        SafeSpend env w held (RedeemCovers ssl conf env w contract txid)
          (redeemTransaction ssl contract txid secret redeemAddress conf)
          (redeem ssl contract txid secret redeemAddress conf) →
        RedeemCovers ssl conf env w contract txid ∧
          (conf.type = str "cfos" → FeeHolds env w held))) ∧
    (conf.type = str "bitcoin" ∨ conf.type = str "blackcoin" → ∀ refundAddress : Str,
      (ContractCovers ssl conf env w contract txid →
        SafeSpend env w held (ContractCovers ssl conf env w contract txid)
          (refundTransaction ssl contract txid refundAddress conf)
          (refund ssl contract txid refundAddress conf)) ∧
      (Broadcasts w (refund ssl contract txid refundAddress conf env w).2 →
        SafeSpend env w held (ContractCovers ssl conf env w contract txid)
          (refundTransaction ssl contract txid refundAddress conf)
          (refund ssl contract txid refundAddress conf) →
        ContractCovers ssl conf env w contract txid)) := by
  constructor
  · intro secret redeemAddress
    exact safeSpend_of_keepsValue (keeps_redeemTransaction contract txid secret redeemAddress)
      (fun _ _ hrun => redeem_keepsValue_iff hcontract hfee hrun) fun h => h.1
  · intro hcoin refundAddress
    exact safeSpend_of_keepsValue (keeps_refundTransaction contract txid refundAddress)
      (fun _ _ hrun => refund_keepsValue_iff hcoin hcontract hrun) fun h => h

/-! ## A redeem of little money -/

/-- OpenSSL with private key 2 and its signature for the redeem of 500 base units. -/
def smallSSL : OpenSSL := OpenSSL.ofTables
  [((sampleSecretKey 2, true),
     hexBytes "02c6047f9441ed7d6d3045406e95c07cd85c778e4b8cef3ca7abac09b95c709ee5")]
  [((sampleSecretKey 2, hexBytes "1108e40b9ae4858e96f15ce0f71e2136b1ab0be3634c966f8c76c93c67a3b0ba"),
     (0xceddb92137283b76b38015296ce082eaa0ae4d2b842a279874afd22fd8ddd06e,
      0xfac43be6520d0da795dc9ebfc481ef635cd7bf70f6a693db16d8b268dc6acd2f)),
   ((sampleSecretKey 2, hexBytes "19081e47284c2ff0947ca978418f31440f2918ef1473a705a0c4f7c156675ccf"),
     (0xe920cc988fc9c2f74add66e9a0ecb5c7777809088e4873d3b61e58148bfe47e5,
      0x79735a4e588565ddc76465b68fa830c2351e2e2915a3bc1c5f02f499b23dcd03))]

/-- A node on which the contract's output holds `value` bitcoin. -/
def valueEnv (value : ℚ) : Env := Env.sample (answersOf
  [.result (.string (str "00")),
    .result (.object [("vout", .array
      [(contractDecodedOut smallSSL (str "bitcoin") sampleContract value).toJson])]),
    .result sampleKeyText2, .result (.string sampleTxid)])

/-- The Redeem of the contract on it. -/
def valueRedeem : Swap Unit :=
  redeem smallSSL (hexStr sampleContract) sampleTxid (hexStr sampleSecret)
    (str "1cMh228HTCiwS8ZsaakH8A8wze1JR5ZsP") (RpcConf.localNode "bitcoin")

/-- What it builds. -/
def valueRedeemTransaction : Swap CTransaction :=
  redeemTransaction smallSSL (hexStr sampleContract) sampleTxid (hexStr sampleSecret)
    (str "1cMh228HTCiwS8ZsaakH8A8wze1JR5ZsP") (RpcConf.localNode "bitcoin")

/-- Holdings of `n` base units everywhere. -/
def Holdings.const (n : Int) (h : 0 ≤ n ∧ n ≤ maxMoney) : Holdings := ⟨fun _ => n, fun _ => h⟩

theorem findContractOut_valueEnv {value : ℚ} {i : Nat} {amount : ℚ} {w' : World}
    (h : findContractOut smallSSL (RpcConf.localNode "bitcoin") (parseHex (hexStr sampleContract))
      sampleTxid (valueEnv value) World.initial = (.ok (i, amount), w')) : amount = value := by
  have hlisted := listedByAddress_contractDecodedOut smallSSL (str "bitcoin") sampleContract value
  have hloop : contractOut smallSSL
      (contractAddress smallSSL (RpcConf.localNode "bitcoin").type sampleContract) 0
      [(contractDecodedOut smallSSL (str "bitcoin") sampleContract value).toJson] =
        .ok (some (0, value)) := by
    have hpays : PaysTo (CScript.getID smallSSL sampleContract)
        (contractDecodedOut smallSSL (str "bitcoin") sampleContract value) := rfl
    refine (contractOut_cons (by decide) (reportsOut_toJson _) hlisted 0).trans ?_
    rw [if_neg (by simp [contractDecodedOut]), if_pos hpays]
    rfl
  rw [parseHex_hexStr, findContractOut_run rfl rfl, hloop] at h
  cases h
  rfl

/-- One bitcoin is redeemed safely. -/
theorem redeem_safe_sample :
    SafeSpend (valueEnv 1) World.initial (.const 100000000 (by decide))
      (RedeemCovers smallSSL (RpcConf.localNode "bitcoin") (valueEnv 1) World.initial
        (hexStr sampleContract) sampleTxid) valueRedeemTransaction valueRedeem := by
  have hcontract : ReportsContract smallSSL (RpcConf.localNode "bitcoin") (valueEnv 1)
      World.initial (.const 100000000 (by decide)) (hexStr sampleContract) sampleTxid := by
    intro i amount w' hfind
    obtain rfl := findContractOut_valueEnv hfind
    show (1 : ℚ) * baseUnit (str "bitcoin") = (100000000 : Int)
    decide +kernel
  have hcovers : RedeemCovers smallSSL (RpcConf.localNode "bitcoin") (valueEnv 1) World.initial
      (hexStr sampleContract) sampleTxid := by
    constructor
    · intro i amount w' hfind
      obtain rfl := findContractOut_valueEnv hfind
      show (minTxFee (str "bitcoin") : ℚ) ≤ 1 * baseUnit (str "bitcoin")
      decide +kernel
    · intro hcfos
      exact absurd hcfos (by decide)
  have hnot : (RpcConf.localNode "bitcoin").type ≠ str "cfos" := by decide
  exact ((spends_keep_value_iff smallSSL (RpcConf.localNode "bitcoin") (valueEnv 1) World.initial
    (.const 100000000 (by decide)) (hexStr sampleContract) sampleTxid hcontract
    (fun h => absurd h hnot)).1 _ _).1 ⟨hcovers, fun h => absurd h hnot⟩

/-- Of 500 base units a fee of 1000 is deducted, and the transaction with the output of
    -500 is broadcast. -/
theorem redeem_little_broadcast :
    (1 / 200000 : ℚ) * baseUnit (str "bitcoin") = 500 ∧ minTxFee (str "bitcoin") = 1000 ∧
      Broadcasts World.initial (valueRedeem (valueEnv (1 / 200000)) World.initial).2 ∧
      ∃ tx w', valueRedeemTransaction (valueEnv (1 / 200000)) World.initial = (.ok tx, w') ∧
        tx.vout.map (·.nValue) = [-500] := by
  have hvalues : (valueRedeemTransaction (valueEnv (1 / 200000)) World.initial).1.toOption.map
      (fun tx => tx.vout.map (·.nValue)) = some [-500] := by
    decide +kernel
  rcases hrun : valueRedeemTransaction (valueEnv (1 / 200000)) World.initial with ⟨e | tx, w'⟩
  · rw [hrun] at hvalues
    cases hvalues
  · rw [hrun] at hvalues
    have hsent : Broadcasts World.initial
        (valueRedeem (valueEnv (1 / 200000)) World.initial).2 := by
      rw [valueRedeem, redeem]
      exact broadcasts_of_build (keeps_redeemTransaction _ _ _ _) hrun
    exact ⟨by decide +kernel, by decide, hsent, tx, w', rfl, Option.some.inj hvalues⟩

end CrossChain
