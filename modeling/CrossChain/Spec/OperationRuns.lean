import CrossChain.Native.AtomicSwap

/-!
# Runs of the operations

What a run of `Redeem` or `Refund` that returned did, step by step
(`redeemTransaction_eq_ok`, `refundTransaction_eq_ok`), and that only the last
step broadcasts (`sends_redeem`, `sends_refund`).
-/

namespace CrossChain

/-- The calls a run made, from the world it started in. -/
def newCalls (w w' : World) : List RpcCall := w'.calls.drop w.calls.length

variable {ssl : OpenSSL} {conf : RpcConf} {env : Env} {w w' : World}

/-! ## Steps that returned -/

theorem swapData_eq_ok_iff {c : CScript} {data : AtomicSwapData} :
    swapData c env w = (.ok data, w') ↔
      CScript.isAtomicSwap c = .ok true ∧ data = extractAtomicSwapData c ∧ w' = w := by
  rw [swapData, EnvM.bind_eq_ok_iff]
  constructor
  · intro hgiven
    obtain ⟨b, _, hb, h⟩ := hgiven
    obtain ⟨hswap, rfl⟩ := raise_eq_ok_iff.mp hb
    cases b with
    | true =>
      cases h
      exact ⟨hswap, rfl, rfl⟩
    | false => exact absurd h atoError_ne_ok
  · intro hgiven
    obtain ⟨hswap, rfl, rfl⟩ := hgiven
    exact ⟨true, _, raise_eq_ok_iff.mpr ⟨hswap, rfl⟩, rfl⟩

/-- The private key came in the node's reply to this call. -/
theorem dumpPrivKey_eq_ok_iff {address prikey : Str} :
    dumpPrivKey conf address env w = (.ok prikey, w') ↔
      ∃ reply, env.answers w.calls.length = .reply (.object reply) ∧
        reply.lookup "error" = some .null ∧ resultString reply = .ok prikey ∧
        w' = w.called ⟨conf, "dumpprivkey", [.string address]⟩ := by
  rw [dumpPrivKey, EnvM.bind_eq_ok_iff]
  constructor
  · intro hgiven
    obtain ⟨reply, w₁, hcall, h⟩ := hgiven
    obtain ⟨hanswer, herror, rfl⟩ := callChecked_eq_ok_iff.mp hcall
    obtain ⟨hresult, rfl⟩ := raise_eq_ok_iff.mp h
    exact ⟨reply, hanswer, herror, hresult, rfl⟩
  · intro hgiven
    obtain ⟨reply, hanswer, herror, hresult, rfl⟩ := hgiven
    exact ⟨reply, _, callChecked_eq_ok_iff.mpr ⟨hanswer, herror, rfl⟩,
      raise_eq_ok_iff.mpr ⟨hresult, rfl⟩⟩

/-- However the request for a key ends, that call was made. -/
theorem dumpPrivKey_state (address : Str) :
    EnvM.wpState (dumpPrivKey conf address)
      (· = w.called ⟨conf, "dumpprivkey", [.string address]⟩) env w := by
  apply EnvM.wpState_bind_eq (callChecked_state conf "dumpprivkey" _)
  intro dumpReply
  exact raise_state _

/-- The raw transaction came in the reply to the first call, the decoded one in the reply
    to the second. -/
theorem fetchTransaction_eq_ok_iff {txid : Str} {txResult : Object} :
    fetchTransaction conf txid env w = (.ok txResult, w') ↔
      ∃ rawtxReply rawtx txReply,
        env.answers w.calls.length = .reply (.object rawtxReply) ∧
        rawtxReply.lookup "error" = some .null ∧ resultString rawtxReply = .ok rawtx ∧
        env.answers (w.calls.length + 1) = .reply (.object txReply) ∧
        txReply.lookup "error" = some .null ∧
        txReply.lookup "result" = some (.object txResult) ∧
        w' = (w.called ⟨conf, "getrawtransaction", [.string txid]⟩).called
          ⟨conf, "decoderawtransaction", [.string rawtx]⟩ := by
  have hobject (reply : Object) :
      (do let txResult ← Object.at' reply "result"; txResult.getObject) = .ok txResult ↔
        reply.lookup "result" = some (.object txResult) := by
    simp [except_bind_eq_ok_iff]
  simp only [fetchTransaction, EnvM.bind_eq_ok_iff, callChecked_eq_ok_iff, raise_eq_ok_iff, hobject]
  constructor
  · intro h
    obtain ⟨rawtxReply, _, ⟨hraw, herror, rfl⟩, rawtx, _, ⟨hresult, rfl⟩, txReply, _, ⟨htx,
      herror', rfl⟩, hdecoded, rfl⟩ := h
    rw [World.called_calls, List.length_append] at htx
    exact ⟨rawtxReply, rawtx, txReply, hraw, herror, hresult, htx, herror', hdecoded, rfl⟩
  · intro h
    obtain ⟨rawtxReply, rawtx, txReply, hraw, herror, hresult, htx, herror', hdecoded, rfl⟩ := h
    refine ⟨rawtxReply, _, ⟨hraw, herror, rfl⟩, rawtx, _, ⟨hresult, rfl⟩, txReply, _,
      ⟨?_, herror', rfl⟩, hdecoded, rfl⟩
    rw [World.called_calls, List.length_append]
    exact htx

/-- The contract's input was signed with the key the node returned for the key hash. -/
theorem signContract_eq_ok_iff {c : CScript} {keyHash : Bytes} {tx : CTransaction} {key : CKey}
    {pubKey sig : Bytes} :
    signContract ssl conf c keyHash tx env w = (.ok (key, pubKey, sig), w') ↔
      ∃ prikey secret,
        dumpPrivKey conf ((keyHashAddress conf.type keyHash).toString ssl) env w =
          (.ok prikey, w') ∧
        CBitcoinSecret.setString ssl prikey conf.type = some secret ∧
        key = secret.getKey ∧ key.getPubKey ssl = .ok pubKey ∧
        key.sign ssl (signatureHash ssl c tx 0 sighashAll) sighashAll.toUInt8 = some sig := by
  simp only [signContract, EnvM.bind_eq_ok_iff]
  constructor
  · intro hgiven
    obtain ⟨prikey, w₁, hdump, secret, w₂, h₂, pub, w₃, h₃, sig', w₄, h₄, h⟩ := hgiven
    obtain ⟨hsecret, rfl⟩ := orFail_eq_ok_iff.mp h₂
    obtain ⟨hpub, rfl⟩ := raise_eq_ok_iff.mp h₃
    obtain ⟨hsig, rfl⟩ := orFail_eq_ok_iff.mp h₄
    cases h
    exact ⟨prikey, secret, hdump, hsecret, rfl, hpub, hsig⟩
  · intro hgiven
    obtain ⟨prikey, secret, hdump, hsecret, rfl, hpub, hsig⟩ := hgiven
    exact ⟨prikey, _, hdump, secret, _, orFail_eq_ok_iff.mpr ⟨hsecret, rfl⟩, pubKey, _,
      raise_eq_ok_iff.mpr ⟨hpub, rfl⟩, sig, _, orFail_eq_ok_iff.mpr ⟨hsig, rfl⟩, rfl⟩

/-- The transaction with the fee's input and output. -/
def feeTransaction (conf : RpcConf) (keyID : Uint160) (entry : FeeEntry) (feeIndex : Nat)
    (tx : CTransaction) : CTransaction :=
  { tx with
    vout := tx.vout ++ [⟨truncToInt64 (entry.amount * cfosCoin - blackcoinMinTxFee),
      payToPubkeyHash keyID, conf.type⟩]
    vin := tx.vin ++ [⟨⟨BaseUint.setHex 32 entry.txid, UInt32.ofNat feeIndex⟩, [],
      uintMax - 1⟩] }

/-- The fee branch that returned: it chose an entry and read it, appended its input and
    output, and overwrote the contract's script with a signature by the recipient's key. -/
theorem addFeeInput_eq_ok {redeemKeyID : Uint160} {key : CKey} {tx tx' : CTransaction}
    (h : addFeeInput ssl conf redeemKeyID key tx env w = (.ok tx', w')) :
    ∃ reply unspents i unspent entry sig,
      env.answers w.calls.length = .reply (.object reply) ∧
      reply.lookup "result" = some (.array unspents) ∧
      feeUnspent 0 unspents = .ok (some (i, unspent)) ∧ readFeeEntry unspent = .ok entry ∧
      key.sign ssl (signatureHash ssl (parseHex entry.scriptPubKey)
        (feeTransaction conf redeemKeyID entry i tx) 1 sighashAll) sighashAll.toUInt8 = some sig ∧
      tx' = (feeTransaction conf redeemKeyID entry i tx).setScriptSig (CScript.pushVec sig) := by
  simp only [addFeeInput, EnvM.bind_eq_ok_iff] at h
  obtain ⟨reply, _, hcall, found, _, hraise, ⟨i, unspent⟩, _, hfound, entry, _, hread, _, _, _, _,
    _, _, _, _, _, _, _, _, sig, _, hsign, h⟩ := h
  obtain ⟨hanswer, _, rfl⟩ := callRPC_eq_ok_iff.mp hcall
  obtain ⟨hsearch, _⟩ := raise_eq_ok_iff.mp hraise
  obtain ⟨hchoice, _⟩ := orFail_eq_ok_iff.mp hfound
  obtain ⟨hentry, _⟩ := raise_eq_ok_iff.mp hread
  obtain ⟨hsig, _⟩ := orFail_eq_ok_iff.mp hsign
  simp only [except_bind_eq_ok_iff, Object.at'_eq_ok_iff, Json.getArray_eq_ok_iff] at hsearch
  obtain ⟨_, hresult, unspents, hunspents, hsearch⟩ := hsearch
  rw [hunspents] at hresult
  rw [hchoice] at hsearch
  cases h
  exact ⟨reply, unspents, i, unspent, entry, sig, hanswer, hresult, hsearch, hentry, hsig, rfl⟩

/-! ## Transactions that were built -/

/-- The transaction `Redeem` signs for the contract's input. -/
def redeemUnsigned (conf : RpcConf) (env : Env) (txid : Str) (outIndex : Nat) (amount : ℚ)
    (keyID : Uint160) : CTransaction :=
  spendContract conf env.now txid outIndex (redeemValue conf.type amount) keyID

/-- The transaction `Refund` signs for the contract's input. -/
def refundUnsigned (conf : RpcConf) (env : Env) (contractVec : CScript) (txid : Str)
    (outIndex : Nat) (amount : ℚ) (keyID : Uint160) : CTransaction :=
  { spendContract conf env.now txid outIndex (refundValue env.unsetFee conf.type amount) keyID with
    nLockTime := htonl (UInt32.ofNat (strtol16
      (hexStr (extractAtomicSwapData contractVec).lockTime))) }

/-- A run of `Redeem` that built its transaction. -/
theorem redeemTransaction_eq_ok {contract txid secret redeemAddress : Str} {tx : CTransaction}
    (h : redeemTransaction ssl contract txid secret redeemAddress conf env w = (.ok tx, w')) :
    ∃ outIndex amount keyID key pubKey sig pushKey w₁ w₂,
      CScript.isAtomicSwap (parseHex contract) = .ok true ∧
      findContractOut ssl conf (parseHex contract) txid env w = (.ok (outIndex, amount), w₁) ∧
      signContract ssl conf (parseHex contract)
        (extractAtomicSwapData (parseHex contract)).recipientPubKeyHash
        (redeemUnsigned conf env txid outIndex amount keyID) env w₁ =
          (.ok (key, pubKey, sig), w₂) ∧
      CScript.pushPubKey pubKey = .ok pushKey ∧
      (if conf.type = str "cfos" then
          addFeeInput ssl conf keyID key
            ((redeemUnsigned conf env txid outIndex amount keyID).setScriptSig
              (CScript.pushVec sig ++ pushKey ++ CScript.pushVec (parseHex secret) ++ [opTrue] ++
                CScript.pushVec (parseHex contract)))
        else pure
          ((redeemUnsigned conf env txid outIndex amount keyID).setScriptSig
            (CScript.pushVec sig ++ pushKey ++ CScript.pushVec (parseHex secret) ++ [opTrue] ++
              CScript.pushVec (parseHex contract)))) env w₂ = (.ok tx, w') := by
  -- one world for each step of the source
  simp only [redeemTransaction, EnvM.bind_eq_ok_iff] at h
  obtain ⟨_, _, henv, data, _, hdata, ⟨outIndex, amount⟩, w₁, hfind, keyID, _, hkey,
    ⟨key, pubKey, sig⟩, w₂, hsign, pushKey, _, h₁, h⟩ := h
  cases henv
  obtain ⟨hswap, rfl, rfl⟩ := swapData_eq_ok_iff.mp hdata
  obtain ⟨_, rfl⟩ := orFail_eq_ok_iff.mp hkey
  obtain ⟨hpush, rfl⟩ := raise_eq_ok_iff.mp h₁
  exact ⟨outIndex, amount, keyID, key, pubKey, sig, pushKey, _, _, hswap, hfind, hsign, hpush, h⟩

/-- A run of `Refund` that built its transaction. -/
theorem refundTransaction_eq_ok {contract txid refundAddress : Str} {tx : CTransaction}
    (h : refundTransaction ssl contract txid refundAddress conf env w = (.ok tx, w')) :
    ∃ outIndex amount keyID key pubKey sig pushKey w₁,
      CScript.isAtomicSwap (parseHex contract) = .ok true ∧
      findContractOut ssl conf (parseHex contract) txid env w = (.ok (outIndex, amount), w₁) ∧
      signContract ssl conf (parseHex contract)
        (extractAtomicSwapData (parseHex contract)).refundPubKeyHash
        (refundUnsigned conf env (parseHex contract) txid outIndex amount keyID) env w₁ =
          (.ok (key, pubKey, sig), w') ∧
      CScript.pushPubKey pubKey = .ok pushKey ∧
      tx = (refundUnsigned conf env (parseHex contract) txid outIndex amount keyID).setScriptSig
        (CScript.pushVec sig ++ pushKey ++ [opFalse] ++ CScript.pushVec (parseHex contract)) := by
  simp only [refundTransaction, EnvM.bind_eq_ok_iff] at h
  obtain ⟨_, _, henv, data, _, hdata, ⟨outIndex, amount⟩, w₁, hfind, keyID, _, hkey,
    ⟨key, pubKey, sig⟩, w₂, hsign, pushKey, _, h₁, h⟩ := h
  cases henv
  obtain ⟨hswap, rfl, rfl⟩ := swapData_eq_ok_iff.mp hdata
  obtain ⟨_, rfl⟩ := orFail_eq_ok_iff.mp hkey
  obtain ⟨hpush, rfl⟩ := raise_eq_ok_iff.mp h₁
  cases h
  exact ⟨outIndex, amount, keyID, key, pubKey, sig, pushKey, _, hswap, hfind, hsign, hpush, rfl⟩

/-! ## Only the last step broadcasts -/

/-- The calls from one world to the other hand nothing to `sendrawtransaction`. -/
def NoBroadcast (w w' : World) : Prop :=
  ∃ calls, w'.calls = w.calls ++ calls ∧ ∀ call ∈ calls, call.method ≠ "sendrawtransaction"

instance : Std.Refl NoBroadcast where
  refl _ := ⟨[], by simp, by simp⟩

instance : IsTrans World NoBroadcast where
  trans _ _ _ := by
    intro h hgiven
    obtain ⟨xs, hx, hxs⟩ := h
    obtain ⟨ys, hy, hys⟩ := hgiven
    refine ⟨xs ++ ys, by rw [hy, hx, List.append_assoc], ?_⟩
    intro call hcall
    rcases List.mem_append.mp hcall with hcall | hcall
    · exact hxs call hcall
    · exact hys call hcall

section

variable {α : Type}

theorem keeps_raise (x : Except Exn α) : EnvM.Keeps NoBroadcast (raise x) :=
  EnvM.keeps_ofExcept _

theorem keeps_atoError (text : Str) : EnvM.Keeps NoBroadcast (atoError text : Swap α) :=
  EnvM.keeps_stop _

theorem keeps_orFail (x : Option α) (text : String) : EnvM.Keeps NoBroadcast (orFail x text) := by
  cases x with
  | none => exact keeps_atoError _
  | some a => exact EnvM.keeps_pure a

/-- A call of any other method broadcasts nothing. -/
theorem noBroadcast_called {method : String} (h : method ≠ "sendrawtransaction")
    (params : List Json) (w : World) : NoBroadcast w (w.called ⟨conf, method, params⟩) :=
  ⟨[⟨conf, method, params⟩], rfl, by simpa using h⟩

theorem keeps_callRPC {method : String} (h : method ≠ "sendrawtransaction") (params : List Json) :
    EnvM.Keeps NoBroadcast (callRPC conf method params) := by
  rw [EnvM.keeps_iff_wpState]
  intro env w
  have hnew : NoBroadcast w (w.called ⟨conf, method, params⟩) := noBroadcast_called h params w
  exact EnvM.wp_mono (callRPC_state conf method params) (fun _ _ hs => hs ▸ hnew)
    (fun _ _ hs => hs ▸ hnew)

theorem keeps_callChecked {method : String} (h : method ≠ "sendrawtransaction")
    (params : List Json) : EnvM.Keeps NoBroadcast (callChecked conf method params) := by
  rw [EnvM.keeps_iff_wpState]
  intro env w
  have hnew : NoBroadcast w (w.called ⟨conf, method, params⟩) := noBroadcast_called h params w
  exact EnvM.wp_mono (callChecked_state conf method params) (fun _ _ hs => hs ▸ hnew)
    (fun _ _ hs => hs ▸ hnew)

end

theorem keeps_swapData (c : CScript) : EnvM.Keeps NoBroadcast (swapData c) := by
  apply EnvM.keeps_bind (keeps_raise _)
  intro b
  exact EnvM.keeps_ite (EnvM.keeps_pure _) (keeps_atoError _)

theorem keeps_fetchTransaction (txid : Str) :
    EnvM.Keeps NoBroadcast (fetchTransaction conf txid) := by
  apply EnvM.keeps_bind (keeps_callChecked (by decide) _)
  intro rawtxReply
  apply EnvM.keeps_bind (keeps_raise _)
  intro rawtx
  apply EnvM.keeps_bind (keeps_callChecked (by decide) _)
  intro txReply
  exact keeps_raise _

theorem keeps_findContractOut (c : CScript) (txid : Str) :
    EnvM.Keeps NoBroadcast (findContractOut ssl conf c txid) := by
  apply EnvM.keeps_bind (keeps_fetchTransaction txid)
  intro txResult
  apply EnvM.keeps_bind (keeps_raise _)
  intro out
  exact keeps_orFail _ _

theorem keeps_dumpPrivKey (address : Str) : EnvM.Keeps NoBroadcast (dumpPrivKey conf address) := by
  apply EnvM.keeps_bind (keeps_callChecked (by decide) _)
  intro dumpReply
  exact keeps_raise _

theorem keeps_signContract (c : CScript) (keyHash : Bytes) (tx : CTransaction) :
    EnvM.Keeps NoBroadcast (signContract ssl conf c keyHash tx) := by
  apply EnvM.keeps_bind (keeps_dumpPrivKey _)
  intro prikey
  apply EnvM.keeps_bind (keeps_orFail _ _)
  intro secret
  apply EnvM.keeps_bind (keeps_raise _)
  intro pubKey
  apply EnvM.keeps_bind (keeps_orFail _ _)
  intro sig
  exact EnvM.keeps_pure _

theorem keeps_addFeeInput (keyID : Uint160) (key : CKey) (tx : CTransaction) :
    EnvM.Keeps NoBroadcast (addFeeInput ssl conf keyID key tx) := by
  apply EnvM.keeps_bind (keeps_callRPC (by decide) _)
  intro feeReply
  apply EnvM.keeps_bind (keeps_raise _)
  intro found
  apply EnvM.keeps_bind (keeps_orFail _ _)
  intro p
  obtain ⟨feeIndex, unspent⟩ := p
  apply EnvM.keeps_bind (keeps_raise _)
  intro entry
  apply EnvM.keeps_bind (keeps_orFail _ _)
  intro feeKeyID
  apply EnvM.keeps_bind (keeps_dumpPrivKey _)
  intro feePrikey
  apply EnvM.keeps_bind (keeps_orFail _ _)
  intro feeSecret
  apply EnvM.keeps_bind (keeps_raise _)
  intro feePubKey
  apply EnvM.keeps_bind (keeps_orFail _ _)
  intro sig
  exact EnvM.keeps_pure _

/-- Building the transaction broadcasts nothing. -/
theorem keeps_redeemTransaction (contract txid secret redeemAddress : Str) :
    EnvM.Keeps NoBroadcast (redeemTransaction ssl contract txid secret redeemAddress conf) := by
  refine EnvM.keeps_bind EnvM.keeps_ask ?_
  intro env
  apply EnvM.keeps_bind (keeps_swapData _)
  intro data
  apply EnvM.keeps_bind (keeps_findContractOut _ _)
  intro p
  obtain ⟨outIndex, amount⟩ := p
  apply EnvM.keeps_bind (keeps_orFail _ _)
  intro keyID
  apply EnvM.keeps_bind (keeps_signContract _ _ _)
  intro p
  obtain ⟨key, pubKey, sig⟩ := p
  apply EnvM.keeps_bind (keeps_raise _)
  intro pushKey
  exact EnvM.keeps_ite (keeps_addFeeInput _ _ _) (EnvM.keeps_pure _)

theorem keeps_refundTransaction (contract txid refundAddress : Str) :
    EnvM.Keeps NoBroadcast (refundTransaction ssl contract txid refundAddress conf) := by
  refine EnvM.keeps_bind EnvM.keeps_ask ?_
  intro env
  apply EnvM.keeps_bind (keeps_swapData _)
  intro data
  apply EnvM.keeps_bind (keeps_findContractOut _ _)
  intro p
  obtain ⟨outIndex, amount⟩ := p
  apply EnvM.keeps_bind (keeps_orFail _ _)
  intro keyID
  apply EnvM.keeps_bind (keeps_signContract _ _ _)
  intro p
  obtain ⟨key, pubKey, sig⟩ := p
  apply EnvM.keeps_bind (keeps_raise _)
  intro pushKey
  exact EnvM.keeps_pure _

/-- `broadcast` makes one call, with the serialised transaction. -/
theorem broadcast_calls (tx : CTransaction) (env : Env) (w : World) :
    (broadcast conf tx env w).2.calls =
      w.calls ++ [⟨conf, "sendrawtransaction", [.string (hexStr tx.serialize)]⟩] := by
  have hwp : EnvM.wpState (broadcast conf tx) (fun s => s.calls =
      w.calls ++ [⟨conf, "sendrawtransaction", [.string (hexStr tx.serialize)]⟩]) env w := by
    simp only [broadcast, EnvM.wp_bind]
    apply EnvM.wp_mono (callChecked_state _ _ _)
    · -- reading the reply makes no call
      intro reply _ heq
      subst heq
      rw [wp_raise]
      cases resultString reply with
      | error e => rfl
      | ok txid => rfl
    · intro _ _ heq
      subst heq
      rfl
  exact EnvM.wpState_iff.mp hwp

/-- The new calls of a run that goes on to broadcast are those before and that one. -/
theorem newCalls_broadcast {calls : List RpcCall} (h : w'.calls = w.calls ++ calls)
    (tx : CTransaction) :
    newCalls w (broadcast conf tx env w').2 =
      calls ++ [⟨conf, "sendrawtransaction", [.string (hexStr tx.serialize)]⟩] := by
  rw [newCalls, broadcast_calls, h, List.append_assoc, List.drop_left]

/-- A run that builds a transaction and broadcasts it hands to `sendrawtransaction` the
    transaction it built and nothing else. -/
theorem sends_of_keeps {build : Swap CTransaction} (hbuild : EnvM.Keeps NoBroadcast build)
    {call : RpcCall}
    (hcall : call ∈ newCalls w ((build >>= fun tx => broadcast conf tx) env w).2)
    (hmethod : call.method = "sendrawtransaction") :
    ∃ tx w', build env w = (.ok tx, w') ∧
      call = ⟨conf, "sendrawtransaction", [.string (hexStr tx.serialize)]⟩ := by
  obtain ⟨calls, hcalls, hno⟩ := hbuild env w
  rw [EnvM.bind_run] at hcall
  rcases hrun : build env w with ⟨e | tx, w'⟩
  · rw [hrun] at hcalls hcall
    have hmem : call ∈ calls := by rwa [newCalls, hcalls, List.drop_left] at hcall
    exact absurd hmethod (hno call hmem)
  · rw [hrun] at hcalls hcall
    rw [newCalls_broadcast hcalls] at hcall
    rcases List.mem_append.mp hcall with hmem | hmem
    · exact absurd hmethod (hno call hmem)
    · exact ⟨tx, w', rfl, List.mem_singleton.mp hmem⟩

/-- The run hands something to `sendrawtransaction`. -/
def Broadcasts (w w' : World) : Prop :=
  ∃ call ∈ newCalls w w', call.method = "sendrawtransaction"

/-- What was built is broadcast. -/
theorem broadcasts_of_build {build : Swap CTransaction} {tx : CTransaction}
    (hbuild : EnvM.Keeps NoBroadcast build) (hrun : build env w = (.ok tx, w')) :
    Broadcasts w ((build >>= fun tx => broadcast conf tx) env w).2 := by
  obtain ⟨calls, hcalls, _⟩ := hbuild env w
  rw [hrun] at hcalls
  rw [EnvM.bind_run_of_ok hrun, Broadcasts, newCalls_broadcast hcalls]
  exact ⟨_, List.mem_append_right _ (List.mem_singleton_self _), rfl⟩

/-- What Redeem hands to `sendrawtransaction` is the transaction it built. -/
theorem sends_redeem {contract txid secret redeemAddress : Str} {call : RpcCall}
    (hcall : call ∈ newCalls w (redeem ssl contract txid secret redeemAddress conf env w).2)
    (hmethod : call.method = "sendrawtransaction") :
    ∃ tx w', redeemTransaction ssl contract txid secret redeemAddress conf env w = (.ok tx, w') ∧
      call = ⟨conf, "sendrawtransaction", [.string (hexStr tx.serialize)]⟩ :=
  sends_of_keeps (keeps_redeemTransaction contract txid secret redeemAddress) hcall hmethod

/-- What Refund hands to `sendrawtransaction` is the transaction it built. -/
theorem sends_refund {contract txid refundAddress : Str} {call : RpcCall}
    (hcall : call ∈ newCalls w (refund ssl contract txid refundAddress conf env w).2)
    (hmethod : call.method = "sendrawtransaction") :
    ∃ tx w', refundTransaction ssl contract txid refundAddress conf env w = (.ok tx, w') ∧
      call = ⟨conf, "sendrawtransaction", [.string (hexStr tx.serialize)]⟩ :=
  sends_of_keeps (keeps_refundTransaction contract txid refundAddress) hcall hmethod

end CrossChain
