import CrossChain.Spec.OperationRuns
import CrossChain.Spec.Recognise
import CrossChain.Spec.ContractUnlock

/-!
# What Redeem and Refund broadcast

Filling in `scriptSig` does not change what `SignatureHash` commits to
(`signatureHash_setScriptSig`), so the transaction broadcast is the one signed,
unless the fee branch of Redeem changes it in between
(`broadcast_signed_iff`).  Refund sets the lock time of the contract
(`refund_meets_lock`).
-/

namespace CrossChain

/-! ## What a signature commits to -/

/-- The signed transaction does not depend on the script of input 0. -/
theorem signatureTx_setScriptSig (code : CScript) (tx : CTransaction) (s : CScript) (nIn : Nat)
    (t : UInt32) : signatureTx code (tx.setScriptSig s) nIn t = signatureTx code tx nIn t := by
  obtain ⟨type, version, time, vin, vout, lockTime⟩ := tx
  cases vin with
  | nil => rfl
  | cons i is => rfl

theorem signatureHash_setScriptSig (ssl : OpenSSL) (code : CScript) (tx : CTransaction)
    (s : CScript) (nIn : Nat) (t : UInt32) :
    signatureHash ssl code (tx.setScriptSig s) nIn t = signatureHash ssl code tx nIn t := by
  rw [signatureHash, signatureHash, signaturePreimage, signaturePreimage,
    signatureTx_setScriptSig]

/-! ## Signed inputs -/

section

variable (ssl : OpenSSL) (conf : RpcConf) (env : Env) (w' : World)

/-- `dumpprivkey` was called for the address of the key hash, and `key` is what the
    node's answer decodes to. -/
def DumpedKey (keyHash : Bytes) (key : CKey) : Prop :=
  ∃ n reply prikey secret,
    w'.calls[n]? = some ⟨conf, "dumpprivkey",
      [.string ((keyHashAddress conf.type keyHash).toString ssl)]⟩ ∧
    env.answers n = .reply (.object reply) ∧ resultString reply = .ok prikey ∧
    CBitcoinSecret.setString ssl prikey conf.type = some secret ∧ key = secret.getKey

/-- The script that input `i` spends and the key hash it pays to: the contract for input
    0, an output the node listed for any other. -/
def SpentOutput (contract : CScript) (keyHash : Bytes) (tx : CTransaction) (i : Nat)
    (script : CScript) (hash : Bytes) : Prop :=
  (i = 0 ∧ script = contract ∧ hash = keyHash) ∨
  (0 < i ∧ ∃ id : Uint160, hash = id.bytes ∧ script = payToPubkeyHash id ∧
    ∃ n reply unspents unspent entry,
      w'.calls[n]? = some ⟨conf, "listunspent", [.string cfosFeeSym]⟩ ∧
      env.answers n = .reply (.object reply) ∧
      reply.lookup "result" = some (.array unspents) ∧ unspent ∈ unspents ∧
      readFeeEntry unspent = .ok entry ∧ parseHex entry.scriptPubKey = script ∧
      tx.vin[i]?.map (·.prevout.hash) = some (BaseUint.setHex 32 entry.txid))

/-- Every input starts with a signature over the final transaction by the key of the hash
    its spent script pays to, and the contract's input is signature, public key, `middle`
    and contract. -/
structure SignedAsBroadcast (contract : CScript) (keyHash : Bytes) (middle : CScript)
    (tx : CTransaction) : Prop where
  inputs : ∀ i < tx.vin.length, ∃ script hash key sig rest,
    SpentOutput conf env w' contract keyHash tx i script hash ∧
    DumpedKey ssl conf env w' hash key ∧
    key.sign ssl (signatureHash ssl script tx i sighashAll) sighashAll.toUInt8 = some sig ∧
    tx.vin[i]?.map (·.scriptSig) = some (CScript.pushVec sig ++ rest)
  contractInput : ∃ key pubKey pushKey sig,
    DumpedKey ssl conf env w' keyHash key ∧ key.getPubKey ssl = .ok pubKey ∧
    CScript.pushPubKey pubKey = .ok pushKey ∧
    key.sign ssl (signatureHash ssl contract tx 0 sighashAll) sighashAll.toUInt8 = some sig ∧
    tx.vin[0]?.map (·.scriptSig) =
      some (CScript.pushVec sig ++ pushKey ++ middle ++ CScript.pushVec contract)

end

section

variable {ssl : OpenSSL} {conf : RpcConf} {env : Env} {w w' : World}

theorem dumpedKey_of_dumpPrivKey {keyHash : Bytes} {prikey : Str} {secret : CBitcoinSecret}
    (h : dumpPrivKey conf ((keyHashAddress conf.type keyHash).toString ssl) env w =
      (.ok prikey, w'))
    (hsecret : CBitcoinSecret.setString ssl prikey conf.type = some secret) :
    DumpedKey ssl conf env w' keyHash secret.getKey := by
  obtain ⟨reply, hanswer, _, hresult, rfl⟩ := dumpPrivKey_eq_ok_iff.mp h
  refine ⟨w.calls.length, reply, prikey, secret, ?_, hanswer, hresult, hsecret, rfl⟩
  rw [World.called_calls, List.getElem?_append_right (Nat.le_refl _), Nat.sub_self]
  rfl

/-- A transaction with the contract's input alone, signed before its script was filled in,
    is signed as broadcast. -/
theorem signedAsBroadcast_of_signContract {contract : CScript} {keyHash : Bytes}
    {tx : CTransaction} {input : CTxIn} {key : CKey} {pubKey sig pushKey : Bytes}
    (hvin : tx.vin = [input])
    (hsign : signContract ssl conf contract keyHash tx env w = (.ok (key, pubKey, sig), w'))
    (hpush : CScript.pushPubKey pubKey = .ok pushKey) (middle : CScript) :
    SignedAsBroadcast ssl conf env w' contract keyHash middle
      (tx.setScriptSig (CScript.pushVec sig ++ pushKey ++ middle ++ CScript.pushVec contract)) := by
  obtain ⟨prikey, secret, hdump, hsecret, rfl, hpub, hsig⟩ := signContract_eq_ok_iff.mp hsign
  have hkey := dumpedKey_of_dumpPrivKey hdump hsecret
  constructor
  · -- the contract's input is the only one
    intro i hi
    have hi0 : i = 0 := by
      simp only [CTransaction.setScriptSig, hvin, List.length_modify, List.length_singleton] at hi
      omega
    subst hi0
    refine ⟨contract, keyHash, _, sig, pushKey ++ middle ++ CScript.pushVec contract,
      .inl ⟨rfl, rfl, rfl⟩, hkey, ?_, ?_⟩
    · rw [signatureHash_setScriptSig]
      exact hsig
    · simp [CTransaction.setScriptSig, hvin]
  · refine ⟨_, pubKey, pushKey, sig, hkey, hpub, hpush, ?_, ?_⟩
    · rw [signatureHash_setScriptSig]
      exact hsig
    · simp [CTransaction.setScriptSig, hvin]

/-- A script that is one push of a signature is not signature, key, `middle` and
    contract. -/
theorem not_signedAsBroadcast_of_sig {contract : CScript} {keyHash : Bytes} {middle : CScript}
    {tx : CTransaction} {key : CKey} {hash : Uint256} {sig : Bytes}
    (hlen : 81 ≤ contract.length)
    (hsig : key.sign ssl hash sighashAll.toUInt8 = some sig)
    (hscript : tx.vin[0]?.map (·.scriptSig) = some (CScript.pushVec sig)) :
    ¬ SignedAsBroadcast ssl conf env w' contract keyHash middle tx := by
  intro h
  obtain ⟨_, _, _, pushKey, sig', _, _, _, _, hscript'⟩ := h
  rw [hscript] at hscript'
  -- the push of the contract alone is longer than that of a signature
  have hlens := congrArg List.length (Option.some.inj hscript')
  have hsiglen := CKey.length_sign_le ssl hsig
  have hpush := (CScript.length_pushVec contract).1
  rw [CScript.pushVec_of_lt (by omega)] at hlens
  simp only [List.length_cons, List.length_append] at hlens
  omega

end

section

variable {ssl : OpenSSL} {conf : RpcConf} {env : Env} {w w' : World}
  {contract txid secret address : Str} {tx : CTransaction}

/-- For cfos the script of the contract's input is overwritten after signing. -/
theorem redeem_not_signed_of_cfos (hcfos : conf.type = str "cfos")
    (h : redeemTransaction ssl contract txid secret address conf env w = (.ok tx, w')) :
    ¬ SignedAsBroadcast ssl conf env w' (parseHex contract)
      (extractAtomicSwapData (parseHex contract)).recipientPubKeyHash
      (CScript.pushVec (parseHex secret) ++ [opTrue]) tx := by
  obtain ⟨outIndex, amount, keyID, key, pubKey, sig, pushKey, w₁, w₂, hswap, _, _, _, hrest⟩ :=
    redeemTransaction_eq_ok h
  rw [if_pos hcfos] at hrest
  -- what is left in `vin[0]` is the push of the fee signature
  obtain ⟨_, _, _, _, _, feeSig, _, _, _, _, hfeeSig, rfl⟩ := addFeeInput_eq_ok hrest
  refine not_signedAsBroadcast_of_sig (length_of_isAtomicSwap hswap) hfeeSig ?_
  simp [CTransaction.setScriptSig, feeTransaction, redeemUnsigned, spendContract]

theorem redeem_signed_of_ne_cfos (hcfos : conf.type ≠ str "cfos")
    (h : redeemTransaction ssl contract txid secret address conf env w = (.ok tx, w')) :
    SignedAsBroadcast ssl conf env w' (parseHex contract)
      (extractAtomicSwapData (parseHex contract)).recipientPubKeyHash
      (CScript.pushVec (parseHex secret) ++ [opTrue]) tx := by
  obtain ⟨outIndex, amount, keyID, key, pubKey, sig, pushKey, w₁, w₂, _, _, hsign, hpush, hrest⟩ :=
    redeemTransaction_eq_ok h
  rw [if_neg hcfos] at hrest
  cases hrest
  have hsigned := signedAsBroadcast_of_signContract rfl hsign hpush
    (CScript.pushVec (parseHex secret) ++ [opTrue])
  rwa [← List.append_assoc] at hsigned

theorem refund_signed
    (h : refundTransaction ssl contract txid address conf env w = (.ok tx, w')) :
    SignedAsBroadcast ssl conf env w' (parseHex contract)
      (extractAtomicSwapData (parseHex contract)).refundPubKeyHash [opFalse] tx := by
  obtain ⟨outIndex, amount, keyID, key, pubKey, sig, pushKey, w₁, _, _, hsign, hpush, rfl⟩ :=
    refundTransaction_eq_ok h
  exact signedAsBroadcast_of_signContract rfl hsign hpush [opFalse]

end

/-- What Redeem broadcasts is what was signed exactly when the coin is not cfos; what
    Refund broadcasts always is. -/
theorem broadcast_signed_iff (ssl : OpenSSL) (conf : RpcConf) (env : Env) (w : World)
    (contract txid : Str) (call : RpcCall) (hmethod : call.method = "sendrawtransaction") :
    (∀ secret redeemAddress : Str,
      call ∈ newCalls w (redeem ssl contract txid secret redeemAddress conf env w).2 →
      ∃ tx w',
        redeemTransaction ssl contract txid secret redeemAddress conf env w = (.ok tx, w') ∧
        call.params = [.string (hexStr tx.serialize)] ∧
        (SignedAsBroadcast ssl conf env w' (parseHex contract)
            (extractAtomicSwapData (parseHex contract)).recipientPubKeyHash
            (CScript.pushVec (parseHex secret) ++ [opTrue]) tx ↔
          conf.type ≠ str "cfos")) ∧
    ∀ refundAddress : Str,
      call ∈ newCalls w (refund ssl contract txid refundAddress conf env w).2 →
      ∃ tx w',
        refundTransaction ssl contract txid refundAddress conf env w = (.ok tx, w') ∧
        call.params = [.string (hexStr tx.serialize)] ∧
        SignedAsBroadcast ssl conf env w' (parseHex contract)
          (extractAtomicSwapData (parseHex contract)).refundPubKeyHash [opFalse] tx := by
  constructor
  · intro secret redeemAddress hcall
    obtain ⟨tx, w', hbuild, rfl⟩ := sends_redeem hcall hmethod
    refine ⟨tx, w', hbuild, rfl, ?_, ?_⟩
    · intro hsigned hcfos
      exact redeem_not_signed_of_cfos hcfos hbuild hsigned
    · intro hcfos
      exact redeem_signed_of_ne_cfos hcfos hbuild
  · intro refundAddress hcall
    obtain ⟨tx, w', hbuild, rfl⟩ := sends_refund hcall hmethod
    exact ⟨tx, w', hbuild, rfl, refund_signed hbuild⟩

/-! ## A contract and its runs -/

/-- The private key `k`. -/
def sampleSecretKey (k : UInt8) : Bytes := List.replicate 31 0 ++ [k]

/-- OpenSSL with the private keys 1 and 2 and their signatures in the sample runs. -/
def sampleSSL : OpenSSL := OpenSSL.ofTables
  [((sampleSecretKey 1, true),
     hexBytes "0279be667ef9dcbbac55a06295ce870b07029bfcdb2dce28d959f2815b16f81798"),
   ((sampleSecretKey 2, true),
     hexBytes "02c6047f9441ed7d6d3045406e95c07cd85c778e4b8cef3ca7abac09b95c709ee5")]
  [((sampleSecretKey 2, hexBytes "1108e40b9ae4858e96f15ce0f71e2136b1ab0be3634c966f8c76c93c67a3b0ba"),
     (0xceddb92137283b76b38015296ce082eaa0ae4d2b842a279874afd22fd8ddd06e,
      0xfac43be6520d0da795dc9ebfc481ef635cd7bf70f6a693db16d8b268dc6acd2f)),
   ((sampleSecretKey 2, hexBytes "f4d275a4f267668c6b1d957e3364a45dc6c4184276f3d0aa6a85e0db8a514738"),
     (0x1c7de2e0e250708af2e69445843ac6e3c3b4d7849b00385043ef6854cc8ae700,
      0x139e89ac660e18edbdb7694694232c9c2fc4235c9eef43f447b735b0423e466a)),
   ((sampleSecretKey 2, hexBytes "e5bbf9d96714196d8808fb7638314c4d1caabe742c6043124e9d62736caca268"),
     (0x5ef29b684fb1846a71412d366d3fce7703ac152d8a3ecfbae43cf296904c787d,
      0xc1186a00ea512c9f4536aa37de01f3ed04248ad2aa267e3fc329e51a74980ee0)),
   ((sampleSecretKey 1, hexBytes "dad0d39b88e22ff3075c8059c50983b31a52498e5dacff383d97fb272a3fb40b"),
     (0x2294d6b235b1749652060c124cac7dac01548babd93610142fbb581b538225a9,
      0xdd8698014d9a814c396407854bcfc1a64508e9134665f2b10253b211d28a2346)),
   ((sampleSecretKey 1, hexBytes "67d4b15477f324b5971f63fcacaabaee9fec452c48535f1424e27a43a14b28f8"),
     (0xbf4b1b47ffe0a42bd93968fa74101d77373e7788e341385b60def3b0cf5022b2,
      0xbcc3999f0d4fd8e7723f4fd9f2d5c9b0d9eea99b3411056540140054c414bc27)),
   ((sampleSecretKey 1, hexBytes "b7f80eb6fa932417d48291fbe2a325ea14340f3ca26b1d9e73642c139f9dc099"),
     (0x9bb4fbdd3dcd2b43541e2820617578b6dc918d2e532e62e238b9b4a902f4f630,
      0x1deedd2c3b737b9878b6ec782a998854c83f1dcec1fb615915865d4d9757e347))]

/-- The key hashes of private keys 1 and 2. -/
def sampleMe : Uint160 := BaseUint.ofBytes 20 (hexBytes "751e76e8199196d454941c45d1b3a323f1433bd6")
def sampleThem : Uint160 :=
  BaseUint.ofBytes 20 (hexBytes "06afd46bcdfd22ef94ac122aa11f241244a37ecc")

/-- The secret behind the contract. -/
def sampleSecret : Bytes := List.replicate 32 0x11

/-- Refund to key 1 from 1515172800 on, redeem with key 2 and the secret. -/
def sampleContract : CScript :=
  atomicSwapContract sampleMe sampleThem 1515172800 (sampleSSL.ripemd160 sampleSecret).bytes

/-- The transaction that funds a contract with one coin, as a node decodes it. -/
def fundingReply (type : String) (contract : CScript) : Json :=
  .object [("vout", .array [.object [("value", .real 1), ("scriptPubKey", .object [
    ("addresses", .array [.string ((contractAddress sampleSSL (str type) contract).toString
      sampleSSL)]),
    ("hex", .string (hexStr (CScript.createPayToScriptHashScript
      (CScript.getID sampleSSL contract)))),
    ("asm", .string [])])]])]

/-- An output of 1 for the fee, paying to key 1. -/
def sampleUnspent : Json :=
  .object [("amount", .real 1), ("txid", .string (List.replicate 64 0x32)),
    ("scriptPubKey", .string (hexStr (payToPubkeyHash sampleMe))),
    ("address", .string (str "1BgGZ9tcN4rm9KBzDn7KprQz87SZ26SAMH"))]

def sampleTxid : Str := List.replicate 64 0x31

/-- The private keys 1 and 2 as a node dumps them. -/
def sampleKeyText1 : Json := .string (str "KwDiBf89QgGbjEhKnhXJuH7LrciVrZi3qYjgd9M7rFU73sVHnoWn")
def sampleKeyText2 : Json := .string (str "KwDiBf89QgGbjEhKnhXJuH7LrciVrZi3qYjgd9M7rFU74NMTptX4")

/-- A node that answers a Redeem of the contract. -/
def sampleRedeemEnv (type : String) : Env := Env.sample (answersOf (
  [.result (.string (str "00")), .result (fundingReply type sampleContract), .result sampleKeyText2] ++
    (if type = "cfos" then [.result (.array [sampleUnspent]), .result sampleKeyText1] else []) ++
    [.result (.string sampleTxid)]))

/-- The Redeem of the contract, up to its transaction. -/
def sampleRedeem (type : String) : Swap CTransaction :=
  redeemTransaction sampleSSL (hexStr sampleContract) sampleTxid (hexStr sampleSecret)
    (str "1cMh228HTCiwS8ZsaakH8A8wze1JR5ZsP") (RpcConf.localNode type)

/-- The calls the Redeem of the contract makes. -/
def sampleRedeemCalls (type : String) : List RpcCall :=
  newCalls World.initial (redeem sampleSSL (hexStr sampleContract) sampleTxid (hexStr sampleSecret)
    (str "1cMh228HTCiwS8ZsaakH8A8wze1JR5ZsP") (RpcConf.localNode type) (sampleRedeemEnv type)
    World.initial).2

private theorem exists_sent_of_any {calls : List RpcCall}
    (h : (calls.any fun call => call.method == "sendrawtransaction") = true) :
    ∃ call ∈ calls, call.method = "sendrawtransaction" := by
  obtain ⟨call, hcall, hmethod⟩ := List.any_eq_true.mp h
  exact ⟨call, hcall, by simpa using hmethod⟩

theorem exists_sent_cfos :
    ∃ call ∈ sampleRedeemCalls "cfos", call.method = "sendrawtransaction" :=
  exists_sent_of_any (by decide +kernel)

theorem exists_sent_bitcoin :
    ∃ call ∈ sampleRedeemCalls "bitcoin", call.method = "sendrawtransaction" :=
  exists_sent_of_any (by decide +kernel)

/-- A Redeem for cfos that broadcasts what was not signed. -/
theorem redeem_cfos_not_signed :
    ∃ call ∈ sampleRedeemCalls "cfos", call.method = "sendrawtransaction" ∧
      ∃ tx w', sampleRedeem "cfos" (sampleRedeemEnv "cfos") World.initial = (.ok tx, w') ∧
        call.params = [.string (hexStr tx.serialize)] ∧
        ¬ SignedAsBroadcast sampleSSL (RpcConf.localNode "cfos") (sampleRedeemEnv "cfos") w'
          (parseHex (hexStr sampleContract))
          (extractAtomicSwapData (parseHex (hexStr sampleContract))).recipientPubKeyHash
          (CScript.pushVec (parseHex (hexStr sampleSecret)) ++ [opTrue]) tx := by
  obtain ⟨call, hcall, hmethod⟩ := exists_sent_cfos
  have hcfos : (RpcConf.localNode "cfos").type = str "cfos" := rfl
  obtain ⟨tx, w', hbuild, rfl⟩ := sends_redeem hcall hmethod
  exact ⟨_, hcall, hmethod, tx, w', hbuild, rfl, redeem_not_signed_of_cfos hcfos hbuild⟩

/-- A Redeem for bitcoin that broadcasts what was signed. -/
theorem redeem_bitcoin_signed :
    ∃ tx w', sampleRedeem "bitcoin" (sampleRedeemEnv "bitcoin") World.initial = (.ok tx, w') ∧
      SignedAsBroadcast sampleSSL (RpcConf.localNode "bitcoin") (sampleRedeemEnv "bitcoin") w'
        (parseHex (hexStr sampleContract))
        (extractAtomicSwapData (parseHex (hexStr sampleContract))).recipientPubKeyHash
        (CScript.pushVec (parseHex (hexStr sampleSecret)) ++ [opTrue]) tx := by
  obtain ⟨call, hcall, hmethod⟩ := exists_sent_bitcoin
  obtain ⟨tx, w', hbuild, _, hsigned⟩ := (broadcast_signed_iff sampleSSL
    (RpcConf.localNode "bitcoin") (sampleRedeemEnv "bitcoin") World.initial (hexStr sampleContract)
    sampleTxid call hmethod).1 _ _ hcall
  exact ⟨tx, w', hbuild, hsigned.mpr (by decide)⟩

/-! ## The lock time of a refund -/

/-- `strtol` reads back the hex text of bytes as a big-endian number. -/
theorem strtol16_hexStr (bs : Bytes) : strtol16 (hexStr bs) = Bytes.ofLE bs.reverse := by
  have hdigits : ∀ c ∈ hexStr bs, (phexdigit c).isSome = true := by
    induction bs with
    | nil => simp [hexStr_nil]
    | cons b bs ih =>
      intro c hc
      rw [hexStr_cons, List.mem_cons, List.mem_cons] at hc
      rcases hc with rfl | rfl | hc
      · rw [(phexdigit_hexmap (shiftRight_four_lt b)).1]
        rfl
      · rw [(phexdigit_hexmap (and_fifteen_lt b)).1]
        rfl
      · exact ih c hc
  -- the loop, from any number already read
  have hloop (acc : Nat) :
      (hexStr bs).foldl (fun acc c => 16 * acc + (uintDigit c).toNat) acc =
        256 ^ bs.length * acc + Bytes.ofLE bs.reverse := by
    clear hdigits
    induction bs generalizing acc with
    | nil => simp [hexStr_nil]
    | cons b bs ih =>
      -- two digits multiply what was read by 256 and add the byte
      have hhi : (uintDigit (hexmap (b >>> 4))).toNat = b.toNat / 16 := by
        rw [uintDigit, (phexdigit_hexmap (shiftRight_four_lt b)).1, Option.getD_some,
          UInt8.toNat_shiftRight, Nat.shiftRight_eq_div_pow]
        rfl
      have hlo : (uintDigit (hexmap (b &&& 15))).toNat = b.toNat % 16 := by
        rw [uintDigit, (phexdigit_hexmap (and_fifteen_lt b)).1, Option.getD_some, UInt8.toNat_and]
        exact Nat.and_two_pow_sub_one_eq_mod b.toNat 4
      rw [hexStr_cons, List.foldl_cons, List.foldl_cons, ih, hhi, hlo, List.reverse_cons,
        Bytes.ofLE_append, List.length_reverse, List.length_cons, Nat.pow_succ]
      have hb : 16 * (16 * acc + b.toNat / 16) + b.toNat % 16 = 256 * acc + b.toNat := by omega
      rw [hb, Bytes.ofLE_cons, Bytes.ofLE_nil]
      ring
  rw [strtol16, List.takeWhile_eq_self_iff.mpr hdigits, hloop, Nat.mul_zero, Nat.zero_add]

/-- Reading four bytes as a big-endian number and swapping them gives the little-endian
    number. -/
theorem htonl_strtol16 {bs : Bytes} (h : bs.length = 4) :
    (htonl (UInt32.ofNat (strtol16 (hexStr bs)))).toNat = Bytes.ofLE bs := by
  have hlt : ∀ xs : Bytes, xs.length = 4 → Bytes.ofLE xs < 2 ^ 32 := by
    intro xs hxs
    have hlt := Bytes.ofLE_lt xs
    rwa [hxs] at hlt
  have hrev : bs.reverse.length = 4 := by rw [List.length_reverse, h]
  have hread : (UInt32.ofNat (strtol16 (hexStr bs))).toNat = Bytes.ofLE bs.reverse := by
    rw [strtol16_hexStr, UInt32.toNat_ofNat', Nat.mod_eq_of_lt (hlt _ hrev)]
  have hback : Bytes.toLE 4 (Bytes.ofLE bs.reverse) = bs.reverse := by
    rw [← hrev, Bytes.toLE_ofLE]
  rw [htonl, hread, hback, List.reverse_reverse, UInt32.toNat_ofNat', Nat.mod_eq_of_lt (hlt _ h)]

/-- Extraction undoes construction. -/
theorem extractAtomicSwapData_contractBytes {secHash them lock me : Bytes}
    (hs : secHash.length = 20) (ht : them.length = 20) (hl : lock.length = 4)
    (hm : me.length = 20) :
    extractAtomicSwapData (contractBytes secHash them lock me) = ⟨secHash, them, me, lock⟩ := by
  -- each slice starts where the parts before it end
  have hslice (pre mid post : Bytes) (i j : Nat) (hi : pre.length = i) (hj : mid.length = j - i) :
      slice (pre ++ (mid ++ post)) i j = mid := by
    rw [slice, List.drop_left' hi, List.take_left' hj]
  rw [extractAtomicSwapData, AtomicSwapData.mk.injEq]
  refine ⟨?_, ?_, ?_, ?_⟩
  · rw [contractBytes]
    simp only [List.append_assoc]
    exact hslice [opIf, opRipemd160, 0x14] secHash _ 3 23 rfl hs
  · have hsplit : contractBytes secHash them lock me =
        ([opIf, opRipemd160, 0x14] ++ secHash ++ [opEqualVerify, opDup, opHash160, 0x14]) ++
          (them ++ ([opElse, 0x04] ++ lock ++
            [opCheckLockTimeVerify, opDrop, opDup, opHash160, 0x14] ++ me ++
            [opEndIf, opEqualVerify, opCheckSig])) := by
      simp [contractBytes]
    rw [hsplit]
    exact hslice _ them _ 27 47 (by simp [hs]) ht
  · have hsplit : contractBytes secHash them lock me =
        ([opIf, opRipemd160, 0x14] ++ secHash ++ [opEqualVerify, opDup, opHash160, 0x14] ++ them ++
          [opElse, 0x04] ++ lock ++ [opCheckLockTimeVerify, opDrop, opDup, opHash160, 0x14]) ++
          (me ++ [opEndIf, opEqualVerify, opCheckSig]) := by
      simp [contractBytes]
    rw [hsplit]
    exact hslice _ me _ 58 78 (by simp [hs, ht, hl]) hm
  · have hsplit : contractBytes secHash them lock me =
        ([opIf, opRipemd160, 0x14] ++ secHash ++ [opEqualVerify, opDup, opHash160, 0x14] ++ them ++
          [opElse, 0x04]) ++
          (lock ++ ([opCheckLockTimeVerify, opDrop, opDup, opHash160, 0x14] ++ me ++
            [opEndIf, opEqualVerify, opCheckSig])) := by
      simp [contractBytes]
    rw [hsplit]
    exact hslice _ lock _ 49 53 (by simp [hs, ht]) hl

/-- From an accepted contract Refund reads back what it was built from, and the
    transaction it builds meets the contract's lock time. -/
theorem refund_meets_lock (ssl : OpenSSL) (me them secHash : Uint160) (lockTime : Int)
    (hlo : 0 ≤ lockTime) (hhi : lockTime < 2 ^ 31)
    (hswap : CScript.isAtomicSwap (atomicSwapContract me them lockTime secHash.bytes) = .ok true) :
    (∃ lock, lock.length = 4 ∧ scriptNum lock = lockTime ∧
      extractAtomicSwapData (atomicSwapContract me them lockTime secHash.bytes) =
        ⟨secHash.bytes, them.bytes, me.bytes, lock⟩) ∧
    ∀ (contract txid refundAddress : Str) (conf : RpcConf) (env : Env) (w w' : World)
      (tx : CTransaction),
      parseHex contract = atomicSwapContract me them lockTime secHash.bytes →
      refundTransaction ssl contract txid refundAddress conf env w = (.ok tx, w') →
      tx.nLockTime.toNat = lockTime ∧
        ∃ input, tx.vin = [input] ∧ input.nSequence ≠ uintMax ∧
          ∀ checkSig, LockTimeReached ⟨checkSig, tx.nLockTime, input.nSequence⟩ lockTime := by
  have h32 : CBigNum.toInt32 lockTime = lockTime := CBigNum.toInt32_eq_self (by omega) hhi
  obtain ⟨_, hrange⟩ := (isAtomicSwap_contract_iff _ _ _ _).mp hswap
  -- accepted, so the lock time takes four bytes, those Refund reads
  obtain ⟨hlen, hpush⟩ :=
    CScript.pushInt64_eq_of_head ((CScript.pushInt64_head_iff lockTime).mpr hrange)
  rw [h32] at hlen hpush
  have hdata : extractAtomicSwapData (atomicSwapContract me them lockTime secHash.bytes) =
      ⟨secHash.bytes, them.bytes, me.bytes, CBigNum.getvch lockTime⟩ := by
    rw [atomicSwapContract_eq secHash.length_bytes hpush]
    exact extractAtomicSwapData_contractBytes secHash.length_bytes them.length_bytes hlen
      me.length_bytes
  constructor
  · refine ⟨CBigNum.getvch lockTime, hlen, ?_, hdata⟩
    exact scriptNum_getvch (by omega)
  · intro contract txid refundAddress conf env w w' tx hcontract hbuild
    obtain ⟨outIndex, amount, keyID, _, _, sig, pushKey, _, _, _, _, _, rfl⟩ :=
      refundTransaction_eq_ok hbuild
    have hlock : (refundUnsigned conf env (parseHex contract) txid outIndex amount
        keyID).nLockTime.toNat = lockTime := by
      rw [refundUnsigned, hcontract, hdata]
      simp only
      rw [htonl_strtol16 hlen]
      exact CBigNum.ofLE_getvch hlo
    -- nSequence leaves the lock time in force
    have hseq : uintMax - 1 ≠ uintMax := by decide
    refine ⟨hlock, _, rfl, hseq, ?_⟩
    intro checkSig
    have hlock' : ((refundUnsigned conf env (parseHex contract) txid outIndex amount
        keyID).setScriptSig (CScript.pushVec sig ++ pushKey ++ [opFalse] ++
          CScript.pushVec (parseHex contract))).nLockTime.toNat = lockTime := hlock
    refine ⟨?_, ?_, hseq⟩
    · simp only [hlock', SameKind]
    · simp only [hlock', Int.le_refl]

/-- A node that answers a Refund of the contract. -/
def sampleRefundEnv : Env := Env.sample (answersOf
  [.result (.string (str "00")), .result (fundingReply "bitcoin" sampleContract), .result sampleKeyText1,
    .result (.string sampleTxid)])

/-- The Refund of the contract, up to its transaction. -/
def sampleRefund : Swap CTransaction :=
  refundTransaction sampleSSL (hexStr sampleContract) sampleTxid
    (str "1BgGZ9tcN4rm9KBzDn7KprQz87SZ26SAMH") (RpcConf.localNode "bitcoin")

/-- A Refund that builds a transaction of the contract's lock time. -/
theorem refund_meets_lock_sample :
    ∃ tx w', sampleRefund sampleRefundEnv World.initial = (.ok tx, w') ∧
      tx.nLockTime.toNat = (1515172800 : Int) := by
  have hreturns : EnvM.returns sampleRefund sampleRefundEnv World.initial = true := by
    decide +kernel
  obtain ⟨tx, w', hrun⟩ := EnvM.exists_of_returns hreturns
  have hswap : CScript.isAtomicSwap sampleContract = .ok true := by decide +kernel
  obtain ⟨_, hmeets⟩ := refund_meets_lock sampleSSL sampleMe sampleThem
    (sampleSSL.ripemd160 sampleSecret) 1515172800 (by decide) (by decide) hswap
  obtain ⟨hlock, _⟩ := hmeets _ _ _ _ _ _ _ _ (parseHex_hexStr sampleContract) hrun
  exact ⟨tx, w', hrun, hlock⟩

end CrossChain
