import CrossChain.Spec.ScriptReading
import CrossChain.Spec.Spending

/-!
# Extracting the secret

A node renders a script as text (`asm`), `ExtractSecret` splits that text again
and takes the third word.  For a redeem script that word is the hex text of the
preimage (`asm_redeemScript`); the digest is always taken over 32 bytes
(`extract_preimage_iff`), and a transaction of two inputs is refused
(`redeemed_extracted_iff`).
-/

namespace CrossChain

/-! ## How a node renders a transaction -/

/-- One instruction as text.  A push of more than 4 bytes is rendered in hex; `small`
    renders everything else. -/
def asmWord (small : UInt8 × Bytes → Str) (i : UInt8 × Bytes) : Str :=
  if 4 < i.2.length then hexStr i.2 else small i

/-- A script as text: its instructions, separated by single spaces. -/
def asm (small : UInt8 × Bytes → Str) (script : CScript) : Str :=
  List.intercalate [0x20] ((CScript.instrs script).1.map (asmWord small))

/-- The node lists the input with the text of its script. -/
def RendersInput (small : UInt8 × Bytes → Str) (input : CTxIn) (v : Json) : Prop :=
  ∃ members scriptSig, v = .object members ∧
    members.lookup "scriptSig" = some (.object scriptSig) ∧
    scriptSig.lookup "asm" = some (.string (asm small input.scriptSig))

/-- The node answers call `n` with the raw transaction and call `n + 1` with the decoded
    one, its inputs listed in order. -/
structure NodeDecodes (small : UInt8 × Bytes → Str) (env : Env) (n : Nat) (tx : CTransaction) :
    Prop where
  raw : ∃ reply, env.answers n = .reply (.object reply) ∧ reply.lookup "error" = some .null ∧
    reply.lookup "result" = some (.string (hexStr tx.serialize))
  decoded : ∃ reply members vins, env.answers (n + 1) = .reply (.object reply) ∧
    reply.lookup "error" = some .null ∧ reply.lookup "result" = some (.object members) ∧
    members.lookup "vin" = some (.array vins) ∧ List.Forall₂ (RendersInput small) tx.vin vins

/-- The json a node makes of an input. -/
def renderInput (small : UInt8 × Bytes → Str) (input : CTxIn) : Json :=
  .object [("scriptSig", .object [("asm", .string (asm small input.scriptSig))])]

/-- A node that knows this transaction. -/
def Env.decoding (small : UInt8 × Bytes → Str) (tx : CTransaction) : Env :=
  Env.sample (answersOf [.result (.string (hexStr tx.serialize)),
    .result (.object [("vin", .array (tx.vin.map (renderInput small)))])])

theorem nodeDecodes_decoding (small : UInt8 × Bytes → Str) (tx : CTransaction) :
    NodeDecodes small (Env.decoding small tx) 0 tx := by
  constructor
  · exact ⟨_, rfl, rfl, rfl⟩
  · refine ⟨_, _, _, rfl, rfl, rfl, rfl, ?_⟩
    rw [List.forall₂_map_right_iff, List.forall₂_same]
    intro input _
    exact ⟨_, _, rfl, rfl, rfl⟩

/-! ## The words of a redeem script -/

theorem space_not_mem_hexStr (bs : Bytes) : (0x20 : UInt8) ∉ hexStr bs := by
  intro hmem
  have hspace : isspace 0x20 = false :=
    forall_mem_hexStr (P := fun c => isspace c = false) (fun _ hn => (phexdigit_hexmap hn).2.1) bs
      0x20 hmem
  cases hspace

/-- Splitting the text of a script at the spaces gives its words back. -/
theorem splitOn_asm {small : UInt8 × Bytes → Str} (hsmall : ∀ i, (0x20 : UInt8) ∉ small i)
    {script : CScript} (h : (CScript.instrs script).1 ≠ []) :
    (asm small script).splitOn 0x20 = (CScript.instrs script).1.map (asmWord small) := by
  -- no word has a space in it
  have hwords : ∀ word ∈ (CScript.instrs script).1.map (asmWord small), (0x20 : UInt8) ∉ word := by
    intro word hword
    obtain ⟨i, _, rfl⟩ := List.mem_map.mp hword
    unfold asmWord
    split
    · exact space_not_mem_hexStr _
    · exact hsmall i
  exact List.splitOn_intercalate 0x20 hwords (by simpa using h)

/-- The third word of a script that pushes `p` third. -/
theorem asm_third {small : UInt8 × Bytes → Str} (hsmall : ∀ i, (0x20 : UInt8) ∉ small i)
    {script : CScript} {i₁ i₂ : UInt8 × Bytes} {op : UInt8} {p : Bytes}
    {is : List (UInt8 × Bytes)} (hp : 5 ≤ p.length)
    (hscript : (CScript.instrs script).1 = i₁ :: i₂ :: (op, p) :: is) :
    ((asm small script).splitOn 0x20)[2]? = some (hexStr p) := by
  have hlong : 4 < p.length := hp
  rw [splitOn_asm hsmall (by rw [hscript]; exact List.cons_ne_nil _ _), hscript]
  simp [asmWord, hlong]

/-- The script of the redeem path is read as its four pushes and OP_TRUE. -/
theorem instrs_redeemScript {sig pubKey p contract : Bytes}
    (h : (CScript.pushVec sig ++ CScript.pushVec pubKey ++ CScript.pushVec p ++ [opTrue] ++
      CScript.pushVec contract).length < 2 ^ 32) :
    ∃ o₁ o₂ o₃ o₅, CScript.instrs (CScript.pushVec sig ++ CScript.pushVec pubKey ++
        CScript.pushVec p ++ [opTrue] ++ CScript.pushVec contract) =
      ([(o₁, sig), (o₂, pubKey), (o₃, p), (opTrue, []), (o₅, contract)], []) := by
  have hshape : CScript.pushVec sig ++ CScript.pushVec pubKey ++ CScript.pushVec p ++ [opTrue] ++
      CScript.pushVec contract =
      [sig, pubKey, p].flatMap CScript.pushVec ++ (opTrue :: ([contract].flatMap CScript.pushVec ++
        [])) := by
    simp
  rw [hshape] at h ⊢
  -- three pushes, OP_TRUE and the push of the contract
  obtain ⟨pushes, hpushes, _, hread⟩ := CScript.instrs_pushVecs [sig, pubKey, p] h
  have hlen : ([contract].flatMap CScript.pushVec ++ []).length < 2 ^ 32 := by
    rw [List.length_append, List.length_cons] at h
    omega
  obtain ⟨last, hlast, _, hcontract⟩ := CScript.instrs_pushVecs [contract] hlen
  have htrue : CScript.getOp (opTrue :: ([contract].flatMap CScript.pushVec ++ [])) =
      (some (opTrue, []), [contract].flatMap CScript.pushVec ++ []) :=
    CScript.getOp_opcode (by decide) _
  rw [hread, CScript.instrs_of_getOp htrue, hcontract]
  simp only [List.map_eq_cons_iff, List.map_eq_nil_iff] at hpushes hlast
  obtain ⟨⟨o₁, _⟩, _, rfl, rfl, ⟨o₂, _⟩, _, rfl, rfl, ⟨o₃, _⟩, _, rfl, rfl, rfl⟩ := hpushes
  obtain ⟨⟨o₅, _⟩, _, rfl, rfl, rfl⟩ := hlast
  exact ⟨o₁, o₂, o₃, o₅, rfl⟩

/-! ## Runs of ExtractSecret -/

section

variable (ssl : OpenSSL) {small : UInt8 × Bytes → Str} {env : Env} {w : World}
  {tx : CTransaction} (conf : RpcConf) (txid secHashStr : Str)

/-- The inputs of a decoded transaction, as `ExtractSecret` fetches them. -/
theorem fetchTransaction_of_decodes (h : NodeDecodes small env w.calls.length tx) :
    ∃ members vins w₁, fetchTransaction conf txid env w = (.ok members, w₁) ∧
      w₁.response = w.response ∧ members.lookup "vin" = some (.array vins) ∧
      List.Forall₂ (RendersInput small) tx.vin vins := by
  obtain ⟨rawtxReply, hraw, herror, hresult⟩ := h.raw
  obtain ⟨txReply, members, vins, htx, herror', hdecoded, hvins, hrendered⟩ := h.decoded
  have hstring : resultString rawtxReply = .ok (hexStr tx.serialize) := by
    rw [resultString, Object.at', hresult]
    rfl
  exact ⟨members, vins, _, fetchTransaction_eq_ok_iff.mpr
    ⟨rawtxReply, _, txReply, hraw, herror, hstring, htx, herror', hdecoded, rfl⟩, rfl, hvins,
    hrendered⟩

/-- On one input the third word of its script decides: its digest is compared. -/
theorem extractSecret_single (h : NodeDecodes small env w.calls.length tx) {input : CTxIn}
    (hvin : tx.vin = [input]) {word : Str}
    (hword : ((asm small input.scriptSig).splitOn 0x20)[2]? = some word) :
    ∃ w₁, w₁.response = w.response ∧
      extractSecret ssl txid secHashStr conf env w =
        (if hexStr (ssl.ripemd160 (hashedSecret env (parseHex word))).bytes = secHashStr then
          setResponse "secret" (.string word)
        else atoError (str "Secret hash not equal.")) env w₁ := by
  obtain ⟨members, vins, w₁, hfetch, hresponse, hvins, hrendered⟩ :=
    fetchTransaction_of_decodes conf txid h
  rw [hvin] at hrendered
  obtain ⟨v, _, ⟨input', scriptSig, rfl, hscriptSig, hasm⟩, hnil, rfl⟩ :=
    List.forall₂_cons_left_iff.mp hrendered
  -- one input is rendered as a list of one
  obtain rfl := List.forall₂_nil_left_iff.mp hnil
  refine ⟨w₁, hresponse, ?_⟩
  have harray : (do let vins ← Object.at' members "vin"; vins.getArray) =
      .ok [.object input'] := by
    rw [Object.at', hvins]
    rfl
  have htext : (do
      let vin ← (Json.object input').getObject
      let scriptSig ← Object.at' vin "scriptSig"
      let scriptSig ← scriptSig.getObject
      let asm ← Object.at' scriptSig "asm"
      asm.getString) = .ok (asm small input.scriptSig) := by
    simp [bind, Except.bind, Json.getObject, Object.at', hscriptSig, hasm, Json.getString]
  rw [extractSecret, EnvM.bind_run_of_ok (EnvM.ask_run _ _), EnvM.bind_run_of_ok hfetch,
    EnvM.bind_run_of_ok (raise_eq_ok_iff.mpr ⟨harray, rfl⟩)]
  dsimp only
  rw [EnvM.bind_run_of_ok (raise_eq_ok_iff.mpr ⟨htext, rfl⟩)]
  simp only [hword]
  rfl

/-- On any other number of inputs it gives up. -/
theorem extractSecret_not_single (h : NodeDecodes small env w.calls.length tx)
    (hvin : tx.vin.length ≠ 1) :
    ∃ w₁, extractSecret ssl txid secHashStr conf env w =
      (.error (.failed (str "The transaction vin only allow one input.")), w₁) := by
  obtain ⟨members, vins, w₁, hfetch, _, hvins, hrendered⟩ :=
    fetchTransaction_of_decodes conf txid h
  rw [hrendered.length_eq] at hvin
  refine ⟨w₁, ?_⟩
  have harray : (do let vins ← Object.at' members "vin"; vins.getArray) = .ok vins := by
    rw [Object.at', hvins]
    rfl
  rw [extractSecret, EnvM.bind_run_of_ok (EnvM.ask_run _ _), EnvM.bind_run_of_ok hfetch,
    EnvM.bind_run_of_ok (raise_eq_ok_iff.mpr ⟨harray, rfl⟩)]
  cases vins with
  | nil => rfl
  | cons v vs =>
    cases vs with
    | nil => exact absurd rfl hvin
    | cons v' vs => rfl

end

/-! ## Extraction and its digest -/

/-- `ExtractSecret`, given the hash of `p` as text, returns the text of `p`. -/
def Extracts (ssl : OpenSSL) (conf : RpcConf) (env : Env) (w : World) (txid : Str) (p : Bytes) :
    Prop :=
  ∃ w' text,
    extractSecret ssl txid (hexStr (ssl.ripemd160 p).bytes) conf env w = (.ok (), w') ∧
    w'.response.lookup "secret" = some (.string text) ∧ text = hexStr p ∧ parseHex text = p

/-- 32 bytes are hashed, however many there are. -/
theorem hashedSecret_eq_self_iff (env : Env) (p : Bytes) :
    hashedSecret env p = p ↔ p.length = 32 := by
  constructor
  · intro h
    have hlen : (hashedSecret env p).length = 32 := by
      rw [hashedSecret, readBuffer, List.length_take, List.length_append, List.length_map,
        List.length_range]
      omega
    rwa [h] at hlen
  · intro h
    rw [hashedSecret, readBuffer, List.take_left' h]

section

variable (ssl : OpenSSL) {small : UInt8 × Bytes → Str} {env : Env} {w : World}
  {tx : CTransaction} (conf : RpcConf) (txid : Str)

/-- On one input whose script pushes `p` third, extraction succeeds exactly when the
    digest of the bytes hashed is that of `p`. -/
theorem extracts_single_iff (hsmall : ∀ i, (0x20 : UInt8) ∉ small i)
    (h : NodeDecodes small env w.calls.length tx) {input : CTxIn} (hvin : tx.vin = [input])
    {i₁ i₂ : UInt8 × Bytes} {op : UInt8} {p : Bytes} {is : List (UInt8 × Bytes)}
    (hp : 5 ≤ p.length)
    (hscript : (CScript.instrs input.scriptSig).1 = i₁ :: i₂ :: (op, p) :: is) :
    Extracts ssl conf env w txid p ↔ ssl.ripemd160 (hashedSecret env p) = ssl.ripemd160 p := by
  obtain ⟨w₁, _, hrun⟩ := extractSecret_single ssl conf txid (hexStr (ssl.ripemd160 p).bytes) h
    hvin (asm_third hsmall hp hscript)
  rw [parseHex_hexStr] at hrun
  rw [Extracts, hrun]
  constructor
  · intro hgiven
    obtain ⟨w', text, h, _⟩ := hgiven
    split at h
    · -- equal texts come from equal digests
      rename_i heq
      exact BaseUint.ext (hexStr_injective heq)
    · exact absurd h atoError_ne_ok
  · intro heq
    rw [if_pos (by rw [heq])]
    exact ⟨_, hexStr p, rfl, Object.lookup_set_self _ _ _, rfl, parseHex_hexStr p⟩

/-- Two inputs are refused. -/
theorem not_extracts_of_not_single (h : NodeDecodes small env w.calls.length tx)
    (hvin : tx.vin.length ≠ 1) (p : Bytes) : ¬ Extracts ssl conf env w txid p := by
  intro hgiven
  obtain ⟨w', text, hrun, _⟩ := hgiven
  obtain ⟨w₁, hfail⟩ :=
    extractSecret_not_single ssl conf txid (hexStr (ssl.ripemd160 p).bytes) h hvin
  rw [hfail] at hrun
  cases hrun

end

/-- A preimage pushed third is extracted, by hashing exactly its bytes, when it has 32
    bytes and only then. -/
theorem extract_preimage_iff (ssl : OpenSSL) (small : UInt8 × Bytes → Str)
    (hsmall : ∀ i, (0x20 : UInt8) ∉ small i) (p : Bytes) (hp : 5 ≤ p.length)
    (sig pubKey contract : Bytes) (o₁ o₂ o₃ o₅ : UInt8) (tx : CTransaction) (input : CTxIn)
    (hvin : tx.vin = [input])
    (hscript : CScript.instrs input.scriptSig =
      ([(o₁, sig), (o₂, pubKey), (o₃, p), (opTrue, []), (o₅, contract)], []))
    (env : Env) (w : World) (hnode : NodeDecodes small env w.calls.length tx) (conf : RpcConf)
    (txid : Str) :
    (Extracts ssl conf env w txid p ∧ hashedSecret env p = p) ↔ p.length = 32 := by
  have hextracts := extracts_single_iff ssl conf txid hsmall hnode hvin hp
    (congrArg Prod.fst hscript)
  rw [hextracts, hashedSecret_eq_self_iff]
  constructor
  · intro h
    obtain ⟨_, hlen⟩ := h
    exact hlen
  · intro hlen
    refine ⟨?_, hlen⟩
    rw [(hashedSecret_eq_self_iff env p).mpr hlen]

/-- A node that renders short pushes as nothing. -/
def noSmall (_ : UInt8 × Bytes) : Str := []

theorem space_not_mem_noSmall (i : UInt8 × Bytes) : (0x20 : UInt8) ∉ noSmall i :=
  List.not_mem_nil

/-- A contract with preimage `p`. -/
def samplePreimageContract (p : Bytes) : CScript :=
  atomicSwapContract sampleMe sampleThem 1515172800 (sampleSSL.ripemd160 p).bytes

/-- The script that redeems it with key 2. -/
def samplePreimageScript (sig p : Bytes) : CScript :=
  CScript.pushVec sig ++
    CScript.pushVec
      (hexBytes "02c6047f9441ed7d6d3045406e95c07cd85c778e4b8cef3ca7abac09b95c709ee5") ++
    CScript.pushVec p ++ [opTrue] ++ CScript.pushVec (samplePreimageContract p)

/-- The transaction with that script. -/
def samplePreimageSpend (sig p : Bytes) : CTransaction :=
  (spendContract (RpcConf.localNode "bitcoin") 1515000000 sampleTxid 0 99999000
    sampleThem).setScriptSig (samplePreimageScript sig p)

/-- The signatures for the preimages of 32 and of 33 bytes 0x11. -/
def sampleSig32 : Bytes := hexBytes ("304402205cbdf0646e5db4eaa398f365f2ea7a0e3d419b7e0330e39ce9" ++
  "2bddedcac4f9bc0220755abf4f5ca0025f728d3f79974afcf3645d501ac2c772c0cdc86c287761a01e01")
def sampleSig33 : Bytes := hexBytes ("304402205cbdf0646e5db4eaa398f365f2ea7a0e3d419b7e0330e39ce9" ++
  "2bddedcac4f9bc022013ed992bc5482cb53e4412ee66e3d77e4460ebbb8ee080814e8f2d05f41cb9c801")

theorem length_samplePreimageScript :
    (samplePreimageScript sampleSig32 sampleSecret).length < 2 ^ 32 := by
  decide +kernel

/-- Its single input is read as the redeem path. -/
theorem samplePreimageSpend_reads {sig p : Bytes}
    (h : (samplePreimageScript sig p).length < 2 ^ 32) :
    ∃ input o₁ o₂ pubKey o₃ o₅, (samplePreimageSpend sig p).vin = [input] ∧
      CScript.instrs input.scriptSig = ([(o₁, sig), (o₂, pubKey), (o₃, p), (opTrue, []),
        (o₅, samplePreimageContract p)], []) := by
  obtain ⟨o₁, o₂, o₃, o₅, hscript⟩ := instrs_redeemScript h
  exact ⟨_, o₁, o₂, _, o₃, o₅, rfl, hscript⟩

/-- A preimage of 32 bytes that is extracted. -/
theorem extract_preimage_sample :
    Extracts sampleSSL (RpcConf.localNode "bitcoin")
      (Env.decoding noSmall (samplePreimageSpend sampleSig32 sampleSecret)) World.initial sampleTxid
      sampleSecret := by
  obtain ⟨input, o₁, o₂, pubKey, o₃, o₅, hvin, hscript⟩ :=
    samplePreimageSpend_reads length_samplePreimageScript
  have hiff := extract_preimage_iff sampleSSL noSmall space_not_mem_noSmall sampleSecret
    (by decide) sampleSig32 pubKey _ o₁ o₂ o₃ o₅ _ input hvin hscript
    (Env.decoding noSmall (samplePreimageSpend sampleSig32 sampleSecret)) World.initial
    (nodeDecodes_decoding _ _) (RpcConf.localNode "bitcoin") sampleTxid
  exact (hiff.mpr rfl).1

/-- A preimage of 33 bytes that is not: the digest is that of its first 32. -/
theorem long_preimage_not_extracted :
    ∃ p input o₁ sig o₂ pubKey o₃ o₅, p.length = 33 ∧
      (samplePreimageSpend sampleSig33 p).vin = [input] ∧
      CScript.instrs input.scriptSig = ([(o₁, sig), (o₂, pubKey), (o₃, p), (opTrue, []),
        (o₅, samplePreimageContract p)], []) ∧
      NodeDecodes noSmall (Env.decoding noSmall (samplePreimageSpend sampleSig33 p)) 0
        (samplePreimageSpend sampleSig33 p) ∧
      ¬ Extracts sampleSSL (RpcConf.localNode "bitcoin")
        (Env.decoding noSmall (samplePreimageSpend sampleSig33 p)) World.initial sampleTxid p := by
  have hlen : (samplePreimageScript sampleSig33 (List.replicate 33 0x11)).length < 2 ^ 32 := by
    decide +kernel
  obtain ⟨input, o₁, o₂, pubKey, o₃, o₅, hvin, hscript⟩ := samplePreimageSpend_reads hlen
  have hnode := nodeDecodes_decoding noSmall
    (samplePreimageSpend sampleSig33 (List.replicate 33 0x11))
  refine ⟨_, input, o₁, sampleSig33, o₂, pubKey, o₃, o₅, List.length_replicate, hvin, hscript,
    hnode, ?_⟩
  intro hextracts
  have hiff := extracts_single_iff sampleSSL (RpcConf.localNode "bitcoin") (w := World.initial)
    sampleTxid space_not_mem_noSmall hnode hvin (by decide) (congrArg Prod.fst hscript)
  have hne : sampleSSL.ripemd160 ((List.replicate 33 (0x11 : UInt8)).take 32) ≠
      sampleSSL.ripemd160 (List.replicate 33 0x11) := by
    decide +kernel
  exact hne (hiff.mp hextracts)

/-! ## Extraction from what Redeem broadcasts -/

/-- An accepted contract that was built has 81 bytes. -/
theorem length_atomicSwapContract {me them : Uint160} {lockTime : Int} {secHash : Bytes}
    (h : CScript.isAtomicSwap (atomicSwapContract me them lockTime secHash) = .ok true) :
    (atomicSwapContract me them lockTime secHash).length = 81 := by
  obtain ⟨hlen, hrange⟩ := (isAtomicSwap_contract_iff _ _ _ _).mp h
  obtain ⟨hlock, hpush⟩ :=
    CScript.pushInt64_eq_of_head ((CScript.pushInt64_head_iff lockTime).mpr hrange)
  rw [atomicSwapContract_eq hlen hpush, length_contractBytes, hlen, hlock, them.length_bytes,
    me.length_bytes]

section

variable {ssl : OpenSSL} {conf : RpcConf} {env : Env} {w w' : World}
  {contract txid secret redeemAddress : Str} {tx : CTransaction}

/-- For cfos Redeem builds a transaction of two inputs. -/
theorem redeem_inputs_of_cfos (hcfos : conf.type = str "cfos")
    (h : redeemTransaction ssl contract txid secret redeemAddress conf env w = (.ok tx, w')) :
    tx.vin.length = 2 := by
  obtain ⟨_, _, _, _, _, _, _, _, _, _, _, _, _, hrest⟩ := redeemTransaction_eq_ok h
  rw [if_pos hcfos] at hrest
  obtain ⟨_, _, _, _, _, _, _, _, _, _, _, rfl⟩ := addFeeInput_eq_ok hrest
  simp [CTransaction.setScriptSig, feeTransaction, redeemUnsigned, spendContract]

/-- For any other coin it builds one of one input, whose script pushes the secret third. -/
theorem redeem_input_of_ne_cfos (hcfos : conf.type ≠ str "cfos")
    (h : redeemTransaction ssl contract txid secret redeemAddress conf env w = (.ok tx, w'))
    (hcontract : (parseHex contract).length < 2 ^ 30)
    (hsecret : (parseHex secret).length < 2 ^ 30) :
    ∃ input o₁ sig o₂ pubKey o₃ o₅, tx.vin = [input] ∧
      CScript.instrs input.scriptSig = ([(o₁, sig), (o₂, pubKey), (o₃, parseHex secret),
        (opTrue, []), (o₅, parseHex contract)], []) := by
  obtain ⟨outIndex, amount, keyID, key, pubKey, sig, pushKey, w₁, w₂, _, _, hsign, hpush, hrest⟩ :=
    redeemTransaction_eq_ok h
  rw [if_neg hcfos] at hrest
  cases hrest
  obtain ⟨prikey, vchSecret, _, _, rfl, hpub, hsig⟩ := signContract_eq_ok_iff.mp hsign
  obtain rfl := CScript.pushPubKey_eq_ok hpush
  -- signature and key are short, contract and secret below 2^30
  have hlen : (CScript.pushVec sig ++ CScript.pushVec pubKey ++ CScript.pushVec (parseHex secret) ++
      [opTrue] ++ CScript.pushVec (parseHex contract)).length < 2 ^ 32 := by
    have hsiglen := CKey.length_sign_le ssl hsig
    have hpublen := CKey.length_getPubKey ssl hpub
    have h₁ := (CScript.length_pushVec sig).2
    have h₂ := (CScript.length_pushVec pubKey).2
    have h₃ := (CScript.length_pushVec (parseHex secret)).2
    have h₅ := (CScript.length_pushVec (parseHex contract)).2
    simp only [List.length_append, List.length_singleton]
    omega
  obtain ⟨o₁, o₂, o₃, o₅, hinstrs⟩ := instrs_redeemScript hlen
  exact ⟨_, o₁, sig, o₂, pubKey, o₃, o₅, rfl, hinstrs⟩

end

/-- The secret a Redeem reveals is extracted from what it broadcast exactly when the coin
    is not cfos. -/
theorem redeemed_extracted_iff (ssl : OpenSSL) (conf : RpcConf) (env : Env) (w : World)
    (me them : Uint160) (lockTime : Int) (secret : Bytes) (hsecret : secret.length = 32)
    (contract txid redeemAddress : Str)
    (hcontract : parseHex contract =
      atomicSwapContract me them lockTime (ssl.ripemd160 secret).bytes)
    (call : RpcCall)
    (hcall : call ∈
      newCalls w (redeem ssl contract txid (hexStr secret) redeemAddress conf env w).2)
    (hmethod : call.method = "sendrawtransaction") :
    ∃ tx wb,
      redeemTransaction ssl contract txid (hexStr secret) redeemAddress conf env w =
        (.ok tx, wb) ∧
      call.params = [.string (hexStr tx.serialize)] ∧
      ∀ (small : UInt8 × Bytes → Str) (conf' : RpcConf) (env' : Env) (w' : World) (txid' : Str),
        (∀ i, (0x20 : UInt8) ∉ small i) → NodeDecodes small env' w'.calls.length tx →
        (Extracts ssl conf' env' w' txid' secret ↔ conf.type ≠ str "cfos") := by
  obtain ⟨tx, wb, hbuild, rfl⟩ := sends_redeem hcall hmethod
  refine ⟨tx, wb, hbuild, rfl, ?_⟩
  intro small conf' env' w' txid' hsmall hnode
  constructor
  · intro hextracts hcfos
    have hvin : tx.vin.length ≠ 1 := by
      rw [redeem_inputs_of_cfos hcfos hbuild]
      omega
    exact not_extracts_of_not_single ssl conf' txid' hnode hvin secret hextracts
  · intro hcfos
    have hswap : CScript.isAtomicSwap (parseHex contract) = .ok true := by
      obtain ⟨_, _, _, _, _, _, _, _, _, hswap, _⟩ := redeemTransaction_eq_ok hbuild
      exact hswap
    -- Redeem only spends what the recogniser accepts, so the contract is short
    have hclen : (parseHex contract).length = 81 := by
      rw [hcontract] at hswap ⊢
      exact length_atomicSwapContract hswap
    obtain ⟨input, o₁, sig, o₂, pubKey, o₃, o₅, hvin, hscript⟩ :=
      redeem_input_of_ne_cfos hcfos hbuild (by omega) (by rw [parseHex_hexStr]; omega)
    rw [parseHex_hexStr] at hscript
    have hiff := extracts_single_iff ssl conf' txid' hsmall hnode hvin (by omega)
      (congrArg Prod.fst hscript)
    rw [hiff, (hashedSecret_eq_self_iff env' secret).mpr hsecret]

/-- A Redeem for bitcoin whose secret is extracted. -/
theorem redeemed_extracted_bitcoin :
    ∃ tx w', sampleRedeem "bitcoin" (sampleRedeemEnv "bitcoin") World.initial = (.ok tx, w') ∧
      Extracts sampleSSL (RpcConf.localNode "bitcoin") (Env.decoding noSmall tx) World.initial
        sampleTxid sampleSecret := by
  obtain ⟨call, hcall, hmethod⟩ := exists_sent_bitcoin
  obtain ⟨tx, w', hbuild, _, hiff⟩ := redeemed_extracted_iff sampleSSL (RpcConf.localNode "bitcoin")
    (sampleRedeemEnv "bitcoin") World.initial sampleMe sampleThem 1515172800 sampleSecret rfl
    (hexStr sampleContract) sampleTxid (str "1cMh228HTCiwS8ZsaakH8A8wze1JR5ZsP")
    (parseHex_hexStr _) call hcall hmethod
  have hextracts := hiff noSmall (RpcConf.localNode "bitcoin") (Env.decoding noSmall tx)
    World.initial sampleTxid space_not_mem_noSmall (nodeDecodes_decoding noSmall tx)
  exact ⟨tx, w', hbuild, hextracts.mpr (by decide)⟩

/-- A Redeem for cfos whose secret is not. -/
theorem redeemed_cfos_not_extracted :
    ∃ call ∈ sampleRedeemCalls "cfos", call.method = "sendrawtransaction" ∧
      ∃ tx, call.params = [.string (hexStr tx.serialize)] ∧
        NodeDecodes noSmall (Env.decoding noSmall tx) 0 tx ∧
        ¬ Extracts sampleSSL (RpcConf.localNode "cfos") (Env.decoding noSmall tx) World.initial
          sampleTxid sampleSecret := by
  obtain ⟨call, hcall, hmethod⟩ := exists_sent_cfos
  obtain ⟨tx, w', hbuild, rfl⟩ := sends_redeem hcall hmethod
  have hcfos : (RpcConf.localNode "cfos").type = str "cfos" := rfl
  have hvin : tx.vin.length ≠ 1 := by
    rw [redeem_inputs_of_cfos hcfos hbuild]
    omega
  have hnode := nodeDecodes_decoding noSmall tx
  exact ⟨_, hcall, hmethod, tx, rfl, hnode,
    not_extracts_of_not_single sampleSSL _ sampleTxid hnode hvin sampleSecret⟩

end CrossChain
