import CrossChain.Native.Base58
import CrossChain.Native.Hex
import CrossChain.Native.Rpc
import CrossChain.Native.Transaction

/-!
# The swap operations

`Initiate`, `Participate`, `Redeem`, `Refund` and `ExtractSecret` of
atomicswap.cpp.  Code the source repeats in two of them is one definition here.
What is only printed is left out, but an access that can throw while printing
is kept.  Taking an element's address (`&v[0]`, `&v[32]`) reads nothing.

A `double` amount is the decimal it stands for.
-/

namespace CrossChain

/-- `INITIATE_LOCKTIME` and `PARTICIPATE_LOCKTIME`, in seconds. -/
def initiateLocktime : Int := 172800
def participateLocktime : Int := 86400

/-- `CFOS_FEE_SYM`. -/
def cfosFeeSym : Str := str "ABC"

/-- `AtomicSwapData`. -/
structure AtomicSwapData where
  secHash : Bytes
  recipientPubKeyHash : Bytes
  refundPubKeyHash : Bytes
  lockTime : Bytes
  deriving DecidableEq

/-! ## The contract script -/

/-- `AtomicSwapContract`. -/
def atomicSwapContract (meKeyID themKeyID : Uint160) (lockTime : Int) (secHash : Bytes) :
    CScript :=
  -- Normal redeem path
  [opIf] ++
    ([opRipemd160] ++ CScript.pushVec secHash ++ [opEqualVerify] ++ [opDup] ++ [opHash160] ++
      CScript.pushUint themKeyID) ++
  -- Refund path
  [opElse] ++
    (CScript.pushInt64 lockTime ++ [opCheckLockTimeVerify] ++ [opDrop] ++ [opDup] ++
      [opHash160] ++ CScript.pushUint meKeyID) ++
  [opEndIf] ++
  -- Complete the signature check
  [opEqualVerify] ++ [opCheckSig]

/-- The bytes from position `i` up to position `j`. -/
def slice (s : Bytes) (i j : Nat) : Bytes := (s.drop i).take (j - i)

/-- `ExtractAtomicSwapData`. -/
def extractAtomicSwapData (contract : CScript) : AtomicSwapData where
  secHash := slice contract 3 23
  recipientPubKeyHash := slice contract 27 47
  refundPubKeyHash := slice contract 58 78
  lockTime := slice contract 49 53

/-- `OP_DUP OP_HASH160 <keyID> OP_EQUALVERIFY OP_CHECKSIG`. -/
def payToPubkeyHash (keyID : Uint160) : CScript :=
  [opDup, opHash160] ++ CScript.pushUint keyID ++ [opEqualVerify, opCheckSig]

section

variable (ssl : OpenSSL)

/-- The P2SH address of a contract, as every operation computes it. -/
def contractAddress (type : Str) (contract : CScript) : CBitcoinAddress :=
  CBitcoinAddress.set (getPrefixesScriptAddress type) (CScript.getID ssl contract)

/-- The P2PKH address of a key hash found in a contract. -/
def keyHashAddress (type : Str) (keyHash : Bytes) : CBitcoinAddress :=
  CBitcoinAddress.set (getPrefixesPubKeyAddress type) (BaseUint.ofBytes 20 keyHash)

/-! ## Initiate and Participate -/

/-- The parameters `Initiate` and `Participate` share. -/
structure FundParams where
  fromAddress : Str
  themAddress : Str
  feeAddress : Str
  feeChangeAddress : Str
  assetChangeAddress : Str
  cfosType : Str
  refundAddress : Str
  amount : ℚ

/-- `CKeyID id; address.GetKeyID(id, coinType);` with the result of `GetKeyID` ignored:
    the default 0 stays where it is false. -/
def keyIDOrDefault (address : Str) (coinType : Str) : Uint160 :=
  ((CBitcoinAddress.ofString ssl address).getKeyID coinType).getD (BaseUint.zero 20)

/-- The contract script `Initiate` and `Participate` build. -/
def fundedContract (p : FundParams) (coinType : Str) (lockTime : Int) (secHash : Bytes) :
    CScript :=
  atomicSwapContract (keyIDOrDefault ssl p.refundAddress coinType)
    (keyIDOrDefault ssl p.themAddress coinType) lockTime secHash

/-- The RPC method and parameters that fund a contract address. -/
def fundCall (p : FundParams) (conf : RpcConf) (contractAddressStr : Str) : RpcCall :=
  if conf.type = str "cfos" then
    ⟨conf, "sendassettoaddress", [.string p.fromAddress, .string contractAddressStr,
      .real p.amount, .string p.feeAddress, .string p.feeChangeAddress,
      .string p.assetChangeAddress]⟩
  else ⟨conf, "sendtoaddress", [.string contractAddressStr, .real p.amount]⟩

/-- The transaction id in the reply to a funding call. -/
def fundTxid (conf : RpcConf) (reply : Object) : Except Exn Str :=
  if conf.type = str "cfos" then do
    let result ← Object.at' reply "result"
    let result ← result.getObject
    let txid ← Object.at' result "txid"
    txid.getString
  else resultString reply

/-- What `Initiate` and `Participate` do once they have the lock time and the hash. -/
def fundContract (p : FundParams) (conf : RpcConf) (lockTime : Int) (secHash : Bytes) :
    Swap Unit := do
  setResponse "Refund address"
    (.string ((CBitcoinAddress.ofString ssl p.refundAddress).toString ssl))
  -- Build contract script
  let contract := fundedContract ssl p conf.type lockTime secHash
  setResponse "Contract hex" (.string (hexStr contract))
  -- Get contract address
  let contractAddressStr := (contractAddress ssl conf.type contract).toString ssl
  setResponse "Contract address" (.string contractAddressStr)
  -- RPC:sendtoaddress
  let call := fundCall p conf contractAddressStr
  let reply ← callChecked conf call.method call.params
  let txid ← raise (fundTxid conf reply)
  setResponse "txid" (.string txid)

/-- `Initiate`. -/
def initiate (p : FundParams) (conf : RpcConf) : Swap Unit := do
  let env ← EnvM.ask
  -- Generate secret
  let secret := env.rand.bytes
  setResponse "Secret" (.string (hexStr secret))
  -- Get secret RIPEMD160 hash
  let secHash := (ssl.ripemd160 secret).bytes
  setResponse "Secret hash" (.string (hexStr secHash))
  fundContract ssl p conf (env.now + initiateLocktime) secHash

/-- `Participate`. -/
def participate (p : FundParams) (secHash : Str) (conf : RpcConf) : Swap Unit := do
  let env ← EnvM.ask
  fundContract ssl p conf (env.now + participateLocktime) (parseHex secHash)

/-! ## Finding the contract's output -/

/-- The recogniser's verdict on a contract and the data in it. -/
def swapData (contractScript : CScript) : Swap AtomicSwapData := do
  if ← raise (CScript.isAtomicSwap contractScript) then
    pure (extractAtomicSwapData contractScript)
  else atoError (str "Contract is not atomicswap script.")

/-- The transaction `txid` as the node decodes it. -/
def fetchTransaction (conf : RpcConf) (txid : Str) : Swap Object := do
  let rawtxReply ← callChecked conf "getrawtransaction" [.string txid]
  let rawtx ← raise (resultString rawtxReply)
  let txReply ← callChecked conf "decoderawtransaction" [.string rawtx]
  raise (do
    let txResult ← Object.at' txReply "result"
    txResult.getObject)

/-- The loop over `vouts`, from index `i` on: index and value of the first output that
    pays to the contract's address. -/
def contractOut (contractAddress : CBitcoinAddress) : Nat → List Json →
    Except Exn (Option (Nat × ℚ))
  | _, [] => .ok none
  | i, vout :: vouts => do
    let out ← vout.getObject
    let scriptPubKey ← Object.at' out "scriptPubKey"
    let value ← Object.at' out "value"
    let value ← value.getReal
    let scriptPubKey ← scriptPubKey.getObject
    let addressV ← Object.at' scriptPubKey "addresses"
    let scriptHex ← Object.at' scriptPubKey "hex"
    let scriptHex ← scriptHex.getString
    let addressArray ← addressV.getArray
    match addressArray with
    | [addressStr] => do
      let addressStr ← addressStr.getString
      let address := CBitcoinAddress.ofString ssl addressStr
      if CScript.isPayToScriptHash (parseHex scriptHex) && address.equals contractAddress then do
        -- printed with the index
        let asm ← Object.at' scriptPubKey "asm"
        let _ ← asm.getString
        return some (i, value)
      else contractOut contractAddress (i + 1) vouts
    | _ => contractOut contractAddress (i + 1) vouts

/-- The index and value of the contract's output in the transaction `txid`. -/
def findContractOut (conf : RpcConf) (contractScript : CScript) (txid : Str) :
    Swap (Nat × ℚ) := do
  let txResult ← fetchTransaction conf txid
  let out ← raise (do
    let vouts ← Object.at' txResult "vout"
    let vouts ← vouts.getArray
    contractOut ssl (contractAddress ssl conf.type contractScript) 0 vouts)
  orFail out "Can not find P2SH out when redeem."

/-! ## Redeem and Refund -/

/-- A `double` to an `int64_t`: truncation toward zero. -/
def truncToInt64 (q : ℚ) : Int64 := Int64.ofInt (q.num.tdiv q.den)

/-- The value `Redeem` assigns to the redeem address's output. -/
def redeemValue (coinType : Str) (amount : ℚ) : Int64 :=
  let fee :=
    if coinType = str "bitcoin" then bitcoinMinTxFee
    else if coinType = str "blackcoin" then blackcoinMinTxFee
    else 0
  if coinType = str "cfos" then truncToInt64 (amount * cfosCoin)
  else truncToInt64 (amount * coin - fee)

/-- The value `Refund` assigns to the refund address's output.  Its `fee` has no
    initial value: `unsetFee` is what it then holds. -/
def refundValue (unsetFee : Int) (coinType : Str) (amount : ℚ) : Int64 :=
  let fee :=
    if coinType = str "bitcoin" then bitcoinMinTxFee
    else if coinType = str "blackcoin" then blackcoinMinTxFee
    else unsetFee
  truncToInt64 (amount * coin - fee)

/-- `strtol(s, NULL, 16)` of a run of hex digits. -/
def strtol16 (s : Str) : Nat :=
  (s.takeWhile fun c => (phexdigit c).isSome).foldl
    (fun acc c => 16 * acc + (uintDigit c).toNat) 0

/-- `htonl` on a little-endian host. -/
def htonl (x : UInt32) : UInt32 :=
  UInt32.ofNat (Bytes.ofLE (Bytes.toLE 4 x.toNat).reverse)

/-- The private key `dumpprivkey` returns for an address. -/
def dumpPrivKey (conf : RpcConf) (address : Str) : Swap Str := do
  let dumpReply ← callChecked conf "dumpprivkey" [.string address]
  raise (resultString dumpReply)

/-- Key, public key and signature for input 0, which spends the contract, by the key of
    `keyHash`. -/
def signContract (conf : RpcConf) (contractScript : CScript) (keyHash : Bytes)
    (tx : CTransaction) : Swap (CKey × Bytes × Bytes) := do
  let prikeyStr ← dumpPrivKey conf ((keyHashAddress conf.type keyHash).toString ssl)
  let signHash := signatureHash ssl contractScript tx 0 sighashAll
  let vchSecret ← orFail (CBitcoinSecret.setString ssl prikeyStr conf.type)
    "Set recipient private key error when redeem."
  let key := vchSecret.getKey
  let pubKey ← raise (key.getPubKey ssl)
  let sig ← orFail (key.sign ssl signHash sighashAll.toUInt8) "Sign error when redeem."
  return (key, pubKey, sig)

/-- `vin[0].scriptSig = scriptSig`. -/
def CTransaction.setScriptSig (tx : CTransaction) (scriptSig : CScript) : CTransaction :=
  { tx with vin := tx.vin.modify 0 fun i => { i with scriptSig := scriptSig } }

/-- The unsigned transaction: one output, one input that spends output `outIndex` of
    `txid`. -/
def spendContract (conf : RpcConf) (now : Int) (txid : Str) (outIndex : Nat) (nValue : Int64)
    (keyID : Uint160) : CTransaction :=
  { CTransaction.new conf.type now with
    vout := [⟨nValue, payToPubkeyHash keyID, conf.type⟩]
    vin := [⟨⟨BaseUint.setHex 32 txid, UInt32.ofNat outIndex⟩, [], uintMax - 1⟩] }

/-- The loop over `unspents`: index and entry of the first that covers the threshold,
    which is an integer division. -/
def feeUnspent : Nat → List Json → Except Exn (Option (Nat × Json))
  | _, [] => .ok none
  | i, unspent :: unspents => do
    let entry ← unspent.getObject
    let amount ← Object.at' entry "amount"
    let amount ← amount.getReal
    if amount ≥ (blackcoinMinTxFee / coin : Int) then return some (i, unspent)
    else feeUnspent (i + 1) unspents

/-- The fields `Redeem` reads of the fee entry. -/
structure FeeEntry where
  txid : Str
  scriptPubKey : Str
  address : Str
  amount : ℚ

/-- Reading them, in the order of the source up to the address test. -/
def readFeeEntry (unspent : Json) : Except Exn FeeEntry := do
  let entry ← unspent.getObject
  let txid ← Object.at' entry "txid"
  let txid ← txid.getString
  let scriptPubKey ← Object.at' entry "scriptPubKey"
  let scriptPubKey ← scriptPubKey.getString
  let address ← Object.at' entry "address"
  let address ← address.getString
  let amount ← Object.at' entry "amount"
  let amount ← amount.getReal
  return ⟨txid, scriptPubKey, address, amount⟩

/-- The cfos branch of `Redeem`: a second input and output for the fee coin, after the
    contract's input was signed.  The signature for the new input is made with the
    recipient's key and goes into `vin[0]`. -/
def addFeeInput (conf : RpcConf) (redeemKeyID : Uint160) (recipientKey : CKey)
    (tx : CTransaction) : Swap CTransaction := do
  let feeReply ← callRPC conf "listunspent" [.string cfosFeeSym]
  let found ← raise (do
    let unspents ← Object.at' feeReply "result"
    let unspents ← unspents.getArray
    feeUnspent 0 unspents)
  let (feeIndex, unspent) ← orFail found "Not enough Fee."
  let entry ← raise (readFeeEntry unspent)
  let _ ← orFail ((CBitcoinAddress.ofString ssl entry.address).getKeyID conf.type)
    "Get redeem key error when redeem."
  let tx := { tx with
    vout := tx.vout ++ [⟨truncToInt64 (entry.amount * cfosCoin - blackcoinMinTxFee),
      payToPubkeyHash redeemKeyID, conf.type⟩]
    vin := tx.vin ++ [⟨⟨BaseUint.setHex 32 entry.txid, UInt32.ofNat feeIndex⟩, [],
      uintMax - 1⟩] }
  -- Get fee address private key
  let feePrikeyStr ← dumpPrivKey conf entry.address
  let signHash := signatureHash ssl (parseHex entry.scriptPubKey) tx 1 sighashAll
  let _ ← orFail (CBitcoinSecret.setString ssl feePrikeyStr conf.type)
    "Set fee private key error when redeem."
  let _ ← raise (recipientKey.getPubKey ssl)
  let sig ← orFail (recipientKey.sign ssl signHash sighashAll.toUInt8)
    "Sign error when redeem."
  return tx.setScriptSig (CScript.pushVec sig)

/-- `Redeem` up to the transaction it broadcasts. -/
def redeemTransaction (contract txid secret redeemAddress : Str) (conf : RpcConf) :
    Swap CTransaction := do
  let env ← EnvM.ask
  let contractVec := parseHex contract
  let secretVec := parseHex secret
  let data ← swapData contractVec
  let (outIndex, amount) ← findContractOut ssl conf contractVec txid
  -- Create redeem transaction
  let redeemKeyID ← orFail ((CBitcoinAddress.ofString ssl redeemAddress).getKeyID conf.type)
    "Get redeem key error when redeem."
  let tx := spendContract conf env.now txid outIndex (redeemValue conf.type amount) redeemKeyID
  -- Sign the hash use recipient private key
  let (recipientKey, recipientPubKey, sig) ←
    signContract ssl conf contractVec data.recipientPubKeyHash tx
  let pushKey ← raise (CScript.pushPubKey recipientPubKey)
  let tx := tx.setScriptSig (CScript.pushVec sig ++ pushKey ++ CScript.pushVec secretVec ++
    [opTrue] ++ CScript.pushVec contractVec)
  if conf.type = str "cfos" then addFeeInput ssl conf redeemKeyID recipientKey tx
  else pure tx

/-- `Refund` up to the transaction it broadcasts. -/
def refundTransaction (contract txid refundAddress : Str) (conf : RpcConf) :
    Swap CTransaction := do
  let env ← EnvM.ask
  let contractVec := parseHex contract
  let data ← swapData contractVec
  let (outIndex, amount) ← findContractOut ssl conf contractVec txid
  -- Create redeem transaction
  let refundKeyID ← orFail ((CBitcoinAddress.ofString ssl refundAddress).getKeyID conf.type)
    "Get redeem key error when redeem."
  let tx := spendContract conf env.now txid outIndex
    (refundValue env.unsetFee conf.type amount) refundKeyID
  let tx := { tx with
    nLockTime := htonl (UInt32.ofNat (strtol16 (hexStr data.lockTime))) }
  -- Sign the hash use recipient private key
  let (_, recipientPubKey, sig) ← signContract ssl conf contractVec data.refundPubKeyHash tx
  let pushKey ← raise (CScript.pushPubKey recipientPubKey)
  return tx.setScriptSig (CScript.pushVec sig ++ pushKey ++ [opFalse] ++
    CScript.pushVec contractVec)

/-- `sendrawtransaction` and what follows it. -/
def broadcast (conf : RpcConf) (tx : CTransaction) : Swap Unit := do
  let sendReply ← callChecked conf "sendrawtransaction" [.string (hexStr tx.serialize)]
  let txid ← raise (resultString sendReply)
  setResponse "txid" (.string txid)

/-- `Redeem`. -/
def redeem (contract txid secret redeemAddress : Str) (conf : RpcConf) : Swap Unit := do
  let tx ← redeemTransaction ssl contract txid secret redeemAddress conf
  broadcast conf tx

/-- `Refund`. -/
def refund (contract txid refundAddress : Str) (conf : RpcConf) : Swap Unit := do
  let tx ← refundTransaction ssl contract txid refundAddress conf
  broadcast conf tx

/-! ## ExtractSecret -/

/-- The `n` bytes read from a buffer that holds `v`, past its end where `v` is shorter. -/
def readBuffer (heap : Nat → UInt8) (v : Bytes) (n : Nat) : Bytes :=
  (v ++ (List.range n).map heap).take n

/-- The bytes `ExtractSecret` hashes: `RIPEMD160(buffer, 32, secHash)`. -/
def hashedSecret (env : Env) (secret : Bytes) : Bytes :=
  readBuffer env.heap secret 32

/-- `ExtractSecret`. -/
def extractSecret (txid secHashStr : Str) (conf : RpcConf) : Swap Unit := do
  let env ← EnvM.ask
  let txResult ← fetchTransaction conf txid
  let vins ← raise (do
    let vins ← Object.at' txResult "vin"
    vins.getArray)
  match vins with
  | [vin] => do
    let sigAsm ← raise (do
      let vin ← vin.getObject
      let scriptSig ← Object.at' vin "scriptSig"
      let scriptSig ← scriptSig.getObject
      let asm ← Object.at' scriptSig "asm"
      asm.getString)
    let vSigs := sigAsm.splitOn 0x20
    let secStrTmp ← raise (match vSigs[2]? with
      | some s => .ok s
      | none => .error .badIndex)
    -- Check secret hash
    let secHashVec := (ssl.ripemd160 (hashedSecret env (parseHex secStrTmp))).bytes
    if hexStr secHashVec = secHashStr then setResponse "secret" (.string secStrTmp)
    else atoError (str "Secret hash not equal.")
  | _ => atoError (str "The transaction vin only allow one input.")

end

end CrossChain
