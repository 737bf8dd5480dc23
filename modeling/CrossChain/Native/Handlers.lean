import CrossChain.Native.AtomicSwap

/-!
# The request handlers

The seven swap handlers of `AtomRpc`.  They differ in the parameters they read,
the test on them and the operation they call; `handle` is what they share.
-/

namespace CrossChain

/-- A handler: `true` or `false`, or an exception of the code below it. -/
abbrev Handler := EnvM Env World Exn Bool

namespace AtomRpc

/-- `params[key].asString()`. -/
def readString (params : Json) (key : String) : Except Exn Str := do
  let v ← params.index key
  v.asString

/-- `params["amount"].asDouble()`. -/
def readAmount (params : Json) : Except Exn ℚ := do
  let v ← params.index "amount"
  v.asDouble

/-- The coin type and the node's address, which every handler reads last. -/
def readConf (params : Json) : Except Exn RpcConf := do
  let coinType ← readString params "cointype"
  let rpcAddress ← readString params "rpcaddress"
  let rpcPort ← readString params "rpcport"
  let rpcUserName ← readString params "rpcusername"
  let rpcPassword ← readString params "rpcpassword"
  return ⟨coinType, rpcAddress, rpcPort, rpcUserName, rpcPassword⟩

/-- One of the fields of the connection is empty. -/
def confEmpty (conf : RpcConf) : Bool :=
  conf.type.isEmpty || conf.address.isEmpty || conf.port.isEmpty || conf.rpcuser.isEmpty ||
    conf.rpcpassword.isEmpty

/-- `response[key] = v`. -/
def respond (key : String) (v : Json) : EnvM Env World Exn Unit :=
  EnvM.modify (·.respond key v)

/-- The value a swap operation returns: exceptions pass. -/
def returned : Halt → Except Exn Bool
  | .failed _ => .ok false
  | .raised e => .error e

/-- What the handlers share: read the parameters, refuse them if `wrong`, else run the
    operation and report its result. -/
def handle {α : Type} (read : Json → Except Exn α) (wrong : α → Bool) (operation : α → Swap Unit)
    (root : Json) : Handler := do
  let params ← EnvM.ofExcept (root.index "params")
  let args ← EnvM.ofExcept (read params)
  -- the envelope of the reply comes before the test
  respond "jsonrpc" (.string (str "2.0"))
  let id ← EnvM.ofExcept (root.index "id")
  respond "id" id
  if wrong args then do
    respond "result" (.string (str "failed"))
    return false
  else do
    let ok ← EnvM.recover (do operation args; return true) returned
    respond "result" (.string (str (if ok then "success" else "failed")))
    return ok

section

variable (ssl : OpenSSL)

/-! ## AtomInitiate and AtomInitiateCfos -/

/-- The parameters of `AtomInitiate`; those of `Initiate` it passes as "" are empty. -/
def readInitiate (params : Json) : Except Exn (FundParams × RpcConf) := do
  let themAddress ← readString params "themaddress"
  let refundAddress ← readString params "refundaddress"
  let amount ← readAmount params
  let conf ← readConf params
  return (⟨[], themAddress, [], [], [], [], refundAddress, amount⟩, conf)

def wrongInitiate (a : FundParams × RpcConf) : Bool :=
  a.1.themAddress.isEmpty || a.1.refundAddress.isEmpty || decide (a.1.amount < 0) ||
    confEmpty a.2

/-- `AtomInitiate`. -/
def atomInitiate : Json → Handler :=
  handle readInitiate wrongInitiate fun a => initiate ssl a.1 a.2

/-- The parameters of `AtomInitiateCfos`. -/
def readInitiateCfos (params : Json) : Except Exn (FundParams × RpcConf) := do
  let fromAddress ← readString params "fromaddress"
  let themAddress ← readString params "themaddress"
  let feeAddress ← readString params "feeaddress"
  let feeChangeAddress ← readString params "feechangeaddress"
  let assetChangeAddress ← readString params "assetchangeaddress"
  let cfosType ← readString params "cfostype"
  let refundAddress ← readString params "refundaddress"
  let amount ← readAmount params
  let conf ← readConf params
  return (⟨fromAddress, themAddress, feeAddress, feeChangeAddress, assetChangeAddress, cfosType,
    refundAddress, amount⟩, conf)

def wrongInitiateCfos (a : FundParams × RpcConf) : Bool :=
  a.1.fromAddress.isEmpty || a.1.themAddress.isEmpty || a.1.feeAddress.isEmpty ||
    a.1.feeChangeAddress.isEmpty || a.1.assetChangeAddress.isEmpty || a.1.cfosType.isEmpty ||
    a.1.refundAddress.isEmpty || decide (a.1.amount < 0) || confEmpty a.2

/-- `AtomInitiateCfos`. -/
def atomInitiateCfos : Json → Handler :=
  handle readInitiateCfos wrongInitiateCfos fun a => initiate ssl a.1 a.2

/-! ## AtomParticipate and AtomParticipateCfos -/

/-- The parameters of `AtomParticipate`. -/
def readParticipate (params : Json) : Except Exn (FundParams × Str × RpcConf) := do
  let themAddress ← readString params "themaddress"
  let refundAddress ← readString params "refundaddress"
  let amount ← readAmount params
  let secretHash ← readString params "secrethash"
  let conf ← readConf params
  return (⟨[], themAddress, [], [], [], [], refundAddress, amount⟩, secretHash, conf)

def wrongParticipate (a : FundParams × Str × RpcConf) : Bool :=
  a.1.themAddress.isEmpty || a.1.refundAddress.isEmpty || decide (a.1.amount < 0) ||
    a.2.1.isEmpty || confEmpty a.2.2

/-- `AtomParticipate`. -/
def atomParticipate : Json → Handler :=
  handle readParticipate wrongParticipate fun a => participate ssl a.1 a.2.1 a.2.2

/-- The parameters of `AtomParticipateCfos`. -/
def readParticipateCfos (params : Json) : Except Exn (FundParams × Str × RpcConf) := do
  let fromAddress ← readString params "fromaddress"
  let themAddress ← readString params "themaddress"
  let feeAddress ← readString params "feeaddress"
  let feeChangeAddress ← readString params "feechangeaddress"
  let assetChangeAddress ← readString params "assetchangeaddress"
  let cfosType ← readString params "cfostype"
  let refundAddress ← readString params "refundaddress"
  let amount ← readAmount params
  let secretHash ← readString params "secrethash"
  let conf ← readConf params
  return (⟨fromAddress, themAddress, feeAddress, feeChangeAddress, assetChangeAddress, cfosType,
    refundAddress, amount⟩, secretHash, conf)

/-- The first test is on `feeChangeAddress`, which is tested again; `fromAddress` is not. -/
def wrongParticipateCfos (a : FundParams × Str × RpcConf) : Bool :=
  a.1.feeChangeAddress.isEmpty || a.1.themAddress.isEmpty || a.1.feeAddress.isEmpty ||
    a.1.feeChangeAddress.isEmpty || a.1.assetChangeAddress.isEmpty || a.1.cfosType.isEmpty ||
    a.1.refundAddress.isEmpty || decide (a.1.amount < 0) || a.2.1.isEmpty || confEmpty a.2.2

/-- `AtomParticipateCfos`. -/
def atomParticipateCfos : Json → Handler :=
  handle readParticipateCfos wrongParticipateCfos fun a => participate ssl a.1 a.2.1 a.2.2

/-! ## AtomRedeemCoin, AtomRefundCoin and AtomExtractSecret -/

/-- The parameters of `AtomRedeemCoin`. -/
structure RedeemParams where
  contract : Str
  txid : Str
  secret : Str
  redeemAddress : Str
  conf : RpcConf

def readRedeem (params : Json) : Except Exn RedeemParams := do
  let contract ← readString params "contract"
  let txid ← readString params "txid"
  let secret ← readString params "secret"
  let redeemAddress ← readString params "redeemaddress"
  let conf ← readConf params
  return ⟨contract, txid, secret, redeemAddress, conf⟩

def wrongRedeem (a : RedeemParams) : Bool :=
  a.contract.isEmpty || a.txid.isEmpty || a.secret.isEmpty || a.redeemAddress.isEmpty ||
    confEmpty a.conf

/-- `AtomRedeemCoin`. -/
def atomRedeemCoin : Json → Handler :=
  handle readRedeem wrongRedeem fun a =>
    redeem ssl a.contract a.txid a.secret a.redeemAddress a.conf

/-- The parameters of `AtomRefundCoin`. -/
structure RefundParams where
  contract : Str
  txid : Str
  refundAddress : Str
  conf : RpcConf

def readRefund (params : Json) : Except Exn RefundParams := do
  let contract ← readString params "contract"
  let txid ← readString params "txid"
  let refundAddress ← readString params "refundaddress"
  let conf ← readConf params
  return ⟨contract, txid, refundAddress, conf⟩

def wrongRefund (a : RefundParams) : Bool :=
  a.contract.isEmpty || a.txid.isEmpty || a.refundAddress.isEmpty || confEmpty a.conf

/-- `AtomRefundCoin`. -/
def atomRefundCoin : Json → Handler :=
  handle readRefund wrongRefund fun a => refund ssl a.contract a.txid a.refundAddress a.conf

/-- The parameters of `AtomExtractSecret`. -/
structure ExtractParams where
  txid : Str
  secretHash : Str
  conf : RpcConf

def readExtract (params : Json) : Except Exn ExtractParams := do
  let txid ← readString params "txid"
  let secretHash ← readString params "secrethash"
  let conf ← readConf params
  return ⟨txid, secretHash, conf⟩

def wrongExtract (a : ExtractParams) : Bool :=
  a.txid.isEmpty || a.secretHash.isEmpty || confEmpty a.conf

/-- `AtomExtractSecret`. -/
def atomExtractSecret : Json → Handler :=
  handle readExtract wrongExtract fun a => extractSecret ssl a.txid a.secretHash a.conf

end

end AtomRpc

end CrossChain
