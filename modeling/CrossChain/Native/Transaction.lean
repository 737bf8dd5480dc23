import CrossChain.Native.Script

/-!
# Transactions

transaction.h over the serialisation of serialize.h: `Serialize` into a
`CDataStream`, and the byte string `SignatureHash` hashes.
-/

namespace CrossChain

/-! ## Amounts -/

def cfosCoin : Int := 10000
def cent : Int := 1000000
def coin : Int := 100 * cent
def blackcoinMinTxFee : Int := 10000
def bitcoinMinTxFee : Int := 1000
def maxMoney : Int := 500000000 * coin

/-- `MoneyRange`. -/
def moneyRange (nValue : Int64) : Bool :=
  0 ≤ nValue.toInt && nValue.toInt ≤ maxMoney

/-- `SIGHASH_ALL`, `SIGHASH_NONE`, `SIGHASH_SINGLE` and `SIGHASH_ANYONECANPAY`. -/
def sighashAll : UInt32 := 1
def sighashNone : UInt32 := 2
def sighashSingle : UInt32 := 3
def sighashAnyoneCanPay : UInt32 := 0x80

/-! ## Structures -/

/-- `COutPoint`. -/
structure COutPoint where
  hash : Uint256
  n : UInt32
  deriving DecidableEq

/-- `CTxIn`. -/
structure CTxIn where
  prevout : COutPoint
  scriptSig : CScript
  nSequence : UInt32
  deriving DecidableEq

/-- `CTxOut`, tagged with the coin type its serialisation depends on. -/
structure CTxOut where
  nValue : Int64
  scriptPubKey : CScript
  coinType : Str
  deriving DecidableEq

/-- `CTransaction`. -/
structure CTransaction where
  type : Str
  nVersion : UInt32
  nTime : UInt32
  vin : List CTxIn
  vout : List CTxOut
  nLockTime : UInt32
  deriving DecidableEq

/-- `SetNull` of `CTxOut`. -/
def CTxOut.null : CTxOut := ⟨-1, [], []⟩

/-- `CTransaction(type)` at clock reading `now`: version 1, no inputs, no outputs. -/
def CTransaction.new (type : Str) (now : Int) : CTransaction where
  type := type
  nVersion := 1
  nTime := UInt32.ofNat (now % 2 ^ 32).toNat
  vin := []
  vout := []
  nLockTime := 0

/-! ## Serialisation -/

/-- `WRITEDATA` of an `unsigned int`. -/
def writeUInt32 (x : UInt32) : Bytes := Bytes.toLE 4 x.toNat

/-- `WRITEDATA` of an `int64_t`. -/
def writeInt64 (x : Int64) : Bytes := Bytes.toLE 8 x.toUInt64.toNat

/-- `WriteCompactSize`. -/
def writeCompactSize (nSize : Nat) : Bytes :=
  if nSize < 253 then [UInt8.ofNat nSize]
  else if nSize ≤ 0xffff then 253 :: Bytes.toLE 2 nSize
  else if nSize ≤ 0xffffffff then 254 :: Bytes.toLE 4 nSize
  else 255 :: Bytes.toLE 8 nSize

/-- `Serialize` of a vector of bytes, and of a `CScript`. -/
def serializeBytes (v : Bytes) : Bytes := writeCompactSize v.length ++ v

/-- `Serialize_impl` of a vector of class type. -/
def serializeVector {α : Type} (f : α → Bytes) (v : List α) : Bytes :=
  writeCompactSize v.length ++ v.flatMap f

/-- `COutPoint` as flat data: the hash in memory order, then the index. -/
def COutPoint.serialize (o : COutPoint) : Bytes := o.hash.bytes ++ writeUInt32 o.n

def CTxIn.serialize (i : CTxIn) : Bytes :=
  i.prevout.serialize ++ serializeBytes i.scriptSig ++ writeUInt32 i.nSequence

/-- A cfos output ends in the `int` 0. -/
def CTxOut.serialize (o : CTxOut) : Bytes :=
  writeInt64 o.nValue ++ serializeBytes o.scriptPubKey ++
    if o.coinType = str "cfos" then writeUInt32 0 else []

def CTransaction.serialize (tx : CTransaction) : Bytes :=
  writeUInt32 tx.nVersion ++ (if tx.type = str "blackcoin" then writeUInt32 tx.nTime else []) ++
    serializeVector CTxIn.serialize tx.vin ++ serializeVector CTxOut.serialize tx.vout ++
    writeUInt32 tx.nLockTime

/-! ## Sizes

`GetSerializeSize`, in `unsigned int`.
-/

/-- `GetSizeOfCompactSize`. -/
def getSizeOfCompactSize (nSize : Nat) : UInt32 :=
  if nSize < 253 then 1
  else if nSize ≤ 0xffff then 1 + 2
  else if nSize ≤ 0xffffffff then 1 + 4
  else 1 + 8

/-- `GetSerializeSize` of a vector of bytes, and of a `CScript`: a `size_t` cut to 32 bits. -/
def bytesSerializeSize (v : Bytes) : UInt32 :=
  UInt32.ofNat ((getSizeOfCompactSize v.length).toNat + v.length)

/-- `GetSerializeSize_impl` of a vector of class type. -/
def vectorSerializeSize {α : Type} (f : α → UInt32) (v : List α) : UInt32 :=
  v.foldl (fun nSize vi => nSize + f vi) (getSizeOfCompactSize v.length)

/-- `sizeof(COutPoint)`. -/
def COutPoint.getSerializeSize (_ : COutPoint) : UInt32 := 36

def CTxIn.getSerializeSize (i : CTxIn) : UInt32 :=
  i.prevout.getSerializeSize + bytesSerializeSize i.scriptSig + 4

def CTxOut.getSerializeSize (o : CTxOut) : UInt32 :=
  8 + bytesSerializeSize o.scriptPubKey + if o.coinType = str "cfos" then 4 else 0

def CTransaction.getSerializeSize (tx : CTransaction) : UInt32 :=
  4 + (if tx.type = str "blackcoin" then 4 else 0) +
    vectorSerializeSize CTxIn.getSerializeSize tx.vin +
    vectorSerializeSize CTxOut.getSerializeSize tx.vout + 4

/-! ## SignatureHash -/

/-- The transaction `SignatureHash` serialises, `none` where it reports a bad index. -/
def signatureTx (scriptCode : CScript) (txTo : CTransaction) (nIn : Nat) (nHashType : UInt32) :
    Except Str CTransaction := do
  if txTo.vin.length ≤ nIn then
    throw (str "SignatureHash() : nIn out of range.")
  let scriptCode := (scriptCode.findAndDelete [opCodeSeparator]).1
  -- Blank out other inputs' signatures
  let vin := txTo.vin.map fun i => { i with scriptSig := [] }
  let vin := vin.modify nIn fun i => { i with scriptSig := scriptCode }
  let unsequenced := vin.mapIdx fun k i => if k ≠ nIn then { i with nSequence := 0 } else i
  -- Blank out some of the outputs
  let txTmp ←
    if nHashType &&& 0x1f = sighashNone then
      pure { txTo with vin := unsequenced, vout := [] }
    else if nHashType &&& 0x1f = sighashSingle then
      if txTo.vout.length ≤ nIn then
        throw (str "SignatureHash() : nOut out of range.")
      else
        pure { txTo with
          vin := unsequenced
          vout := (txTo.vout.take (nIn + 1)).mapIdx fun k o => if k < nIn then CTxOut.null else o }
    else pure { txTo with vin := vin }
  -- Blank out other inputs completely
  if nHashType &&& sighashAnyoneCanPay ≠ 0 then
    return { txTmp with vin := (txTmp.vin[nIn]?).toList }
  return txTmp

/-- The bytes `SignatureHash` hashes. -/
def signaturePreimage (scriptCode : CScript) (txTo : CTransaction) (nIn : Nat)
    (nHashType : UInt32) : Except Str Bytes :=
  (signatureTx scriptCode txTo nIn nHashType).map fun txTmp =>
    txTmp.serialize ++ writeUInt32 nHashType

/-- `SignatureHash`: 1 where it reports a bad index. -/
def signatureHash (ssl : OpenSSL) (scriptCode : CScript) (txTo : CTransaction) (nIn : Nat)
    (nHashType : UInt32) : Uint256 :=
  match signaturePreimage scriptCode txTo nIn nHashType with
  | .ok preimage => hash ssl preimage
  | .error _ => BaseUint.one 32 (by omega)

end CrossChain
