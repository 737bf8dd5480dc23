import Mathlib.Data.Nat.Digits.Defs
import Mathlib.Tactic.SplitIfs
import CrossChain.Native.BigNum
import CrossChain.Native.Key

/-!
# Base58, addresses and private-key strings

base58.h and the address prefixes of params.h.
-/

namespace CrossChain

/-! ## Address prefixes -/

/-- `GetPrefixes_PubKey_Address` on an empty vector. -/
def getPrefixesPubKeyAddress (type : Str) : Bytes :=
  if type = str "bitcoin" ∨ type = str "cfos" then [0]
  else if type = str "blackcoin" then [25]
  else []

/-- `GetPrefixes_Script_Address` on an empty vector. -/
def getPrefixesScriptAddress (type : Str) : Bytes :=
  if type = str "bitcoin" ∨ type = str "cfos" then [5]
  else if type = str "blackcoin" then [85]
  else []

/-- `GetPrefixes_SECRET_KEY` on an empty vector. -/
def getPrefixesSecretKey (type : Str) : Bytes :=
  if type = str "bitcoin" ∨ type = str "cfos" then [128]
  else if type = str "blackcoin" then [153]
  else []

/-! ## Base58 -/

/-- The base58 alphabet. -/
def pszBase58 : Str :=
  str "123456789ABCDEFGHJKLMNPQRSTUVWXYZabcdefghijkmnopqrstuvwxyz"

/-- `EncodeBase58`.  The digits come least significant first, as the division loop
    appends them, then one `1` for each leading zero byte; the text is reversed. -/
def encodeBase58 (v : Bytes) : Str :=
  -- Extra zero at the end make sure bignum will interpret as a positive number
  let bn := CBigNum.setvch (v.reverse ++ [0])
  -- Convert bignum to std::string
  let digits := (Nat.digits 58 bn.toNat).map fun c => pszBase58.getD c 0
  -- Leading zeroes encoded as base58 zeros
  let zeros := (v.takeWhile (· == 0)).map fun _ => pszBase58.getD 0 0
  (digits ++ zeros).reverse

/-- The loop of `DecodeBase58`: a character outside the alphabet must start
    white space up to the end of the string. -/
def decodeBase58Go : Str → Int → Option Int
  | [], bn => some bn
  | c :: p, bn =>
    match pszBase58.idxOf? c with
    | none => if (c :: p).dropWhile isspace = [] then some bn else none
    | some d => decodeBase58Go p (bn * 58 + d)

/-- `DecodeBase58`, `none` for its `false` (the result vector is then empty). -/
def decodeBase58 (s : Str) : Option Bytes := do
  let psz := (cStr s).dropWhile isspace
  -- Convert big endian string to bignum
  let bn ← decodeBase58Go psz 0
  -- Get bignum as little endian data
  let vchTmp := CBigNum.getvch bn
  -- Trim off sign byte if present
  let vchTmp :=
    match vchTmp.reverse with
    | 0 :: b :: rest => if 0x80 ≤ b then (b :: rest).reverse else vchTmp
    | _ => vchTmp
  -- Restore leading zeros
  let nLeadingZeros := (psz.takeWhile (some · == pszBase58.head?)).length
  return List.replicate nLeadingZeros 0 ++ vchTmp.reverse

variable (ssl : OpenSSL)

/-- `EncodeBase58Check`: the first four bytes of the double hash are appended. -/
def encodeBase58Check (vchIn : Bytes) : Str :=
  encodeBase58 (vchIn ++ (hash ssl vchIn).bytes.take 4)

/-- `DecodeBase58Check`, `none` for its `false`. -/
def decodeBase58Check (s : Str) : Option Bytes := do
  let vchRet ← decodeBase58 s
  if vchRet.length < 4 then none
  else
    let body := vchRet.take (vchRet.length - 4)
    if (hash ssl body).bytes.take 4 = vchRet.drop (vchRet.length - 4) then some body else none

/-! ## CBase58Data and CBitcoinAddress -/

/-- `CBase58Data`, and `CBitcoinAddress` and `CBitcoinSecret`, which add no member. -/
structure CBase58Data where
  vchVersion : Bytes
  vchData : Bytes
  deriving DecidableEq

/-- `CBitcoinAddress`. -/
abbrev CBitcoinAddress := CBase58Data

/-- `CBitcoinSecret`. -/
abbrev CBitcoinSecret := CBase58Data

namespace CBase58Data

/-- `SetString(psz)` with one version byte, by its return value and the new members. -/
def setString (s : Str) : Bool × CBase58Data :=
  match (decodeBase58Check ssl s).getD [] with
  | [] => (false, ⟨[], []⟩)
  | v :: data => (true, ⟨[v], data⟩)

/-- `CompareTo`. -/
def compareTo (a b58 : CBase58Data) : Int :=
  if a.vchVersion < b58.vchVersion then -1
  else if b58.vchVersion < a.vchVersion then 1
  else if a.vchData < b58.vchData then -1
  else if b58.vchData < a.vchData then 1
  else 0

/-- `operator==`. -/
def equals (a b58 : CBase58Data) : Bool := a.compareTo b58 == 0

private theorem eq_of_not_lt {xs ys : Bytes} (h : ¬ xs < ys) (h' : ¬ ys < xs) : xs = ys :=
  List.le_antisymm (List.not_lt.mp h') (List.not_lt.mp h)

/-- `operator==` is equality of both members. -/
theorem equals_iff (a b : CBase58Data) : a.equals b = true ↔ a = b := by
  constructor
  · intro h
    rw [equals, beq_iff_eq, compareTo] at h
    -- the chain ends in 0 only if no comparison is strict
    split_ifs at h with h1 h2 h3 h4 <;> try omega
    have hv : a.vchVersion = b.vchVersion := eq_of_not_lt h1 h2
    have hd : a.vchData = b.vchData := eq_of_not_lt h3 h4
    cases a; cases b; simp_all
  · intro heq
    subst heq
    simp [equals, compareTo, List.lt_irrefl]

end CBase58Data

namespace CBitcoinAddress

/-- `CBitcoinAddress(strAddress)`. -/
def ofString (s : Str) : CBitcoinAddress := (CBase58Data.setString ssl s).2

/-- `Set(prefixes, id)` for a key or script hash. -/
def set (prefixes : Bytes) (id : Uint160) : CBitcoinAddress := ⟨prefixes, id.bytes⟩

/-- `ToString`. -/
def toString (a : CBitcoinAddress) : Str :=
  encodeBase58Check ssl (a.vchVersion ++ a.vchData)

/-- `IsValid`. -/
def isValid (a : CBitcoinAddress) (type : Str) : Bool :=
  a.vchData.length == 20 &&
    (a.vchVersion == getPrefixesPubKeyAddress type ||
      a.vchVersion == getPrefixesScriptAddress type)

/-- `GetKeyID`, `none` for its `false` (the argument is then left as it was). -/
def getKeyID (a : CBitcoinAddress) (type : Str) : Option Uint160 :=
  if !isValid a type || a.vchVersion != getPrefixesPubKeyAddress type then none
  else some (BaseUint.ofBytes 20 a.vchData)

end CBitcoinAddress

namespace CBitcoinSecret

/-- `IsValid`. -/
def isValid (a : CBitcoinSecret) (type : Str) : Bool :=
  (a.vchData.length == 32 || (a.vchData.length == 33 && a.vchData.getD 32 0 == 1)) &&
    a.vchVersion == getPrefixesSecretKey type

/-- `SetString(strSecret, type)`, `none` for its `false`. -/
def setString (s : Str) (type : Str) : Option CBitcoinSecret :=
  let (ok, a) := CBase58Data.setString ssl s
  if ok && isValid a type then some a else none

/-- `GetKey`. -/
def getKey (a : CBitcoinSecret) : CKey :=
  CKey.set (a.vchData.take 32) (a.vchData.length > 32 && a.vchData.getD 32 0 == 1)

end CBitcoinSecret

end CrossChain
