import CrossChain.Native.BigNum
import CrossChain.Native.Key

/-!
# CScript

Writing scripts (`operator<<`), reading them (`GetOp`), `FindAndDelete` and the
two recognisers of script.cpp.  A script is its bytes; an iterator into it is
the bytes from there to the end.
-/

namespace CrossChain

/-- `CScript`, which derives from `vector<unsigned char>`. -/
abbrev CScript := Bytes

/-! ## Opcodes -/

def opFalse : UInt8 := 0x00
def opPushData1 : UInt8 := 0x4c
def opPushData2 : UInt8 := 0x4d
def opPushData4 : UInt8 := 0x4e
def op1Negate : UInt8 := 0x4f
def opTrue : UInt8 := 0x51
def op16 : UInt8 := 0x60
def opIf : UInt8 := 0x63
def opElse : UInt8 := 0x67
def opEndIf : UInt8 := 0x68
def opDrop : UInt8 := 0x75
def opDup : UInt8 := 0x76
def opEqual : UInt8 := 0x87
def opEqualVerify : UInt8 := 0x88
def opRipemd160 : UInt8 := 0xa6
def opHash160 : UInt8 := 0xa9
def opCodeSeparator : UInt8 := 0xab
def opCheckSig : UInt8 := 0xac
def opCheckLockTimeVerify : UInt8 := 0xb1

namespace CScript

/-! ## Writing -/

/-- What `operator<<(const vector<unsigned char>&)` appends. -/
def pushVec (b : Bytes) : CScript :=
  if b.length < opPushData1.toNat then UInt8.ofNat b.length :: b
  else if b.length ≤ 0xff then opPushData1 :: UInt8.ofNat b.length :: b
  else if b.length ≤ 0xffff then opPushData2 :: (Bytes.toLE 2 b.length ++ b)
  else opPushData4 :: (Bytes.toLE 4 b.length ++ b)

/-- What `operator<<` appends for a `uint160` or `uint256`. -/
def pushUint {n : Nat} (b : BaseUint n) : CScript :=
  UInt8.ofNat n :: b.bytes

/-- What `operator<<(const CPubKey&)` appends, with its `assert` on the size. -/
def pushPubKey (key : Bytes) : Except Exn CScript :=
  if key.length < opPushData1.toNat then .ok (UInt8.ofNat key.length :: key)
  else .error .assertFailed

/-- What `push_int64` appends.  The conversion of `n` to `CBigNum` goes through `int`. -/
def pushInt64 (n : Int) : CScript :=
  if n = -1 ∨ (1 ≤ n ∧ n ≤ 16) then [UInt8.ofNat (n + (opTrue.toNat - 1)).toNat]
  else pushVec (CBigNum.getvch (CBigNum.ofInt64 n))

/-- What `push_uint64` appends. -/
def pushUint64 (n : Nat) : CScript :=
  if 1 ≤ n ∧ n ≤ 16 then [UInt8.ofNat (n + (opTrue.toNat - 1))]
  else pushVec (CBigNum.getvch (CBigNum.ofInt64 n))

/-! ## Reading -/

/-- The operand size of a push opcode at `pc`, past the opcode, and what follows it. -/
def getSize (opcode : UInt8) (pc : Bytes) : Option Nat × Bytes :=
  if opcode < opPushData1 then (some opcode.toNat, pc)
  else if opcode = opPushData1 then
    match pc with
    | [] => (none, [])
    | n :: pc => (some n.toNat, pc)
  else if opcode = opPushData2 then
    if pc.length < 2 then (none, pc) else (some (Bytes.ofLE (pc.take 2)), pc.drop 2)
  else
    if pc.length < 4 then (none, pc) else (some (Bytes.ofLE (pc.take 4)), pc.drop 4)

/-- `GetOp2`: the opcode and operand read, `none` for its `false`, and the new `pc`.
    The bytes left are compared with the size as an `unsigned int`. -/
def getOp (pc : Bytes) : Option (UInt8 × Bytes) × Bytes :=
  match pc with
  | [] => (none, [])
  | opcode :: pc =>
    -- Immediate operand
    if opcode ≤ opPushData4 then
      match getSize opcode pc with
      | (none, pc) => (none, pc)
      | (some nSize, pc) =>
        if pc.length % 2 ^ 32 < nSize then (none, pc)
        else (some (opcode, pc.take nSize), pc.drop nSize)
    else (some (opcode, []), pc)

/-- The instructions `GetOp` reads from `pc` on until it fails, at most `fuel` of them,
    and the bytes at which it fails. -/
def instrsGo : Nat → Bytes → List (UInt8 × Bytes) × Bytes
  | 0, pc => ([], pc)
  | fuel + 1, pc =>
    match getOp pc with
    | (none, _) => ([], pc)
    | (some i, rest) => (i :: (instrsGo fuel rest).1, (instrsGo fuel rest).2)

/-- All instructions of a script in order, and its unreadable tail. -/
def instrs (s : CScript) : List (UInt8 × Bytes) × Bytes :=
  instrsGo s.length s

/-- The loop of `FindAndDelete` from `pc` on: a match is erased, otherwise `GetOp`
    moves on; the bytes kept and the number of matches. -/
def findAndDeleteGo (b : Bytes) : Nat → Bytes → Bytes × Nat
  | 0, pc => (pc, 0)
  | fuel + 1, pc =>
    if b.isPrefixOf pc then
      let (out, nFound) := findAndDeleteGo b fuel (pc.drop b.length)
      (out, nFound + 1)
    else
      match getOp pc with
      | (none, _) => (pc, 0)
      | (some _, rest) =>
        let (out, nFound) := findAndDeleteGo b fuel rest
        (pc.take (pc.length - rest.length) ++ out, nFound)

/-- `FindAndDelete`: the script left and the number removed, counted in an `int`. -/
def findAndDelete (s : CScript) (b : Bytes) : CScript × Int :=
  if b = [] then (s, 0)
  else
    let (out, nFound) := findAndDeleteGo b (s.length + 1) s
    (out, CBigNum.toInt32 nFound)

/-! ## Recognisers -/

/-- The positions `ISAtomicSwap` compares, with the bytes it wants there, in order. -/
def atomicSwapBytes : List (Nat × UInt8) :=
  [(0, opIf), (1, opRipemd160), (2, 0x14),
   (23, opEqualVerify), (24, opDup), (25, opHash160), (26, 0x14),
   (47, opElse), (48, 0x04),
   (53, opCheckLockTimeVerify), (54, opDrop), (55, opDup), (56, opHash160), (57, 0x14),
   (78, opEndIf), (79, opEqualVerify), (80, opCheckSig)]

/-- A chain of `this->at(i) == b && ...`, where `at` throws past the end. -/
def atAll (s : CScript) : List (Nat × UInt8) → Except Exn Bool
  | [] => .ok true
  | (i, b) :: rest =>
    match s[i]? with
    | none => .error .outOfRange
    | some v => if v = b then atAll s rest else .ok false

/-- `ISAtomicSwap`. -/
def isAtomicSwap (s : CScript) : Except Exn Bool :=
  atAll s atomicSwapBytes

/-- `IsPayToScriptHash`. -/
def isPayToScriptHash (s : CScript) : Bool :=
  s.length == 23 && s[0]? == some opHash160 && s[1]? == some 0x14 && s[22]? == some opEqual

variable (ssl : OpenSSL)

/-- `GetID`. -/
def getID (s : CScript) : Uint160 := hash160 ssl s

/-- `CreatePayToScriptHashScript`. -/
def createPayToScriptHashScript (scriptID : Uint160) : CScript :=
  [opHash160] ++ pushUint scriptID ++ [opEqual]

/-! ## Pushed vectors -/

/-- A short vector is pushed as its length and its bytes. -/
theorem pushVec_of_lt {b : Bytes} (h : b.length < 76) : pushVec b = UInt8.ofNat b.length :: b := by
  have h' : b.length < opPushData1.toNat := h
  rw [pushVec, if_pos h']

/-- A short blob is written as the vector of its bytes is. -/
theorem pushVec_eq_pushUint {n : Nat} (x : BaseUint n) (hn : n < 76) :
    pushVec x.bytes = pushUint x := by
  have hlen : x.bytes.length = n := x.length_bytes
  rw [pushVec_of_lt (by omega), hlen]
  rfl

/-- A push adds an opcode and at most four bytes of length. -/
theorem length_pushVec (b : Bytes) :
    b.length < (pushVec b).length ∧ (pushVec b).length ≤ b.length + 5 := by
  unfold pushVec
  split
  · simp
  · split
    · simp
    · split
      · simp only [List.length_cons, List.length_append, Bytes.length_toLE]
        omega
      · simp only [List.length_cons, List.length_append, Bytes.length_toLE]
        omega

theorem pushVec_ne_nil (b : Bytes) : pushVec b ≠ [] := by
  have hlen := (length_pushVec b).1
  intro hnil
  rw [hnil, List.length_nil] at hlen
  omega

/-- A public key that passes the `assert` is pushed like any vector. -/
theorem pushPubKey_eq_ok {key pushKey : Bytes} (h : pushPubKey key = .ok pushKey) :
    pushKey = pushVec key := by
  rw [pushPubKey] at h
  split at h
  · rename_i hlen
    cases h
    rw [pushVec, if_pos hlen]
  · cases h

end CScript

end CrossChain
