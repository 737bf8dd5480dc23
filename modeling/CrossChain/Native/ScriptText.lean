import CrossChain.Native.Hex
import CrossChain.Native.Script

/-!
# Scripts read in place

`GetOp2` with its iterator as an index, every access checked against the end of
the script, and `ToString`, which prints a script in a loop over it.
-/

namespace CrossChain

/-- `GetOpName`, by its `switch`. -/
def opNames : List (UInt8 × String) :=
  [(0x00, "0"), (0x4c, "OP_PUSHDATA1"), (0x4d, "OP_PUSHDATA2"), (0x4e, "OP_PUSHDATA4"),
   (0x4f, "-1"), (0x50, "OP_RESERVED"), (0x51, "1"), (0x52, "2"), (0x53, "3"), (0x54, "4"),
   (0x55, "5"), (0x56, "6"), (0x57, "7"), (0x58, "8"), (0x59, "9"), (0x5a, "10"), (0x5b, "11"),
   (0x5c, "12"), (0x5d, "13"), (0x5e, "14"), (0x5f, "15"), (0x60, "16"), (0x61, "OP_NOP"),
   (0x62, "OP_VER"), (0x63, "OP_IF"), (0x64, "OP_NOTIF"), (0x65, "OP_VERIF"),
   (0x66, "OP_VERNOTIF"), (0x67, "OP_ELSE"), (0x68, "OP_ENDIF"), (0x69, "OP_VERIFY"),
   (0x6a, "OP_RETURN"), (0x6b, "OP_TOALTSTACK"), (0x6c, "OP_FROMALTSTACK"), (0x6d, "OP_2DROP"),
   (0x6e, "OP_2DUP"), (0x6f, "OP_3DUP"), (0x70, "OP_2OVER"), (0x71, "OP_2ROT"), (0x72, "OP_2SWAP"),
   (0x73, "OP_IFDUP"), (0x74, "OP_DEPTH"), (0x75, "OP_DROP"), (0x76, "OP_DUP"), (0x77, "OP_NIP"),
   (0x78, "OP_OVER"), (0x79, "OP_PICK"), (0x7a, "OP_ROLL"), (0x7b, "OP_ROT"), (0x7c, "OP_SWAP"),
   (0x7d, "OP_TUCK"), (0x7e, "OP_CAT"), (0x7f, "OP_SUBSTR"), (0x80, "OP_LEFT"), (0x81, "OP_RIGHT"),
   (0x82, "OP_SIZE"), (0x83, "OP_INVERT"), (0x84, "OP_AND"), (0x85, "OP_OR"), (0x86, "OP_XOR"),
   (0x87, "OP_EQUAL"), (0x88, "OP_EQUALVERIFY"), (0x89, "OP_RESERVED1"), (0x8a, "OP_RESERVED2"),
   (0x8b, "OP_1ADD"), (0x8c, "OP_1SUB"), (0x8d, "OP_2MUL"), (0x8e, "OP_2DIV"), (0x8f, "OP_NEGATE"),
   (0x90, "OP_ABS"), (0x91, "OP_NOT"), (0x92, "OP_0NOTEQUAL"), (0x93, "OP_ADD"), (0x94, "OP_SUB"),
   (0x95, "OP_MUL"), (0x96, "OP_DIV"), (0x97, "OP_MOD"), (0x98, "OP_LSHIFT"), (0x99, "OP_RSHIFT"),
   (0x9a, "OP_BOOLAND"), (0x9b, "OP_BOOLOR"), (0x9c, "OP_NUMEQUAL"), (0x9d, "OP_NUMEQUALVERIFY"),
   (0x9e, "OP_NUMNOTEQUAL"), (0x9f, "OP_LESSTHAN"), (0xa0, "OP_GREATERTHAN"),
   (0xa1, "OP_LESSTHANOREQUAL"), (0xa2, "OP_GREATERTHANOREQUAL"), (0xa3, "OP_MIN"),
   (0xa4, "OP_MAX"), (0xa5, "OP_WITHIN"), (0xa6, "OP_RIPEMD160"), (0xa7, "OP_SHA1"),
   (0xa8, "OP_SHA256"), (0xa9, "OP_HASH160"), (0xaa, "OP_HASH256"), (0xab, "OP_CODESEPARATOR"),
   (0xac, "OP_CHECKSIG"), (0xad, "OP_CHECKSIGVERIFY"), (0xae, "OP_CHECKMULTISIG"),
   (0xaf, "OP_CHECKMULTISIGVERIFY"), (0xb0, "OP_NOP1"), (0xb1, "OP_CHECKLOCKTIMEVERIFY"),
   (0xb2, "OP_NOP3"), (0xb3, "OP_NOP4"), (0xb4, "OP_NOP5"), (0xb5, "OP_NOP6"), (0xb6, "OP_NOP7"),
   (0xb7, "OP_NOP8"), (0xb8, "OP_NOP9"), (0xb9, "OP_NOP10"), (0xff, "OP_INVALIDOPCODE")]

/-- `GetOpName`. -/
def getOpName (opcode : UInt8) : Str :=
  str ((opNames.lookup opcode).getD "OP_UNKNOWN")

/-- `ValueString`. -/
def valueString (vch : Bytes) : Str :=
  if vch.length ≤ 4 then str (toString (CBigNum.getint (CBigNum.setvch vch)))
  else hexStr vch

namespace CScript

variable (s : CScript)

/-- `end() - pc`. -/
def bytesLeft (pc : Nat) : Int := s.length - pc

/-- `*pc`, undefined past the end. -/
def readByte (pc : Nat) : Except Exn UInt8 :=
  match s[pc]? with
  | some b => .ok b
  | none => .error .badIndex

/-- The `n` bytes from `pc` on, undefined past the end. -/
def readBytes (pc n : Nat) : Except Exn Bytes :=
  if pc + n ≤ s.length then .ok ((s.drop pc).take n) else .error .badIndex

/-- The operand size `GetOp2` reads past a push opcode, `none` where it returns `false`,
    and the new `pc`. -/
def operandSize (opcode : UInt8) (pc : Nat) : Except Exn (Option Nat × Nat) :=
  if opcode < opPushData1 then .ok (some opcode.toNat, pc)
  else if opcode = opPushData1 then
    if s.bytesLeft pc < 1 then .ok (none, pc)
    else do
      let nSize ← s.readByte pc
      return (some nSize.toNat, pc + 1)
  else if opcode = opPushData2 then
    if s.bytesLeft pc < 2 then .ok (none, pc)
    else do
      let nSize ← s.readBytes pc 2
      return (some (Bytes.ofLE nSize), pc + 2)
  else
    if s.bytesLeft pc < 4 then .ok (none, pc)
    else do
      let nSize ← s.readBytes pc 4
      return (some (Bytes.ofLE nSize), pc + 4)

/-- `GetOp2`: the opcode and operand, `none` for its `false`, and the new `pc`. -/
def getOp2 (pc : Nat) : Except Exn (Option (UInt8 × Bytes) × Nat) :=
  if s.length ≤ pc then .ok (none, pc)
  -- Read instruction
  else if s.bytesLeft pc < 1 then .ok (none, pc)
  else do
    let opcode ← s.readByte pc
    let pc := pc + 1
    -- Immediate operand
    if opcode ≤ opPushData4 then
      match ← s.operandSize opcode pc with
      | (none, pc) => return (none, pc)
      | (some nSize, pc) =>
        if s.bytesLeft pc < 0 ∨ s.bytesLeft pc % 2 ^ 32 < nSize then return (none, pc)
        let vchRet ← s.readBytes pc nSize
        return (some (opcode, vchRet), pc + nSize)
    else return (some (opcode, []), pc)

/-- The loop of `ToString` from `pc` on with `text` printed so far, `none` where it
    takes more than `fuel` turns. -/
def toStringGo (fShort : Bool) : Nat → Nat → Str → Except Exn (Option Str)
  | 0, _, _ => .ok none
  | fuel + 1, pc, text =>
    if s.length ≤ pc then .ok (some text)
    else do
      let text := if text = [] then text else text ++ str " "
      match ← s.getOp2 pc with
      | (none, _) => return some (text ++ str "[error]")
      | (some (opcode, vch), pc) =>
        let item :=
          if opcode ≤ opPushData4 then
            if fShort then (valueString vch).take 10 else valueString vch
          else getOpName opcode
        toStringGo fShort fuel pc (text ++ item)

/-- `ToString`. -/
def toString (fShort : Bool) : Except Exn (Option Str) :=
  s.toStringGo fShort (s.length + 1) 0 []

end CScript

end CrossChain
