import CrossChain.ForStd.EnvM
import CrossChain.Native.Json
import CrossChain.Native.Key

/-!
# Calls to a coin node

The world a swap operation runs in: what it reads from outside (the clock, the
random generator, the node's answers) is an `Env`, what it leaves behind (the
calls made, the response filled in) a `World`.  An operation returns, fails
through `AtoError`, or is left by an exception (`Halt`).
-/

namespace CrossChain

/-- `RPC_conf`. -/
structure RpcConf where
  type : Str
  address : Str
  port : Str
  rpcuser : Str
  rpcpassword : Str
  deriving DecidableEq

/-- One call of `CallRPC`. -/
structure RpcCall where
  conf : RpcConf
  method : String
  params : List Json

/-- What comes back for a call. -/
inductive RpcAnswer where
  /-- `resolver.resolve` throws: the address is no host. -/
  | unresolved
  /-- `CallRPC` returns false with this error text. -/
  | error (text : Str)
  /-- The node's reply, parsed. -/
  | reply (v : Json)

/-- What an operation reads from outside. -/
structure Env where
  /-- `time(NULL)`. -/
  now : Int
  /-- The 32 bytes `RAND_bytes` writes. -/
  rand : Uint256
  /-- What the `fee` of `Refund` holds where no branch sets it. -/
  unsetFee : Int
  /-- The bytes in memory past the end of the buffer `ExtractSecret` allocates. -/
  heap : Nat → UInt8
  /-- The answer to the `n`-th call. -/
  answers : Nat → RpcAnswer

/-- What an operation leaves behind. -/
structure World where
  calls : List RpcCall
  response : Object

/-- How an operation ends other than by `return true`. -/
inductive Halt where
  /-- `return AtoError(text)`. -/
  | failed (text : Str)
  /-- An exception leaves the operation. -/
  | raised (e : Exn)
  deriving DecidableEq

/-- A swap operation. -/
abbrev Swap := EnvM Env World Halt

namespace World

/-- The world after one more call. -/
def called (w : World) (call : RpcCall) : World := { w with calls := w.calls ++ [call] }

/-- The world after `response[key] = v`. -/
def respond (w : World) (key : String) (v : Json) : World :=
  { w with response := Object.set w.response key v }

@[simp] theorem called_calls (w : World) (call : RpcCall) :
    (w.called call).calls = w.calls ++ [call] := rfl

@[simp] theorem called_response (w : World) (call : RpcCall) :
    (w.called call).response = w.response := rfl

@[simp] theorem respond_calls (w : World) (key : String) (v : Json) :
    (w.respond key v).calls = w.calls := rfl

@[simp] theorem respond_response (w : World) (key : String) (v : Json) :
    (w.respond key v).response = Object.set w.response key v := rfl

end World

/-! ## Concrete runs -/

/-- A node on this machine. -/
def RpcConf.localNode (type : String) : RpcConf :=
  ⟨str type, str "127.0.0.1", str "8332", str "user", str "password"⟩

/-- A clock and a random generator to run the program with. -/
def Env.sample (answers : Nat → RpcAnswer) : Env where
  now := 1515000000
  rand := BaseUint.ofBytes 32 (List.replicate 32 0x11)
  unsetFee := 0
  heap _ := 0
  answers := answers

/-- A reply without an error. -/
def RpcAnswer.result (v : Json) : RpcAnswer := .reply (.object [("error", .null), ("result", v)])

/-- Answers in order, then none. -/
def answersOf (answers : List RpcAnswer) : Nat → RpcAnswer := fun n => answers.getD n .unresolved

/-- The world before any call. -/
def World.initial : World := ⟨[], []⟩

/-! ## Steps of an operation -/

/-- A partial access: its exception leaves the operation. -/
def raise {α : Type} (x : Except Exn α) : Swap α := EnvM.ofExcept (x.mapError .raised)

/-- `return AtoError(text)`. -/
def atoError {α : Type} (text : Str) : Swap α := EnvM.stop (.failed text)

/-- A test whose failure is reported through `AtoError`. -/
def orFail {α : Type} (x : Option α) (text : String) : Swap α :=
  match x with
  | some a => pure a
  | none => atoError (str text)

/-- `response[key] = v`. -/
def setResponse (key : String) (v : Json) : Swap Unit := EnvM.modify (·.respond key v)

/-- `CallRPC`, with the `AtoError` every caller makes of its `false`. -/
def callRPC (conf : RpcConf) (method : String) (params : List Json) : Swap Object := do
  let env ← EnvM.ask
  let w ← EnvM.get
  EnvM.modify (·.called ⟨conf, method, params⟩)
  match env.answers w.calls.length with
  | .unresolved => raise (.error .systemError)
  | .error text => atoError (cStr text)
  | .reply v => do
    -- Parse reply
    let object ← raise v.getObject
    if object.isEmpty then
      atoError (str "expected reply to have result, error and id properties")
    else pure object

/-- `error.getObject().at("message").getString()`. -/
def rpcErrorMessage (error : Json) : Except Exn Str := do
  let members ← error.getObject
  let message ← Object.at' members "message"
  message.getString

/-- `NoRpcError`, whose `false` ends every caller. -/
def noRpcError (object : Object) : Swap Unit := do
  let error ← raise (Object.at' object "error")
  if error.isNull then pure ()
  else do
    let message ← raise (rpcErrorMessage error)
    atoError (cStr message)

/-- A call whose reply is checked by `NoRpcError`. -/
def callChecked (conf : RpcConf) (method : String) (params : List Json) : Swap Object := do
  let reply ← callRPC conf method params
  noRpcError reply
  pure reply

/-- `reply.at("result").getString()`. -/
def resultString (reply : Object) : Except Exn Str := do
  let result ← Object.at' reply "result"
  result.getString

/-! ## Preconditions of the steps -/

section

variable {α : Type} {Q : α → World → Prop} {E : Halt → World → Prop} {env : Env} {w : World}

theorem wp_raise {x : Except Exn α} :
    EnvM.wp (raise x) Q E env w ↔
      match x with
      | .ok a => Q a w
      | .error e => E (.raised e) w := by
  cases x <;> exact Iff.rfl

@[simp] theorem wp_atoError {text : Str} :
    EnvM.wp (atoError text) Q E env w ↔ E (.failed text) w := Iff.rfl

@[simp] theorem wp_setResponse {key : String} {v : Json} {Q : Unit → World → Prop} :
    EnvM.wp (setResponse key v) Q E env w ↔ Q () (w.respond key v) := Iff.rfl

theorem wp_callRPC {conf : RpcConf} {method : String} {params : List Json}
    {Q : Object → World → Prop} :
    EnvM.wp (callRPC conf method params) Q E env w ↔
      match env.answers w.calls.length with
      | .unresolved => E (.raised .systemError) (w.called ⟨conf, method, params⟩)
      | .error text => E (.failed (cStr text)) (w.called ⟨conf, method, params⟩)
      | .reply v =>
        match v.getObject with
        | .error e => E (.raised e) (w.called ⟨conf, method, params⟩)
        | .ok object =>
          if object.isEmpty then
            E (.failed (str "expected reply to have result, error and id properties"))
              (w.called ⟨conf, method, params⟩)
          else Q object (w.called ⟨conf, method, params⟩) := by
  simp only [callRPC, EnvM.wp_bind, EnvM.wp_ask, EnvM.wp_get, EnvM.wp_modify]
  cases env.answers w.calls.length with
  | unresolved => exact Iff.rfl
  | error text => exact Iff.rfl
  | reply v =>
    simp only [EnvM.wp_bind, wp_raise]
    cases v.getObject with
    | error e => exact Iff.rfl
    | ok object => exact EnvM.wp_ite

theorem wp_noRpcError {object : Object} {Q : Unit → World → Prop} :
    EnvM.wp (noRpcError object) Q E env w ↔
      match Object.at' object "error" with
      | .error e => E (.raised e) w
      | .ok error =>
        if error.isNull then Q () w
        else match rpcErrorMessage error with
          | .error e => E (.raised e) w
          | .ok message => E (.failed (cStr message)) w := by
  simp only [noRpcError, EnvM.wp_bind, wp_raise]
  cases Object.at' object "error" with
  | error e => exact Iff.rfl
  | ok error =>
    simp only [EnvM.wp_ite, EnvM.wp_pure, EnvM.wp_bind, wp_raise, wp_atoError]
    cases rpcErrorMessage error <;> exact Iff.rfl

end

/-! ## The world after a step -/

section

variable {env : Env} {w : World}

theorem raise_state {α : Type} (x : Except Exn α) : EnvM.wpState (raise x) (· = w) env w := by
  cases x <;> rfl

theorem orFail_state {α : Type} (x : Option α) (text : String) :
    EnvM.wpState (orFail x text) (· = w) env w := by
  cases x <;> rfl

/-- However a call ends, it was made and nothing else changed. -/
theorem callRPC_state (conf : RpcConf) (method : String) (params : List Json) :
    EnvM.wpState (callRPC conf method params) (· = w.called ⟨conf, method, params⟩) env w := by
  rw [EnvM.wpState, wp_callRPC]
  split
  · rfl
  · rfl
  · split
    · rfl
    · split <;> rfl

theorem noRpcError_state (object : Object) :
    EnvM.wpState (noRpcError object) (· = w) env w := by
  rw [EnvM.wpState, wp_noRpcError]
  split
  · rfl
  · split
    · rfl
    · split <;> rfl

theorem callChecked_state (conf : RpcConf) (method : String) (params : List Json) :
    EnvM.wpState (callChecked conf method params) (· = w.called ⟨conf, method, params⟩) env w := by
  apply EnvM.wpState_bind_eq (callRPC_state conf method params)
  intro reply
  apply EnvM.wpState_bind_eq (noRpcError_state reply)
  intro u
  rfl

end

/-! ## What a step that returned did -/

section

variable {α : Type} {env : Env} {w w' : World}

theorem raise_eq_ok_iff {x : Except Exn α} {a : α} :
    raise x env w = (.ok a, w') ↔ x = .ok a ∧ w' = w := by
  cases x <;> simp [raise, Except.mapError, eq_comm]

theorem orFail_eq_ok_iff {x : Option α} {text : String} {a : α} :
    orFail x text env w = (.ok a, w') ↔ x = some a ∧ w' = w := by
  cases x <;> simp [orFail, atoError, eq_comm]

theorem atoError_ne_ok {text : Str} {a : α} : atoError text env w ≠ (.ok a, w') := by
  simp [atoError]

/-- A call returned: the node answered with an object that is not empty. -/
theorem callRPC_eq_ok_iff {conf : RpcConf} {method : String} {params : List Json} {o : Object} :
    callRPC conf method params env w = (.ok o, w') ↔
      env.answers w.calls.length = .reply (.object o) ∧ o ≠ [] ∧
        w' = w.called ⟨conf, method, params⟩ := by
  simp only [callRPC, EnvM.bind_run_of_ok (EnvM.ask_run _ _), EnvM.bind_run_of_ok (EnvM.get_run _ _),
    EnvM.bind_run_of_ok (EnvM.modify_run _ _ _)]
  cases env.answers w.calls.length with
  | unresolved => simp [raise, Except.mapError]
  | error text => simp [atoError]
  | reply v =>
    simp only [EnvM.bind_eq_ok_iff, raise_eq_ok_iff]
    constructor
    · intro hgiven
      obtain ⟨object, _, ⟨hv, rfl⟩, h⟩ := hgiven
      split at h
      · exact absurd h atoError_ne_ok
      · rename_i hne
        cases h
        refine ⟨?_, by simpa using hne, rfl⟩
        cases v <;> simp_all [Json.getObject]
    · intro hgiven
      obtain ⟨hv, hne, rfl⟩ := hgiven
      cases hv
      refine ⟨o, _, ⟨rfl, rfl⟩, ?_⟩
      rw [if_neg (by simpa using hne)]
      rfl

/-- `NoRpcError` returned: the reply's error is null. -/
theorem noRpcError_eq_ok_iff {o : Object} {u : Unit} :
    noRpcError o env w = (.ok u, w') ↔ o.lookup "error" = some .null ∧ w' = w := by
  simp only [noRpcError, EnvM.bind_eq_ok_iff, raise_eq_ok_iff]
  constructor
  · intro hgiven
    obtain ⟨error, _, ⟨herror, rfl⟩, h⟩ := hgiven
    split at h
    · rename_i hnull
      cases h
      refine ⟨?_, rfl⟩
      cases error <;> simp_all [Json.isNull, Object.at']
      split at herror <;> simp_all
    · obtain ⟨_, _, _, h⟩ := EnvM.bind_eq_ok_iff.mp h
      exact absurd h atoError_ne_ok
  · intro hgiven
    obtain ⟨herror, rfl⟩ := hgiven
    refine ⟨.null, _, ⟨by simp [Object.at', herror], rfl⟩, ?_⟩
    simp [Json.isNull]

theorem callChecked_eq_ok_iff {conf : RpcConf} {method : String} {params : List Json}
    {o : Object} :
    callChecked conf method params env w = (.ok o, w') ↔
      env.answers w.calls.length = .reply (.object o) ∧ o.lookup "error" = some .null ∧
        w' = w.called ⟨conf, method, params⟩ := by
  simp only [callChecked, EnvM.bind_eq_ok_iff, callRPC_eq_ok_iff, noRpcError_eq_ok_iff]
  constructor
  · intro hgiven
    obtain ⟨_, _, ⟨h, _, rfl⟩, _, _, ⟨herror, rfl⟩, h'⟩ := hgiven
    cases h'
    exact ⟨h, herror, rfl⟩
  · intro hgiven
    obtain ⟨h, herror, rfl⟩ := hgiven
    -- an object with an "error" is not empty
    have hne : o ≠ [] := by rintro rfl; simp at herror
    exact ⟨o, _, ⟨h, hne, rfl⟩, (), _, ⟨herror, rfl⟩, rfl⟩

end

end CrossChain
