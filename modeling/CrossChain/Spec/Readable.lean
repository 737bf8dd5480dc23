import CrossChain.Spec.OperationRuns
import CrossChain.Spec.Recognise

/-!
# Replies an operation can read

The partial accesses of the swap operations, as conditions on the node's
answers: which members a reply must have, and of which type, for the operation
to end by `return` and not by an exception.  Each condition is met exactly when
the operation ends so (`ends_initiate`, `ends_redeem`, ...).

A condition that is needed only once a step has been reached stands under the
condition that it is reached.
-/

namespace CrossChain

/-! ## Ending without an exception -/

/-- The operation returned `false` through `AtoError`. -/
def Failed (e : Halt) : Prop := ∃ text, e = .failed text

/-- The run ends by `return`, with `k` of what it computed and of the number of calls made
    so far. -/
def Ends {α : Type} (x : Swap α) (k : α → Nat → Prop) (env : Env) (w : World) : Prop :=
  EnvM.wpObs (fun w : World => w.calls.length) x Failed k env w

section

variable {α β : Type} {env : Env} {w : World} {k : α → Nat → Prop}

/-- One step after the other, each a condition on the number of calls made before it;
    what the first step computed can be used. -/
theorem ends_bind_of_run {x : Swap β} {f : β → Swap α} {m : β → Nat → Prop}
    (h : ∀ b w', x env w = (.ok b, w') → (Ends (f b) k env w' ↔ m b w'.calls.length)) :
    Ends (x >>= f) k env w ↔ Ends x m env w :=
  EnvM.wpObs_bind h

theorem ends_bind {x : Swap β} {f : β → Swap α} {m : β → Nat → Prop}
    (h : ∀ b w', Ends (f b) k env w' ↔ m b w'.calls.length) :
    Ends (x >>= f) k env w ↔ Ends x m env w :=
  ends_bind_of_run fun b w' _ => h b w'

theorem ends_pure {a : α} : Ends (pure a) k env w ↔ k a w.calls.length := Iff.rfl

theorem ends_ask {k : Env → Nat → Prop} : Ends EnvM.ask k env w ↔ k env w.calls.length := Iff.rfl

theorem ends_setResponse {key : String} {v : Json} {k : Unit → Nat → Prop} :
    Ends (setResponse key v) k env w ↔ k () w.calls.length := Iff.rfl

theorem ends_atoError {text : Str} : Ends (atoError text) k env w ↔ True :=
  iff_true_intro ⟨text, rfl⟩

theorem ends_raise {x : Except Exn α} :
    Ends (raise x) k env w ↔ ∃ a, x = .ok a ∧ k a w.calls.length := by
  cases x with
  | ok a =>
    constructor
    · intro h
      exact ⟨a, rfl, h⟩
    · intro hgiven
      obtain ⟨_, h, hk⟩ := hgiven
      cases h
      exact hk
  | error e =>
    constructor
    · intro hgiven
      obtain ⟨_, h⟩ := hgiven
      cases h
    · intro hgiven
      obtain ⟨_, h, _⟩ := hgiven
      cases h

theorem ends_orFail {x : Option α} {text : String} :
    Ends (orFail x text) k env w ↔ ∀ a, x = some a → k a w.calls.length := by
  cases x with
  | some a =>
    constructor
    · intro h _ ha
      cases ha
      exact h
    · intro h
      exact h a rfl
  | none =>
    constructor
    · intro _ _ ha
      cases ha
    · intro _
      exact ⟨_, rfl⟩

theorem ends_ite {c : Prop} [Decidable c] {x y : Swap α} :
    Ends (if c then x else y) k env w ↔ if c then Ends x k env w else Ends y k env w :=
  EnvM.wp_ite

end

/-! ## Calls -/

/-- "error" is null, or an object with a text "message". -/
def ErrorReadable (reply : Object) : Prop :=
  ∃ error, reply.lookup "error" = some error ∧
    (error = .null ∨
      ∃ members message, error = .object members ∧ members.lookup "message" = some (.string message))

/-- A call whose address resolves and whose reply, if there is one, is an object; if it is
    not empty, it is read as `k`. -/
def UncheckedCall (env : Env) (n : Nat) (k : Object → Prop) : Prop :=
  env.answers n ≠ .unresolved ∧
    ∀ v, env.answers n = .reply v → ∃ reply, v = .object reply ∧ (reply ≠ [] → k reply)

/-- A call whose reply has a readable "error" and, if that is null, is read as `k`. -/
def CheckedCall (env : Env) (n : Nat) (k : Object → Prop) : Prop :=
  UncheckedCall env n fun reply =>
    ErrorReadable reply ∧ (reply.lookup "error" = some .null → k reply)

/-- A checked call whose "result" is a text. -/
def StringCall (env : Env) (n : Nat) (k : Str → Prop) : Prop :=
  CheckedCall env n fun reply => ∃ s, reply.lookup "result" = some (.string s) ∧ k s

section

variable {conf : RpcConf} {env : Env} {w : World}

theorem ends_callRPC {method : String} {params : List Json} {k : Object → Nat → Prop} :
    Ends (callRPC conf method params) k env w ↔
      UncheckedCall env w.calls.length fun reply => k reply (w.calls.length + 1) := by
  have hlen (call : RpcCall) : (w.called call).calls.length = w.calls.length + 1 := by simp
  rw [Ends, EnvM.wpObs, wp_callRPC, UncheckedCall]
  simp only [hlen]
  cases env.answers w.calls.length with
  | unresolved =>
    constructor
    · intro hgiven
      obtain ⟨_, h⟩ := hgiven
      cases h
    · intro h
      exact absurd rfl h.1
  | error text =>
    -- an error text is reported
    constructor
    · intro _
      refine ⟨by simp, ?_⟩
      intro _ h
      cases h
    · intro _
      exact ⟨_, rfl⟩
  | reply v =>
    cases v with
    | object reply =>
      cases reply with
      | nil =>
        -- an empty object is reported too
        constructor
        · intro _
          refine ⟨by simp, ?_⟩
          intro _ h
          cases h
          exact ⟨[], rfl, fun hne => absurd rfl hne⟩
        · intro _
          exact ⟨_, rfl⟩
      | cons p o =>
        constructor
        · intro hk
          refine ⟨by simp, ?_⟩
          intro _ h
          cases h
          exact ⟨p :: o, rfl, fun _ => hk⟩
        · intro hgiven
          obtain ⟨_, hk⟩ := hgiven
          obtain ⟨reply, heq, hk⟩ := hk _ rfl
          cases heq
          exact hk (List.cons_ne_nil _ _)
    | null | array _ | string _ | bool _ | int _ | real _ =>
      constructor
      · intro hgiven
        obtain ⟨_, h⟩ := hgiven
        cases h
      · intro hgiven
        obtain ⟨_, hk⟩ := hgiven
        obtain ⟨_, heq, _⟩ := hk _ rfl
        cases heq

theorem rpcErrorMessage_eq_ok_iff {error : Json} {message : Str} :
    rpcErrorMessage error = .ok message ↔
      ∃ members, error = .object members ∧ members.lookup "message" = some (.string message) := by
  simp [rpcErrorMessage, except_bind_eq_ok_iff]

/-- `NoRpcError` reads a readable "error". -/
theorem ends_noRpcError {reply : Object} {k : Unit → Nat → Prop} :
    Ends (noRpcError reply) k env w ↔
      ErrorReadable reply ∧ (reply.lookup "error" = some .null → k () w.calls.length) := by
  have hmessage (error : Json) (w' : World) :
      Ends (if error.isNull then pure () else do
          let message ← raise (rpcErrorMessage error)
          atoError (cStr message)) k env w' ↔
        if error.isNull then k () w'.calls.length
        else ∃ message, rpcErrorMessage error = .ok message := by
    rw [ends_ite, ends_bind (m := fun _ _ => True) (fun _ _ => ends_atoError), ends_raise]
    simp [ends_pure]
  rw [noRpcError, ends_bind (m := fun error n => if error.isNull then k () n
    else ∃ message, rpcErrorMessage error = .ok message) hmessage, ends_raise, ErrorReadable]
  simp only [Object.at'_eq_ok_iff, rpcErrorMessage_eq_ok_iff]
  constructor
  · intro hgiven
    obtain ⟨error, herror, h⟩ := hgiven
    -- no error, or an object that must have its text
    cases error with
    | null => exact ⟨⟨_, herror, .inl rfl⟩, fun _ => h⟩
    | object members =>
      obtain ⟨message, members', heq, hmessage⟩ := h
      cases heq
      refine ⟨⟨_, herror, .inr ⟨members, message, rfl, hmessage⟩⟩, ?_⟩
      intro hnull
      rw [herror] at hnull
      cases hnull
    | array _ | string _ | bool _ | int _ | real _ =>
      obtain ⟨_, _, h, _⟩ := h
      cases h
  · rintro ⟨⟨error, herror, rfl | ⟨members, message, rfl, hmessage⟩⟩, hnull⟩
    · exact ⟨_, herror, hnull herror⟩
    · exact ⟨_, herror, message, members, rfl, hmessage⟩

theorem ends_callChecked {method : String} {params : List Json}
    {k : Object → Nat → Prop} :
    Ends (callChecked conf method params) k env w ↔
      CheckedCall env w.calls.length fun reply => k reply (w.calls.length + 1) := by
  rw [callChecked, ends_bind (m := fun reply n =>
    ErrorReadable reply ∧ (reply.lookup "error" = some .null → k reply n)), ends_callRPC]
  · rfl
  · intro reply w'
    rw [ends_bind (m := fun _ n => k reply n), ends_noRpcError]
    intro _ _
    exact ends_pure

theorem resultString_eq_ok_iff {reply : Object} {s : Str} :
    resultString reply = .ok s ↔ reply.lookup "result" = some (.string s) := by
  simp [resultString, except_bind_eq_ok_iff]

/-- A checked call followed by reading the text "result". -/
theorem ends_stringCall {method : String} {params : List Json}
    {k : Str → Nat → Prop} :
    Ends (do
        let reply ← callChecked conf method params
        raise (resultString reply)) k env w ↔
      StringCall env w.calls.length fun s => k s (w.calls.length + 1) := by
  rw [ends_bind (m := fun reply n => ∃ s, reply.lookup "result" = some (.string s) ∧ k s n),
    ends_callChecked, StringCall]
  intro reply w'
  rw [ends_raise]
  simp only [resultString_eq_ok_iff]

end

/-! ## Initiate and Participate -/

/-- "result" holds the transaction id of a funding call. -/
def FundTxidReadable (conf : RpcConf) (reply : Object) : Prop :=
  if conf.type = str "cfos" then
    ∃ members txid, reply.lookup "result" = some (.object members) ∧
      members.lookup "txid" = some (.string txid)
  else ∃ txid, reply.lookup "result" = some (.string txid)

/-- What Initiate and Participate read. -/
def FundReadable (conf : RpcConf) (env : Env) (n : Nat) : Prop :=
  CheckedCall env n (FundTxidReadable conf)

section

variable (ssl : OpenSSL) {env : Env} {w : World}

theorem fundTxid_ok_iff {conf : RpcConf} {reply : Object} :
    (∃ txid, fundTxid conf reply = .ok txid) ↔ FundTxidReadable conf reply := by
  rw [FundTxidReadable]
  simp only [fundTxid]
  split
  · simp only [except_bind_eq_ok_iff, Object.at'_eq_ok_iff, Json.getObject_eq_ok_iff,
      Json.getString_eq_ok_iff]
    constructor
    · intro h
      obtain ⟨txid, result, hresult, members, rfl, v, hv, rfl⟩ := h
      exact ⟨members, txid, hresult, hv⟩
    · intro h
      obtain ⟨members, txid, hresult, hv⟩ := h
      exact ⟨txid, _, hresult, members, rfl, _, hv, rfl⟩
  · simp only [resultString_eq_ok_iff]

theorem ends_fundContract (p : FundParams) (conf : RpcConf)
    (lockTime : Int) (secHash : Bytes) :
    Ends (fundContract ssl p conf lockTime secHash) (fun _ _ => True) env w ↔
      FundReadable conf env w.calls.length := by
  -- the fields filled in before the call make no call
  have hcall (w : World) :
      Ends (do
          let reply ← callChecked conf
            (fundCall p conf ((contractAddress ssl conf.type
              (fundedContract ssl p conf.type lockTime secHash)).toString ssl)).method
            (fundCall p conf ((contractAddress ssl conf.type
              (fundedContract ssl p conf.type lockTime secHash)).toString ssl)).params
          let txid ← raise (fundTxid conf reply)
          setResponse "txid" (.string txid)) (fun _ _ => True) env w ↔
        FundReadable conf env w.calls.length := by
    rw [ends_bind (m := fun reply _ => FundTxidReadable conf reply), ends_callChecked,
      FundReadable]
    intro reply w'
    rw [ends_bind (m := fun _ _ => True) (fun _ _ => ends_setResponse), ends_raise]
    simp only [and_true, fundTxid_ok_iff]
  rw [fundContract, ends_bind (m := fun _ n => FundReadable conf env n), ends_setResponse]
  intro _ w₁
  rw [ends_bind (m := fun _ n => FundReadable conf env n), ends_setResponse]
  intro _ w₂
  rw [ends_bind (m := fun _ n => FundReadable conf env n), ends_setResponse]
  intro _ w₃
  exact hcall w₃

theorem ends_initiate (p : FundParams) (conf : RpcConf) :
    Ends (initiate ssl p conf) (fun _ _ => True) env w ↔ FundReadable conf env w.calls.length := by
  rw [initiate, ends_bind (m := fun _ n => FundReadable conf env n), ends_ask]
  intro env' w₁
  rw [ends_bind (m := fun _ n => FundReadable conf env n), ends_setResponse]
  intro _ w₂
  rw [ends_bind (m := fun _ n => FundReadable conf env n), ends_setResponse]
  intro _ w₃
  exact ends_fundContract ssl p conf _ _

theorem ends_participate (p : FundParams) (secHash : Str)
    (conf : RpcConf) :
    Ends (participate ssl p secHash conf) (fun _ _ => True) env w ↔
      FundReadable conf env w.calls.length := by
  rw [participate, ends_bind (m := fun _ n => FundReadable conf env n), ends_ask]
  intro env' w₁
  exact ends_fundContract ssl p conf _ _

end

/-! ## Fetching a transaction -/

/-- What `fetchTransaction` reads; the decoded transaction is read as `k`. -/
def FetchReadable (env : Env) (n : Nat) (k : Object → Prop) : Prop :=
  StringCall env n fun _ => CheckedCall env (n + 1) fun reply =>
    ∃ tx, reply.lookup "result" = some (.object tx) ∧ k tx

theorem ends_fetchTransaction {env : Env} {w : World} {conf : RpcConf}
    {txid : Str} {k : Object → Nat → Prop} :
    Ends (fetchTransaction conf txid) k env w ↔
      FetchReadable env w.calls.length fun tx => k tx (w.calls.length + 2) := by
  have hobject (reply : Object) (w' : World) :
      Ends (raise (do
          let txResult ← Object.at' reply "result"
          txResult.getObject)) k env w' ↔
        ∃ tx, reply.lookup "result" = some (.object tx) ∧ k tx w'.calls.length := by
    rw [ends_raise]
    simp only [except_bind_eq_ok_iff, Object.at'_eq_ok_iff, Json.getObject_eq_ok_iff]
    constructor
    · intro h
      obtain ⟨tx, ⟨_, hresult, rfl⟩, hk⟩ := h
      exact ⟨tx, hresult, hk⟩
    · intro h
      obtain ⟨tx, hresult, hk⟩ := h
      exact ⟨tx, ⟨_, hresult, rfl⟩, hk⟩
  have hdecode (w' : World) (rawtx : Str) :
      Ends (do
          let txReply ← callChecked conf "decoderawtransaction" [.string rawtx]
          raise (do
            let txResult ← Object.at' txReply "result"
            txResult.getObject)) k env w' ↔
        CheckedCall env w'.calls.length fun reply =>
          ∃ tx, reply.lookup "result" = some (.object tx) ∧ k tx (w'.calls.length + 1) := by
    rw [ends_bind (m := fun reply n => ∃ tx, reply.lookup "result" = some (.object tx) ∧ k tx n)
      hobject, ends_callChecked]
  rw [fetchTransaction, ends_bind (m := fun reply n =>
    ∃ s, reply.lookup "result" = some (.string s) ∧ CheckedCall env n fun reply =>
      ∃ tx, reply.lookup "result" = some (.object tx) ∧ k tx (n + 1)), ends_callChecked]
  · rfl
  · intro rawtxReply w₁
    rw [ends_bind (m := fun _ n => CheckedCall env n fun reply =>
      ∃ tx, reply.lookup "result" = some (.object tx) ∧ k tx (n + 1)), ends_raise]
    · simp only [resultString_eq_ok_iff]
    · intro rawtx w₂
      exact hdecode w₂ rawtx

/-! ## ExtractSecret -/

/-- An input with the text of its script, of three words at least. -/
def InputReadable (vin : Json) : Prop :=
  ∃ members scriptSig asm, vin = .object members ∧
    members.lookup "scriptSig" = some (.object scriptSig) ∧
    scriptSig.lookup "asm" = some (.string asm) ∧ 2 < (asm.splitOn 0x20).length

/-- What `ExtractSecret` reads: of a transaction with one input, that input. -/
def ExtractReadable (env : Env) (n : Nat) : Prop :=
  FetchReadable env n fun tx =>
    ∃ vins, tx.lookup "vin" = some (.array vins) ∧ ∀ vin, vins = [vin] → InputReadable vin

section

variable (ssl : OpenSSL) {env : Env} {w : World}

/-- What follows in ExtractSecret once the transaction has one input. -/
theorem ends_readSecret (secHashStr : Str) (vin : Json) (env' : Env) :
    Ends (do
        let sigAsm ← raise (do
          let vin ← vin.getObject
          let scriptSig ← Object.at' vin "scriptSig"
          let scriptSig ← scriptSig.getObject
          let asm ← Object.at' scriptSig "asm"
          asm.getString)
        let vSigs := sigAsm.splitOn 0x20
        let secStrTmp ← raise (match vSigs[2]? with
          | some s => .ok s
          | none => .error .badIndex)
        let secHashVec := (ssl.ripemd160 (hashedSecret env' (parseHex secStrTmp))).bytes
        if hexStr secHashVec = secHashStr then setResponse "secret" (.string secStrTmp)
        else atoError (str "Secret hash not equal.")) (fun _ _ => True) env w ↔
      InputReadable vin := by
  have hword (sigAsm : Str) (w₁ : World) :
      Ends (do
          let secStrTmp ← raise (match (sigAsm.splitOn 0x20)[2]? with
            | some s => .ok s
            | none => .error .badIndex)
          let secHashVec := (ssl.ripemd160 (hashedSecret env' (parseHex secStrTmp))).bytes
          if hexStr secHashVec = secHashStr then setResponse "secret" (.string secStrTmp)
          else atoError (str "Secret hash not equal.")) (fun _ _ => True) env w₁ ↔
        2 < (sigAsm.splitOn 0x20).length := by
    rw [ends_bind (m := fun _ _ => True), ends_raise]
    · cases hthird : (sigAsm.splitOn 0x20)[2]? with
      | none =>
        have hle := List.getElem?_eq_none_iff.mp hthird
        simp only [reduceCtorEq, false_and, exists_false, false_iff]
        omega
      | some s =>
        obtain ⟨hlt, _⟩ := List.getElem?_eq_some_iff.mp hthird
        simp [hlt]
    · intro secStrTmp w₂
      rw [ends_ite, ends_atoError, ends_setResponse]
      simp
  rw [ends_bind (m := fun sigAsm _ => 2 < (sigAsm.splitOn 0x20).length) hword, ends_raise,
    InputReadable]
  simp only [except_bind_eq_ok_iff, Object.at'_eq_ok_iff, Json.getObject_eq_ok_iff,
    Json.getString_eq_ok_iff]
  constructor
  · intro h
    obtain ⟨asm, ⟨members, rfl, _, hscriptSig, scriptSig, rfl, _, hasm, rfl⟩, hlen⟩ := h
    exact ⟨members, scriptSig, asm, rfl, hscriptSig, hasm, hlen⟩
  · intro h
    obtain ⟨members, scriptSig, asm, rfl, hscriptSig, hasm, hlen⟩ := h
    exact ⟨asm, ⟨members, rfl, _, hscriptSig, scriptSig, rfl, _, hasm, rfl⟩, hlen⟩

theorem ends_extractSecret (txid secHashStr : Str) (conf : RpcConf) :
    Ends (extractSecret ssl txid secHashStr conf) (fun _ _ => True) env w ↔
      ExtractReadable env w.calls.length := by
  -- two calls, then the list of inputs
  rw [extractSecret, ends_bind (m := fun _ n => ExtractReadable env n), ends_ask]
  intro env' w₁
  rw [ends_bind (m := fun tx _ => ∃ vins, tx.lookup "vin" = some (.array vins) ∧
    ∀ vin, vins = [vin] → InputReadable vin), ends_fetchTransaction, ExtractReadable]
  intro tx w₂
  rw [ends_bind (m := fun vins _ => ∀ vin, vins = [vin] → InputReadable vin), ends_raise]
  · simp only [except_bind_eq_ok_iff, Object.at'_eq_ok_iff, Json.getArray_eq_ok_iff]
    constructor
    · intro hgiven
      obtain ⟨vins, ⟨_, hvins, rfl⟩, h⟩ := hgiven
      exact ⟨vins, hvins, h⟩
    · intro hgiven
      obtain ⟨vins, hvins, h⟩ := hgiven
      exact ⟨vins, ⟨_, hvins, rfl⟩, h⟩
  · intro vins w₃
    -- any number of inputs but one is refused
    cases vins with
    | nil =>
      rw [ends_atoError]
      simp
    | cons vin vins =>
      cases vins with
      | nil =>
        refine (ends_readSecret ssl secHashStr vin env').trans ?_
        simp
      | cons vin' vins =>
        rw [ends_atoError]
        simp

end

/-! ## Loops over outputs -/

/-- A number. -/
def IsNumber (v : Json) : Prop := ∃ q, v.getReal = .ok q

/-- Every element up to the first that is wanted is readable. -/
def UpToFirst {α : Type} (wanted readable : α → Prop) : List α → Prop
  | [] => True
  | a :: as => readable a ∧ (¬ wanted a → UpToFirst wanted readable as)

section

variable (ssl : OpenSSL) (contractAddress : CBitcoinAddress)

/-- An output that pays to the contract: P2SH, with the contract's address alone. -/
def PaysContract (vout : Json) : Prop :=
  ∃ out scriptPubKey hex address, vout = .object out ∧
    out.lookup "scriptPubKey" = some (.object scriptPubKey) ∧
    scriptPubKey.lookup "hex" = some (.string hex) ∧
    scriptPubKey.lookup "addresses" = some (.array [.string address]) ∧
    CScript.isPayToScriptHash (parseHex hex) = true ∧
    (CBitcoinAddress.ofString ssl address).equals contractAddress = true

/-- An output with all the members the loop reads; where there is one address, it is a
    text. -/
def OutputReadable (vout : Json) : Prop :=
  ∃ out value scriptPubKey hex addresses, vout = .object out ∧
    out.lookup "scriptPubKey" = some (.object scriptPubKey) ∧
    out.lookup "value" = some value ∧ IsNumber value ∧
    scriptPubKey.lookup "addresses" = some (.array addresses) ∧
    scriptPubKey.lookup "hex" = some (.string hex) ∧
    ∀ a, addresses = [a] → ∃ address, a = .string address

/-- An output whose script comes as a text too. -/
def AsmReadable (vout : Json) : Prop :=
  ∀ out scriptPubKey, vout = .object out →
    out.lookup "scriptPubKey" = some (.object scriptPubKey) →
    ∃ asm, scriptPubKey.lookup "asm" = some (.string asm)

/-- What the loop over the outputs reads. -/
def OutputsReadable (vouts : List Json) : Prop :=
  UpToFirst (PaysContract ssl contractAddress)
    (fun vout => OutputReadable vout ∧ (PaysContract ssl contractAddress vout → AsmReadable vout))
    vouts

section

variable {ssl contractAddress} {out scriptPubKey : Object} {hex : Str} {addresses : List Json}

/-- An output with these members pays to the contract. -/
theorem paysContract_iff (hspk : out.lookup "scriptPubKey" = some (.object scriptPubKey))
    (haddresses : scriptPubKey.lookup "addresses" = some (.array addresses))
    (hhex : scriptPubKey.lookup "hex" = some (.string hex)) :
    PaysContract ssl contractAddress (.object out) ↔
      ∃ address, addresses = [.string address] ∧
        (CScript.isPayToScriptHash (parseHex hex) &&
          (CBitcoinAddress.ofString ssl address).equals contractAddress) = true := by
  simp only [Bool.and_eq_true]
  constructor
  · intro h
    obtain ⟨_, _, _, address, heq, hspk', hhex', haddresses', hp2sh, hequals⟩ := h
    cases heq
    rw [hspk] at hspk'
    cases hspk'
    rw [hhex] at hhex'
    cases hhex'
    rw [haddresses] at haddresses'
    cases haddresses'
    exact ⟨address, rfl, hp2sh, hequals⟩
  · intro h
    obtain ⟨address, rfl, hp2sh, hequals⟩ := h
    exact ⟨out, scriptPubKey, hex, address, rfl, hspk, hhex, haddresses, hp2sh, hequals⟩

theorem asmReadable_iff (hspk : out.lookup "scriptPubKey" = some (.object scriptPubKey)) :
    AsmReadable (.object out) ↔ ∃ asm, scriptPubKey.lookup "asm" = some (.string asm) := by
  constructor
  · intro h
    exact h out scriptPubKey rfl hspk
  · intro h _ _ heq hspk'
    cases heq
    rw [hspk] at hspk'
    cases hspk'
    exact h

end

section

variable {ssl contractAddress} {i : Nat} {vout : Json} {vouts : List Json}

/-- An output that does not pay to the contract is passed over. -/
theorem contractOut_of_not_pays (hread : OutputReadable vout)
    (hpays : ¬ PaysContract ssl contractAddress vout) :
    contractOut ssl contractAddress i (vout :: vouts) =
      contractOut ssl contractAddress (i + 1) vouts := by
  obtain ⟨out, value, spk, hex, addresses, rfl, hspk, hvalue, ⟨q, hq⟩, haddresses, hhex, hone⟩ :=
    hread
  rw [paysContract_iff hspk haddresses hhex] at hpays
  simp only [contractOut, Json.getObject, Object.at', hspk, hvalue, hq, haddresses, hhex,
    Json.getString, Json.getArray, bind, Except.bind]
  -- only one address that is the contract's stops the loop
  rcases addresses with _ | ⟨a, _ | ⟨a', as⟩⟩
  · rfl
  · obtain ⟨address, rfl⟩ := hone a rfl
    exact if_neg fun htest => hpays ⟨address, rfl, htest⟩
  · rfl

/-- The first output that pays to the contract is the result. -/
theorem contractOut_of_pays (hread : OutputReadable vout) (hasm : AsmReadable vout)
    (hpays : PaysContract ssl contractAddress vout) :
    ∃ q, contractOut ssl contractAddress i (vout :: vouts) = .ok (some (i, q)) := by
  obtain ⟨out, value, spk, hex, addresses, rfl, hspk, hvalue, ⟨q, hq⟩, haddresses, hhex, hone⟩ :=
    hread
  obtain ⟨address, rfl, htest⟩ := (paysContract_iff hspk haddresses hhex).mp hpays
  obtain ⟨asm, hasm⟩ := (asmReadable_iff hspk).mp hasm
  refine ⟨q, ?_⟩
  simp only [contractOut, Json.getObject, Object.at', hspk, hvalue, hq, haddresses, hhex,
    Json.getString, Json.getArray, bind, Except.bind, htest, hasm, ↓reduceIte]
  rfl

/-- The loop reads the whole of an output before it goes on. -/
theorem outputReadable_of_contractOut {found : Option (Nat × ℚ)}
    (h : contractOut ssl contractAddress i (vout :: vouts) = .ok found) :
    OutputReadable vout ∧ (PaysContract ssl contractAddress vout → AsmReadable vout) := by
  simp only [contractOut, except_bind_eq_ok_iff, Object.at'_eq_ok_iff,
    Json.getObject_eq_ok_iff, Json.getString_eq_ok_iff, Json.getArray_eq_ok_iff] at h
  obtain ⟨out, rfl, _, hspk, value, hvalue, q, hq, spk, rfl, _, haddresses, _, hhex, hex, rfl,
    addresses, rfl, hmatch⟩ := h
  rw [paysContract_iff hspk haddresses hhex, asmReadable_iff hspk]
  split at hmatch
  · rename_i a
    obtain ⟨address, ha, htest⟩ := except_bind_eq_ok_iff.mp hmatch
    obtain rfl := Json.getString_eq_ok_iff.mp ha
    refine ⟨⟨out, value, spk, hex, _, rfl, hspk, hvalue, ⟨q, hq⟩, haddresses, hhex, ?_⟩, ?_⟩
    · intro a' ha'
      cases ha'
      exact ⟨address, rfl⟩
    · -- the contract's output is printed with its "asm"
      intro hgiven
      obtain ⟨address', haddress', hpays⟩ := hgiven
      cases haddress'
      rw [if_pos hpays] at htest
      simp only [except_bind_eq_ok_iff, Object.at'_eq_ok_iff, Json.getString_eq_ok_iff] at htest
      obtain ⟨_, hasm, asm, rfl, _⟩ := htest
      exact ⟨asm, hasm⟩
  · rename_i hnot
    refine ⟨⟨out, value, spk, hex, _, rfl, hspk, hvalue, ⟨q, hq⟩, haddresses, hhex, ?_⟩, ?_⟩
    · intro a ha
      exact absurd ha (hnot a)
    · intro hgiven
      obtain ⟨address, ha, _⟩ := hgiven
      exact absurd ha (hnot _)

/-- One round of the loop over the outputs. -/
theorem contractOut_cons_ok_iff :
    (∃ found, contractOut ssl contractAddress i (vout :: vouts) = .ok found) ↔
      (OutputReadable vout ∧ (PaysContract ssl contractAddress vout → AsmReadable vout)) ∧
        (¬ PaysContract ssl contractAddress vout →
          ∃ found, contractOut ssl contractAddress (i + 1) vouts = .ok found) := by
  constructor
  · intro hgiven
    obtain ⟨found, h⟩ := hgiven
    have hread := outputReadable_of_contractOut h
    refine ⟨hread, ?_⟩
    intro hpays
    rw [contractOut_of_not_pays hread.1 hpays] at h
    exact ⟨found, h⟩
  · intro hgiven
    obtain ⟨⟨hread, hasm⟩, hnext⟩ := hgiven
    by_cases hpays : PaysContract ssl contractAddress vout
    · have hfound : ∃ q, contractOut ssl contractAddress i (vout :: vouts) = .ok (some (i, q)) :=
        contractOut_of_pays hread (hasm hpays) hpays
      obtain ⟨q, hfound⟩ := hfound
      exact ⟨_, hfound⟩
    · rw [contractOut_of_not_pays hread hpays]
      exact hnext hpays

end

/-- The loop over the outputs ends without an exception. -/
theorem contractOut_ok_iff (i : Nat) (vouts : List Json) :
    (∃ found, contractOut ssl contractAddress i vouts = .ok found) ↔
      OutputsReadable ssl contractAddress vouts := by
  induction vouts generalizing i with
  | nil => simp [contractOut, OutputsReadable, UpToFirst]
  | cons vout vouts ih =>
    rw [contractOut_cons_ok_iff, ih (i + 1)]
    rfl

end

/-! ## Redeem and Refund up to the signature -/

/-- `ISAtomicSwap` reads no byte past the end before it finds a wrong one. -/
def ContractReadable (s : CScript) : Prop :=
  81 ≤ s.length ∨ ∃ p ∈ CScript.atomicSwapBytes, p.1 < s.length ∧ s[p.1]? ≠ some p.2

theorem isAtomicSwap_ok_iff {s : CScript} :
    (∃ b, CScript.isAtomicSwap s = .ok b) ↔ ContractReadable s := by
  constructor
  · intro hgiven
    obtain ⟨b, h⟩ := hgiven
    cases b with
    | true => exact .inl (length_of_isAtomicSwap h)
    | false => exact .inr (CScript.exists_of_atAll_eq_false h)
  · intro h
    -- either every tested byte is right, or the first wrong one ends the chain
    by_cases hall : ∀ p ∈ CScript.atomicSwapBytes, s[p.1]? = some p.2
    · exact ⟨true, (CScript.atAll_eq_true_iff _ _).mpr hall⟩
    · have hwrong : ∃ p ∈ CScript.atomicSwapBytes, p.1 < s.length ∧ s[p.1]? ≠ some p.2 := by
        rcases h with hlen | hwrong
        · push Not at hall
          obtain ⟨p, hp, hne⟩ := hall
          have hpos : ∀ q ∈ CScript.atomicSwapBytes, q.1 < 81 := by decide
          exact ⟨p, hp, Nat.lt_of_lt_of_le (hpos p hp) hlen, hne⟩
        · exact hwrong
      exact ⟨false, CScript.atAll_eq_false CScript.atomicSwapBytes_sorted hwrong⟩

/-- A call for a private key; if the text is a key's, it is read as `k`. -/
def KeyCall (ssl : OpenSSL) (conf : RpcConf) (env : Env) (n : Nat) (k : CBitcoinSecret → Prop) :
    Prop :=
  StringCall env n fun prikey =>
    ∀ secret, CBitcoinSecret.setString ssl prikey conf.type = some secret → k secret

/-- What finding the contract's output reads; its index and amount are read as `k`. -/
def FindReadable (ssl : OpenSSL) (conf : RpcConf) (contract : CScript) (env : Env) (n : Nat)
    (k : Nat → ℚ → Prop) : Prop :=
  FetchReadable env n fun tx => ∃ vouts, tx.lookup "vout" = some (.array vouts) ∧
    OutputsReadable ssl (contractAddress ssl conf.type contract) vouts ∧
    ∀ i amount, contractOut ssl (contractAddress ssl conf.type contract) 0 vouts =
      .ok (some (i, amount)) → k i amount

/-- What signing the contract's input reads: the key must be valid.  `k` is of the key and
    of the pushes of signature and public key. -/
def SignReadable (ssl : OpenSSL) (conf : RpcConf) (contract : CScript) (tx : CTransaction)
    (env : Env) (n : Nat) (k : CKey → CScript → Prop) : Prop :=
  KeyCall ssl conf env n fun secret => secret.getKey.fValid = true ∧
    ∀ pubKey, secret.getKey.getPubKey ssl = .ok pubKey →
      ∀ sig, secret.getKey.sign ssl (signatureHash ssl contract tx 0 sighashAll)
          sighashAll.toUInt8 = some sig →
        k secret.getKey (CScript.pushVec sig ++ CScript.pushVec pubKey)

/-- What Redeem and Refund read up to the signature of the contract's input, whose
    transaction is `unsigned`. -/
def SpendReadable (ssl : OpenSSL) (conf : RpcConf) (contract : CScript) (address : Str)
    (unsigned : Nat → ℚ → Uint160 → CTransaction) (env : Env) (n : Nat)
    (k : Uint160 → CTransaction → CKey → CScript → Prop) : Prop :=
  ContractReadable contract ∧ (CScript.isAtomicSwap contract = .ok true →
    FindReadable ssl conf contract env n fun i amount =>
      ∀ keyID, (CBitcoinAddress.ofString ssl address).getKeyID conf.type = some keyID →
        SignReadable ssl conf contract (unsigned i amount keyID) env (n + 2)
          (k keyID (unsigned i amount keyID)))

section

variable {ssl : OpenSSL} {conf : RpcConf} {env : Env} {w : World}

theorem ends_swapData {c : CScript} {k : AtomicSwapData → Nat → Prop} :
    Ends (swapData c) k env w ↔
      ContractReadable c ∧
        (CScript.isAtomicSwap c = .ok true → k (extractAtomicSwapData c) w.calls.length) := by
  have hdata (b : Bool) (w' : World) :
      Ends (if b then pure (extractAtomicSwapData c)
        else atoError (str "Contract is not atomicswap script.")) k env w' ↔
        (b = true → k (extractAtomicSwapData c) w'.calls.length) := by
    rw [ends_ite, ends_atoError, ends_pure]
    cases b <;> simp
  rw [swapData, ends_bind (m := fun b n => b = true → k (extractAtomicSwapData c) n) hdata,
    ends_raise, ← isAtomicSwap_ok_iff]
  constructor
  · intro hgiven
    obtain ⟨b, hb, h⟩ := hgiven
    refine ⟨⟨b, hb⟩, ?_⟩
    intro htrue
    rw [hb] at htrue
    exact h (Except.ok.inj htrue)
  · intro hgiven
    obtain ⟨⟨b, hb⟩, h⟩ := hgiven
    refine ⟨b, hb, ?_⟩
    intro heq
    subst heq
    exact h hb

theorem ends_findContractOut {c : CScript} {txid : Str}
    {k : Nat × ℚ → Nat → Prop} :
    Ends (findContractOut ssl conf c txid) k env w ↔
      FindReadable ssl conf c env w.calls.length fun i amount =>
        k (i, amount) (w.calls.length + 2) := by
  rw [findContractOut, ends_bind (m := fun tx n => ∃ vouts, tx.lookup "vout" = some (.array vouts) ∧
    OutputsReadable ssl (contractAddress ssl conf.type c) vouts ∧
    ∀ i amount, contractOut ssl (contractAddress ssl conf.type c) 0 vouts =
      .ok (some (i, amount)) → k (i, amount) n), ends_fetchTransaction, FindReadable]
  intro tx w'
  rw [ends_bind (m := fun found n => ∀ out, found = some out → k out n) (fun _ _ => ends_orFail),
    ends_raise]
  simp only [except_bind_eq_ok_iff, Object.at'_eq_ok_iff, Json.getArray_eq_ok_iff,
    ← contractOut_ok_iff ssl _ 0]
  constructor
  · intro hgiven
    obtain ⟨found, ⟨_, hvouts, vouts, rfl, hfound⟩, h⟩ := hgiven
    refine ⟨vouts, hvouts, ⟨found, hfound⟩, ?_⟩
    intro i amount hout
    rw [hfound] at hout
    exact h (i, amount) (Except.ok.inj hout)
  · intro hgiven
    obtain ⟨vouts, hvouts, ⟨found, hfound⟩, h⟩ := hgiven
    refine ⟨found, ⟨_, hvouts, vouts, rfl, hfound⟩, ?_⟩
    intro p heq
    obtain ⟨i, amount⟩ := p
    subst heq
    exact h i amount hfound

/-- Recognising the contract and finding its output. -/
theorem ends_found {c : CScript} {txid : Str} {α : Type}
    {f : AtomicSwapData → Nat × ℚ → Swap α} {k : α → Nat → Prop} {m : Nat → ℚ → Nat → Prop}
    (hf : ∀ i amount w', Ends (f (extractAtomicSwapData c) (i, amount)) k env w' ↔
      m i amount w'.calls.length) :
    Ends (swapData c >>= fun data => findContractOut ssl conf c txid >>= f data) k env w ↔
      ContractReadable c ∧ (CScript.isAtomicSwap c = .ok true →
        FindReadable ssl conf c env w.calls.length fun i amount =>
          m i amount (w.calls.length + 2)) := by
  rw [ends_bind_of_run (m := fun _ n => FindReadable ssl conf c env n fun i amount =>
    m i amount (n + 2)), ends_swapData]
  intro data w' hrun
  obtain ⟨_, rfl, _⟩ := swapData_eq_ok_iff.mp hrun
  rw [ends_bind (m := fun out n => m out.1 out.2 n), ends_findContractOut]
  intro p w''
  obtain ⟨i, amount⟩ := p
  exact hf i amount w''

theorem ends_dumpPrivKey {address : Str} {k : Str → Nat → Prop} :
    Ends (dumpPrivKey conf address) k env w ↔
      StringCall env w.calls.length fun s => k s (w.calls.length + 1) :=
  ends_stringCall

/-- The key must be valid, or `GetPubKey` asserts. -/
theorem ends_getPubKey {key : CKey} {k : Bytes → Nat → Prop} :
    Ends (raise (key.getPubKey ssl)) k env w ↔
      key.fValid = true ∧ ∀ pubKey, key.getPubKey ssl = .ok pubKey → k pubKey w.calls.length := by
  rw [ends_raise, CKey.getPubKey]
  cases key.fValid <;> simp

/-- Signing, and what is done with the signature of a valid key. -/
theorem ends_signContract {c : CScript} {keyHash : Bytes}
    {tx : CTransaction} {α : Type} {f : CKey × Bytes × Bytes → Swap α} {k : α → Nat → Prop}
    {m : CKey → CScript → Nat → Prop}
    (hf : ∀ key pubKey sig w', key.fValid = true → key.getPubKey ssl = .ok pubKey →
      (Ends (f (key, pubKey, sig)) k env w' ↔
        m key (CScript.pushVec sig ++ CScript.pushVec pubKey) w'.calls.length)) :
    Ends (signContract ssl conf c keyHash tx >>= f) k env w ↔
      SignReadable ssl conf c tx env w.calls.length fun key pushes =>
        m key pushes (w.calls.length + 1) := by
  rw [ends_bind_of_run (m := fun r n =>
    m r.1 (CScript.pushVec r.2.2 ++ CScript.pushVec r.2.1) n)]
  · rw [signContract, ends_bind (m := fun prikey n =>
      ∀ secret, CBitcoinSecret.setString ssl prikey conf.type = some secret →
        secret.getKey.fValid = true ∧ ∀ pubKey, secret.getKey.getPubKey ssl = .ok pubKey →
          ∀ sig, secret.getKey.sign ssl (signatureHash ssl c tx 0 sighashAll)
            sighashAll.toUInt8 = some sig →
            m secret.getKey (CScript.pushVec sig ++ CScript.pushVec pubKey) n),
      ends_dumpPrivKey]
    · rfl
    -- the text, the key in it, the public key, the signature
    intro prikey w₁
    rw [ends_bind (m := fun secret n =>
      secret.getKey.fValid = true ∧ ∀ pubKey, secret.getKey.getPubKey ssl = .ok pubKey →
        ∀ sig, secret.getKey.sign ssl (signatureHash ssl c tx 0 sighashAll)
          sighashAll.toUInt8 = some sig →
          m secret.getKey (CScript.pushVec sig ++ CScript.pushVec pubKey) n), ends_orFail]
    intro secret w₂
    rw [ends_bind (m := fun pubKey n =>
      ∀ sig, secret.getKey.sign ssl (signatureHash ssl c tx 0 sighashAll)
        sighashAll.toUInt8 = some sig →
        m secret.getKey (CScript.pushVec sig ++ CScript.pushVec pubKey) n), ends_getPubKey]
    intro pubKey w₃
    rw [ends_bind (m := fun sig n =>
      m secret.getKey (CScript.pushVec sig ++ CScript.pushVec pubKey) n), ends_orFail]
    intro sig w₄
    exact ends_pure
  · intro p w' hrun
    obtain ⟨key, pubKey, sig⟩ := p
    -- a public key was computed, so the key is valid
    obtain ⟨_, _, _, _, _, hpub, _⟩ := signContract_eq_ok_iff.mp hrun
    have hvalid : key.fValid = true := by
      by_contra hinvalid
      rw [CKey.getPubKey, if_neg hinvalid] at hpub
      cases hpub
    exact hf key pubKey sig w' hvalid hpub

/-- A public key always fits its push. -/
theorem ends_pushPubKey {key : CKey} {pubKey : Bytes} (h : key.getPubKey ssl = .ok pubKey)
    {k : CScript → Nat → Prop} :
    Ends (raise (CScript.pushPubKey pubKey)) k env w ↔
      k (CScript.pushVec pubKey) w.calls.length := by
  have hlen : pubKey.length < opPushData1.toNat := by
    have hpub := CKey.length_getPubKey ssl h
    change pubKey.length < 76
    omega
  have hpush : CScript.pushPubKey pubKey = .ok (CScript.pushVec pubKey) := by
    rw [CScript.pushPubKey, if_pos hlen, CScript.pushVec_of_lt hlen]
  rw [ends_raise, hpush]
  simp

end

/-! ## The fee input -/

/-- An unspent output whose amount covers the threshold. -/
def CoversFee (unspent : Json) : Prop :=
  ∃ entry amount q, unspent = .object entry ∧ entry.lookup "amount" = some amount ∧
    amount.getReal = .ok q ∧ q ≥ ((blackcoinMinTxFee / coin : Int) : ℚ)

/-- An unspent output with an amount. -/
def AmountReadable (unspent : Json) : Prop :=
  ∃ entry amount, unspent = .object entry ∧ entry.lookup "amount" = some amount ∧ IsNumber amount

/-- What the loop over the unspent outputs reads. -/
def UnspentsReadable (unspents : List Json) : Prop :=
  UpToFirst CoversFee AmountReadable unspents

/-- What one entry decides: the first that covers the fee is the result, any other is
    passed over. -/
theorem feeUnspent_cons {i : Nat} {entry : Object} {amount : Json} {q : ℚ} (unspents : List Json)
    (hamount : entry.lookup "amount" = some amount) (hq : amount.getReal = .ok q) :
    feeUnspent i (.object entry :: unspents) =
      if q ≥ ((blackcoinMinTxFee / coin : Int) : ℚ) then .ok (some (i, .object entry))
      else feeUnspent (i + 1) unspents := by
  simp only [feeUnspent, Json.getObject, Object.at', hamount, hq, bind, Except.bind]
  rfl

theorem coversFee_iff {entry : Object} {amount : Json} {q : ℚ}
    (hamount : entry.lookup "amount" = some amount) (hq : amount.getReal = .ok q) :
    CoversFee (.object entry) ↔ q ≥ ((blackcoinMinTxFee / coin : Int) : ℚ) := by
  constructor
  · intro h
    obtain ⟨_, _, q', heq, hamount', hq', hcovers⟩ := h
    cases heq
    rw [hamount] at hamount'
    cases hamount'
    rw [hq] at hq'
    cases hq'
    exact hcovers
  · intro hcovers
    exact ⟨entry, amount, q, rfl, hamount, hq, hcovers⟩

/-- One round of the loop over the unspent outputs. -/
theorem feeUnspent_cons_ok_iff {i : Nat} {unspent : Json} {unspents : List Json} :
    (∃ found, feeUnspent i (unspent :: unspents) = .ok found) ↔
      AmountReadable unspent ∧
        (¬ CoversFee unspent → ∃ found, feeUnspent (i + 1) unspents = .ok found) := by
  constructor
  · intro hgiven
    obtain ⟨found, h⟩ := hgiven
    have hread := h
    simp only [feeUnspent, except_bind_eq_ok_iff, Object.at'_eq_ok_iff,
      Json.getObject_eq_ok_iff] at hread
    obtain ⟨entry, rfl, amount, hamount, q, hq, _⟩ := hread
    refine ⟨⟨entry, amount, rfl, hamount, q, hq⟩, ?_⟩
    intro hless
    rw [coversFee_iff hamount hq] at hless
    rw [feeUnspent_cons unspents hamount hq, if_neg hless] at h
    exact ⟨found, h⟩
  · intro hgiven
    obtain ⟨⟨entry, amount, rfl, hamount, q, hq⟩, hnext⟩ := hgiven
    rw [coversFee_iff hamount hq] at hnext
    rw [feeUnspent_cons unspents hamount hq]
    by_cases hcovers : q ≥ ((blackcoinMinTxFee / coin : Int) : ℚ)
    · rw [if_pos hcovers]
      exact ⟨_, rfl⟩
    · rw [if_neg hcovers]
      exact hnext hcovers

/-- The loop over the unspent outputs ends without an exception. -/
theorem feeUnspent_ok_iff (i : Nat) (unspents : List Json) :
    (∃ found, feeUnspent i unspents = .ok found) ↔ UnspentsReadable unspents := by
  induction unspents generalizing i with
  | nil => simp [feeUnspent, UnspentsReadable, UpToFirst]
  | cons unspent unspents ih =>
    rw [feeUnspent_cons_ok_iff, ih (i + 1)]
    rfl

/-- The members of the entry that Redeem spends. -/
def ReadsEntry (unspent : Json) (entry : FeeEntry) : Prop :=
  ∃ members amount, unspent = .object members ∧
    members.lookup "txid" = some (.string entry.txid) ∧
    members.lookup "scriptPubKey" = some (.string entry.scriptPubKey) ∧
    members.lookup "address" = some (.string entry.address) ∧
    members.lookup "amount" = some amount ∧ amount.getReal = .ok entry.amount

theorem readFeeEntry_eq_ok_iff {unspent : Json} {entry : FeeEntry} :
    readFeeEntry unspent = .ok entry ↔ ReadsEntry unspent entry := by
  simp only [readFeeEntry, except_bind_eq_ok_iff, Object.at'_eq_ok_iff, Json.getObject_eq_ok_iff,
    Json.getString_eq_ok_iff]
  constructor
  · intro hgiven
    obtain ⟨members, rfl, _, htxid, txid, rfl, _, hscript, script, rfl, _, haddress, address, rfl,
      amount, hamount, q, hq, h⟩ := hgiven
    cases h
    exact ⟨members, amount, rfl, htxid, hscript, haddress, hamount, hq⟩
  · intro hgiven
    obtain ⟨members, amount, rfl, htxid, hscript, haddress, hamount, hq⟩ := hgiven
    exact ⟨members, rfl, _, htxid, _, rfl, _, hscript, _, rfl, _, haddress, _, rfl, amount, hamount,
      _, hq, rfl⟩

/-- What the fee branch reads; `k` if it ends with a transaction. -/
def FeeReadable (ssl : OpenSSL) (conf : RpcConf) (keyID : Uint160) (key : CKey)
    (tx : CTransaction) (env : Env) (n : Nat) (k : Prop) : Prop :=
  UncheckedCall env n fun reply => ∃ unspents, reply.lookup "result" = some (.array unspents) ∧
    UnspentsReadable unspents ∧
    ∀ i unspent, feeUnspent 0 unspents = .ok (some (i, unspent)) →
      ∃ entry, ReadsEntry unspent entry ∧
        ∀ id, (CBitcoinAddress.ofString ssl entry.address).getKeyID conf.type = some id →
          KeyCall ssl conf env (n + 1) fun _ =>
            ∀ sig, key.sign ssl (signatureHash ssl (parseHex entry.scriptPubKey)
              (feeTransaction conf keyID entry i tx) 1 sighashAll) sighashAll.toUInt8 = some sig → k

section

variable {ssl : OpenSSL} {conf : RpcConf} {env : Env} {w : World}

/-- The fee branch from the entry's fields on. -/
theorem ends_spendFee {keyID : Uint160} {key : CKey}
    (hvalid : key.fValid = true) {tx : CTransaction} {entry : FeeEntry} {i : Nat}
    {k : Nat → Prop} :
    Ends (do
        let _ ← orFail ((CBitcoinAddress.ofString ssl entry.address).getKeyID conf.type)
          "Get redeem key error when redeem."
        let feePrikeyStr ← dumpPrivKey conf entry.address
        let _ ← orFail (CBitcoinSecret.setString ssl feePrikeyStr conf.type)
          "Set fee private key error when redeem."
        let _ ← raise (key.getPubKey ssl)
        let sig ← orFail (key.sign ssl (signatureHash ssl (parseHex entry.scriptPubKey)
          (feeTransaction conf keyID entry i tx) 1 sighashAll) sighashAll.toUInt8)
          "Sign error when redeem."
        return (feeTransaction conf keyID entry i tx).setScriptSig (CScript.pushVec sig))
      (fun _ n => k n) env w ↔
      ∀ id, (CBitcoinAddress.ofString ssl entry.address).getKeyID conf.type = some id →
        KeyCall ssl conf env w.calls.length fun _ =>
          ∀ sig, key.sign ssl (signatureHash ssl (parseHex entry.scriptPubKey)
            (feeTransaction conf keyID entry i tx) 1 sighashAll) sighashAll.toUInt8 = some sig →
            k (w.calls.length + 1) := by
  rw [ends_bind (m := fun _ n => KeyCall ssl conf env n fun _ =>
    ∀ sig, key.sign ssl (signatureHash ssl (parseHex entry.scriptPubKey)
      (feeTransaction conf keyID entry i tx) 1 sighashAll) sighashAll.toUInt8 = some sig →
      k (n + 1)), ends_orFail]
  intro _ w₁
  rw [ends_bind (m := fun prikey n =>
    ∀ secret, CBitcoinSecret.setString ssl prikey conf.type = some secret →
      ∀ sig, key.sign ssl (signatureHash ssl (parseHex entry.scriptPubKey)
        (feeTransaction conf keyID entry i tx) 1 sighashAll) sighashAll.toUInt8 = some sig → k n),
    ends_dumpPrivKey]
  · rfl
  intro prikey w₂
  rw [ends_bind (m := fun _ n =>
    ∀ sig, key.sign ssl (signatureHash ssl (parseHex entry.scriptPubKey)
      (feeTransaction conf keyID entry i tx) 1 sighashAll) sighashAll.toUInt8 = some sig → k n),
    ends_orFail]
  intro _ w₃
  rw [ends_bind (m := fun _ n =>
    ∀ sig, key.sign ssl (signatureHash ssl (parseHex entry.scriptPubKey)
      (feeTransaction conf keyID entry i tx) 1 sighashAll) sighashAll.toUInt8 = some sig → k n),
    ends_getPubKey]
  · -- the recipient's key was used before
    have hpub : ∃ pubKey, key.getPubKey ssl = .ok pubKey := by
      rw [CKey.getPubKey, if_pos hvalid]
      exact ⟨_, rfl⟩
    obtain ⟨pubKey, hpub⟩ := hpub
    constructor
    · intro hgiven
      obtain ⟨_, h⟩ := hgiven
      exact h pubKey hpub
    · intro h
      exact ⟨hvalid, fun _ _ => h⟩
  · intro _ w₄
    rw [ends_bind (m := fun _ n => k n) (fun _ _ => ends_pure), ends_orFail]

theorem ends_addFeeInput {keyID : Uint160} {key : CKey}
    (hvalid : key.fValid = true) {tx : CTransaction} {k : Nat → Prop} :
    Ends (addFeeInput ssl conf keyID key tx) (fun _ n => k n) env w ↔
      FeeReadable ssl conf keyID key tx env w.calls.length (k (w.calls.length + 2)) := by
  rw [addFeeInput, ends_bind (m := fun reply n => ∃ unspents,
    reply.lookup "result" = some (.array unspents) ∧ UnspentsReadable unspents ∧
    ∀ i unspent, feeUnspent 0 unspents = .ok (some (i, unspent)) →
      ∃ entry, ReadsEntry unspent entry ∧
        ∀ id, (CBitcoinAddress.ofString ssl entry.address).getKeyID conf.type = some id →
          KeyCall ssl conf env n fun _ =>
            ∀ sig, key.sign ssl (signatureHash ssl (parseHex entry.scriptPubKey)
              (feeTransaction conf keyID entry i tx) 1 sighashAll) sighashAll.toUInt8 = some sig →
              k (n + 1)), ends_callRPC]
  · rfl
  -- the loop, the entry it found, the entry's fields, the fee key
  intro reply w₁
  rw [ends_bind (m := fun found n => ∀ i unspent, found = some (i, unspent) →
      ∃ entry, ReadsEntry unspent entry ∧
        ∀ id, (CBitcoinAddress.ofString ssl entry.address).getKeyID conf.type = some id →
          KeyCall ssl conf env n fun _ =>
            ∀ sig, key.sign ssl (signatureHash ssl (parseHex entry.scriptPubKey)
              (feeTransaction conf keyID entry i tx) 1 sighashAll) sighashAll.toUInt8 = some sig →
              k (n + 1)), ends_raise]
  · simp only [except_bind_eq_ok_iff, Object.at'_eq_ok_iff, Json.getArray_eq_ok_iff,
      ← feeUnspent_ok_iff 0]
    constructor
    · intro hgiven
      obtain ⟨found, ⟨_, hresult, unspents, rfl, hfound⟩, h⟩ := hgiven
      refine ⟨unspents, hresult, ⟨found, hfound⟩, ?_⟩
      intro i unspent hout
      rw [hfound] at hout
      exact h i unspent (Except.ok.inj hout)
    · intro hgiven
      obtain ⟨unspents, hresult, ⟨found, hfound⟩, h⟩ := hgiven
      refine ⟨found, ⟨_, hresult, unspents, rfl, hfound⟩, ?_⟩
      intro i unspent heq
      subst heq
      exact h i unspent hfound
  · intro found w₂
    rw [ends_bind (m := fun out n => ∃ entry, ReadsEntry out.2 entry ∧
        ∀ id, (CBitcoinAddress.ofString ssl entry.address).getKeyID conf.type = some id →
          KeyCall ssl conf env n fun _ =>
            ∀ sig, key.sign ssl (signatureHash ssl (parseHex entry.scriptPubKey)
              (feeTransaction conf keyID entry out.1 tx) 1 sighashAll) sighashAll.toUInt8 =
                some sig → k (n + 1)), ends_orFail]
    · constructor
      · intro h i unspent heq
        subst heq
        exact h (i, unspent) rfl
      · intro h p heq
        obtain ⟨i, unspent⟩ := p
        subst heq
        exact h i unspent rfl
    · intro p w₃
      obtain ⟨i, unspent⟩ := p
      rw [ends_bind (m := fun entry n =>
        ∀ id, (CBitcoinAddress.ofString ssl entry.address).getKeyID conf.type = some id →
          KeyCall ssl conf env n fun _ =>
            ∀ sig, key.sign ssl (signatureHash ssl (parseHex entry.scriptPubKey)
              (feeTransaction conf keyID entry i tx) 1 sighashAll) sighashAll.toUInt8 =
                some sig → k (n + 1)), ends_raise]
      · simp only [readFeeEntry_eq_ok_iff]
      · intro entry w₄
        exact ends_spendFee hvalid

end

/-! ## Redeem and Refund -/

/-- What Redeem reads once the contract's input is signed. -/
def RedeemRestReadable (ssl : OpenSSL) (conf : RpcConf) (contract secret : CScript) (env : Env)
    (keyID : Uint160) (tx : CTransaction) (key : CKey) (pushes : CScript) (n : Nat) : Prop :=
  if conf.type = str "cfos" then
    FeeReadable ssl conf keyID key
      (tx.setScriptSig (pushes ++ CScript.pushVec secret ++ [opTrue] ++ CScript.pushVec contract))
      env n (StringCall env (n + 2) fun _ => True)
  else StringCall env n fun _ => True

/-- What Redeem reads. -/
def RedeemReadable (ssl : OpenSSL) (conf : RpcConf) (contract txid secret redeemAddress : Str)
    (env : Env) (n : Nat) : Prop :=
  SpendReadable ssl conf (parseHex contract) redeemAddress (redeemUnsigned conf env txid) env n
    fun keyID tx key pushes =>
      RedeemRestReadable ssl conf (parseHex contract) (parseHex secret) env keyID tx key pushes
        (n + 3)

/-- What Refund reads. -/
def RefundReadable (ssl : OpenSSL) (conf : RpcConf) (contract txid refundAddress : Str)
    (env : Env) (n : Nat) : Prop :=
  SpendReadable ssl conf (parseHex contract) refundAddress
    (refundUnsigned conf env (parseHex contract) txid) env n
    fun _ _ _ _ => StringCall env (n + 3) fun _ => True

section

variable {ssl : OpenSSL} {conf : RpcConf} {env : Env} {w : World}

theorem ends_broadcast (tx : CTransaction) :
    Ends (broadcast conf tx) (fun _ _ => True) env w ↔
      StringCall env w.calls.length fun _ => True := by
  have hrest (reply : Object) (w' : World) :
      Ends (do
          let txid ← raise (resultString reply)
          setResponse "txid" (.string txid)) (fun _ _ => True) env w' ↔
        ∃ s, reply.lookup "result" = some (.string s) ∧ True := by
    rw [ends_bind (m := fun _ _ => True) (fun _ _ => ends_setResponse), ends_raise]
    simp only [resultString_eq_ok_iff]
  rw [broadcast, ends_bind (m := fun reply _ =>
    ∃ s, reply.lookup "result" = some (.string s) ∧ True) hrest, ends_callChecked]
  rfl

theorem ends_redeem (contract txid secret redeemAddress : Str) :
    Ends (redeem ssl contract txid secret redeemAddress conf) (fun _ _ => True) env w ↔
      RedeemReadable ssl conf contract txid secret redeemAddress env w.calls.length := by
  rw [redeem, ends_bind (m := fun _ n => StringCall env n fun _ => True)
    (fun tx w' => ends_broadcast tx), redeemTransaction,
    ends_bind_of_run (m := fun _ n => RedeemReadable ssl conf contract txid secret redeemAddress
      env n), ends_ask]
  intro env' w₁ hask
  -- the environment read is the one the run has
  cases hask
  -- recognise the contract and find its output; the key hash; the signature
  refine ends_found (m := fun i amount n => ∀ keyID,
    (CBitcoinAddress.ofString ssl redeemAddress).getKeyID conf.type = some keyID →
      SignReadable ssl conf (parseHex contract) (redeemUnsigned conf env txid i amount keyID) env n
        fun key pushes => RedeemRestReadable ssl conf (parseHex contract) (parseHex secret) env
          keyID (redeemUnsigned conf env txid i amount keyID) key pushes (n + 1)) ?_
  intro i amount w₂
  rw [ends_bind (m := fun keyID n =>
    SignReadable ssl conf (parseHex contract) (redeemUnsigned conf env txid i amount keyID) env n
      fun key pushes => RedeemRestReadable ssl conf (parseHex contract) (parseHex secret) env
        keyID (redeemUnsigned conf env txid i amount keyID) key pushes (n + 1)), ends_orFail]
  intro keyID w₃
  refine ends_signContract (m := fun key pushes n => RedeemRestReadable ssl conf
    (parseHex contract) (parseHex secret) env keyID (redeemUnsigned conf env txid i amount keyID)
    key pushes n) ?_
  intro key pubKey sig w₄ hvalid hpub
  rw [ends_bind (m := fun pushKey n => RedeemRestReadable ssl conf (parseHex contract)
    (parseHex secret) env keyID (redeemUnsigned conf env txid i amount keyID) key
    (CScript.pushVec sig ++ pushKey) n), ends_pushPubKey hpub]
  intro pushKey w₅
  rw [ends_ite, ends_addFeeInput hvalid, RedeemRestReadable]
  rfl

theorem ends_refund (contract txid refundAddress : Str) :
    Ends (refund ssl contract txid refundAddress conf) (fun _ _ => True) env w ↔
      RefundReadable ssl conf contract txid refundAddress env w.calls.length := by
  rw [refund, ends_bind (m := fun _ n => StringCall env n fun _ => True)
    (fun tx w' => ends_broadcast tx), refundTransaction,
    ends_bind_of_run (m := fun _ n => RefundReadable ssl conf contract txid refundAddress env n),
    ends_ask]
  intro env' w₁ hask
  cases hask
  refine ends_found (m := fun i amount n => ∀ keyID,
    (CBitcoinAddress.ofString ssl refundAddress).getKeyID conf.type = some keyID →
      SignReadable ssl conf (parseHex contract)
        (refundUnsigned conf env (parseHex contract) txid i amount keyID) env n
        fun _ _ => StringCall env (n + 1) fun _ => True) ?_
  intro i amount w₂
  rw [ends_bind (m := fun keyID n => SignReadable ssl conf (parseHex contract)
    (refundUnsigned conf env (parseHex contract) txid i amount keyID) env n
    fun _ _ => StringCall env (n + 1) fun _ => True), ends_orFail]
  intro keyID w₃
  refine ends_signContract (m := fun _ _ n => StringCall env n fun _ => True) ?_
  intro key pubKey sig w₄ _ hpub
  rw [ends_bind (m := fun _ n => StringCall env n fun _ => True), ends_pushPubKey hpub]
  intro pushKey w₅
  exact ends_pure

end

end CrossChain
