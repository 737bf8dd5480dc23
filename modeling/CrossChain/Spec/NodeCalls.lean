import CrossChain.ForStd.Trace
import CrossChain.Native.JsonRpc

/-!
# The calls of a request

Which calls to the node each operation may make, in which order, as a script
that its runs begin and that a run that returns plays to the end; and that an
operation leaves alone what the handler has put into the response (`Performs`).
A handler makes no calls unless the parameters are read and pass its test
(`handle_mayPlay`).
-/

namespace CrossChain

/-- The calls an operation may make, one after the other. -/
abbrev CallScript := EnvM.Script RpcCall

/-! ## Scripts of the operations -/

section

variable (ssl : OpenSSL) (conf : RpcConf)

/-- A transaction and the node's decoding of it. -/
def fetchScript (txid : Str) : CallScript :=
  [(· = ⟨conf, "getrawtransaction", [.string txid]⟩),
    fun call => ∃ rawtx, call = ⟨conf, "decoderawtransaction", [.string rawtx]⟩]

/-- The private key of a key hash of the contract. -/
def keyScript (keyHash : Bytes) : CallScript :=
  [(· = ⟨conf, "dumpprivkey", [.string ((keyHashAddress conf.type keyHash).toString ssl)]⟩)]

/-- The coin that pays the fee of a cfos transaction, and its private key. -/
def feeScript : CallScript :=
  [(· = ⟨conf, "listunspent", [.string cfosFeeSym]⟩),
    fun call => ∃ address, call = ⟨conf, "dumpprivkey", [.string address]⟩]

/-- A transaction is sent. -/
def sendScript : CallScript :=
  [fun call => ∃ tx : CTransaction,
    call = ⟨conf, "sendrawtransaction", [.string (hexStr tx.serialize)]⟩]

def redeemScript (contract txid : Str) : CallScript :=
  fetchScript conf txid ++
    (keyScript ssl conf (extractAtomicSwapData (parseHex contract)).recipientPubKeyHash ++
      (if conf.type = str "cfos" then feeScript conf else [])) ++ sendScript conf

def refundScript (contract txid : Str) : CallScript :=
  fetchScript conf txid ++
    keyScript ssl conf (extractAtomicSwapData (parseHex contract)).refundPubKeyHash ++
    sendScript conf

/-- The address of a contract between the parties of `p` is paid the amount of `p`; `bound`
    says what is known of the lock time and the hash. -/
def fundScript (p : FundParams) (bound : Int → Bytes → Prop) : CallScript :=
  [fun call => ∃ lockTime secHash, bound lockTime secHash ∧
    call = fundCall p conf ((contractAddress ssl conf.type
      (fundedContract ssl p conf.type lockTime secHash)).toString ssl)]

/-- Initiate locks with the hash of a secret it has generated. -/
def initiateScript (p : FundParams) : CallScript :=
  fundScript ssl conf p fun _ secHash =>
    ∃ secret : Uint256, secHash = (ssl.ripemd160 secret.bytes).bytes

/-- Participate locks with the hash it was given. -/
def participateScript (p : FundParams) (secHash : Str) : CallScript :=
  fundScript ssl conf p fun _ hash => hash = parseHex secHash

end

/-! ## Performing them -/

/-- The members of a response that no operation writes. -/
def envelope : List String := ["jsonrpc", "id", "error"]

/-- The envelope is as it was. -/
def LeavesEnvelope (w w' : World) : Prop :=
  ∀ key ∈ envelope, w'.response.lookup key = w.response.lookup key

instance : Std.Refl LeavesEnvelope where
  refl _ := fun _ _ => rfl

instance : IsTrans World LeavesEnvelope where
  trans _ _ _ h h' := fun key hkey => (h' key hkey).trans (h key hkey)

theorem leaves_respond {w : World} {key : String} (v : Json) (h : key ∉ envelope) :
    LeavesEnvelope w (w.respond key v) := by
  intro key' hkey'
  exact Object.lookup_set_ne _ v fun heq => h (heq ▸ hkey')

/-- The program makes the calls of the script and leaves the envelope alone. -/
structure Performs {ε α : Type} (script : CallScript) (x : EnvM Env World ε α) : Prop where
  plays : EnvM.Plays World.calls script x
  leaves : EnvM.Keeps LeavesEnvelope x

namespace Performs

variable {ε α β : Type} {script script' : CallScript} {x : EnvM Env World ε α}
  {f : α → EnvM Env World ε β}

protected theorem pure (a : α) : Performs [] (pure a : EnvM Env World ε α) :=
  ⟨EnvM.plays_pure a, EnvM.keeps_pure a⟩

protected theorem ask : Performs [] (EnvM.ask : EnvM Env World ε Env) :=
  ⟨EnvM.plays_ask, EnvM.keeps_ask⟩

theorem ofExcept (a : Except ε α) : Performs [] (EnvM.ofExcept a : EnvM Env World ε α) :=
  ⟨EnvM.plays_ofExcept a, EnvM.keeps_ofExcept a⟩

theorem stop (e : ε) : Performs script (EnvM.stop e : EnvM Env World ε α) :=
  ⟨EnvM.plays_stop e, EnvM.keeps_stop e⟩

theorem ite {c : Prop} [Decidable c] {y : EnvM Env World ε α} (hx : Performs script x)
    (hy : Performs script y) : Performs script (if c then x else y) :=
  ⟨EnvM.plays_ite hx.plays hy.plays, EnvM.keeps_ite hx.leaves hy.leaves⟩

protected theorem bind (hx : Performs script x) (hf : ∀ a, Performs script' (f a)) :
    Performs (script ++ script') (x >>= f) :=
  ⟨EnvM.plays_bind hx.plays fun a => (hf a).plays, EnvM.keeps_bind hx.leaves fun a => (hf a).leaves⟩

theorem bind_cons {p : RpcCall → Prop} (hx : Performs [p] x) (hf : ∀ a, Performs script (f a)) :
    Performs (p :: script) (x >>= f) := hx.bind hf

theorem bind_nil (hx : Performs [] x) (hf : ∀ a, Performs script (f a)) :
    Performs script (x >>= f) := hx.bind hf

theorem bind_right (hx : Performs script x) (hf : ∀ a, Performs [] (f a)) :
    Performs script (x >>= f) := by
  have h : Performs (script ++ []) (x >>= f) := hx.bind hf
  rwa [List.append_nil] at h

/-- A member of the response outside the envelope. -/
theorem respond {key : String} (v : Json) (h : key ∉ envelope) :
    Performs [] (EnvM.modify (·.respond key v) : EnvM Env World ε Unit) :=
  ⟨EnvM.plays_modify fun _ => rfl, fun _ _ => leaves_respond v h⟩

end Performs

section

variable {α : Type} {ssl : OpenSSL} {conf : RpcConf}

theorem performs_raise (x : Except Exn α) : Performs [] (raise x) := Performs.ofExcept _

theorem performs_atoError {script : CallScript} (text : Str) :
    Performs script (atoError text : Swap α) := Performs.stop _

theorem performs_orFail (x : Option α) (text : String) : Performs [] (orFail x text) := by
  cases x with
  | none => exact performs_atoError _
  | some a => exact Performs.pure a

theorem performs_setResponse {key : String} (v : Json) (h : key ∉ envelope) :
    Performs [] (setResponse key v) := Performs.respond v h

/-- However a call ends, it is the one event. -/
theorem performs_of_state {x : Swap α} {call : RpcCall} {p : RpcCall → Prop}
    (hx : ∀ env w, EnvM.wpState x (· = World.called w call) env w) (hp : p call) :
    Performs [p] x := by
  have hstate (env : Env) (w : World) : (x env w).2 = w.called call :=
    EnvM.wpState_iff.mp (hx env w)
  refine ⟨?_, ?_⟩
  · intro env w
    refine ⟨[call], ?_, .cons hp .nil, fun _ _ => .cons hp .nil⟩
    rw [hstate, World.called_calls]
  · intro env w
    rw [hstate]
    exact fun _ _ => rfl

theorem performs_callRPC {method : String} {params : List Json} {p : RpcCall → Prop}
    (hp : p ⟨conf, method, params⟩) : Performs [p] (callRPC conf method params) :=
  performs_of_state (fun _ _ => callRPC_state conf method params) hp

theorem performs_callChecked {method : String} {params : List Json} {p : RpcCall → Prop}
    (hp : p ⟨conf, method, params⟩) : Performs [p] (callChecked conf method params) :=
  performs_of_state (fun _ _ => callChecked_state conf method params) hp

theorem performs_fetchTransaction (txid : Str) :
    Performs (fetchScript conf txid) (fetchTransaction conf txid) := by
  refine Performs.bind_cons (performs_callChecked rfl) ?_
  intro rawtxReply
  apply Performs.bind_nil (performs_raise _)
  intro rawtx
  apply Performs.bind_cons (performs_callChecked ⟨rawtx, rfl⟩)
  intro txReply
  exact performs_raise _

theorem performs_findContractOut (c : CScript) (txid : Str) :
    Performs (fetchScript conf txid) (findContractOut ssl conf c txid) := by
  apply Performs.bind_right (performs_fetchTransaction txid)
  intro txResult
  apply Performs.bind_nil (performs_raise _)
  intro out
  exact performs_orFail _ _

theorem performs_dumpPrivKey {address : Str} {p : RpcCall → Prop}
    (hp : p ⟨conf, "dumpprivkey", [.string address]⟩) :
    Performs [p] (dumpPrivKey conf address) := by
  apply Performs.bind_cons (performs_callChecked hp)
  intro dumpReply
  exact performs_raise _

theorem performs_signContract (c : CScript) (keyHash : Bytes) (tx : CTransaction) :
    Performs (keyScript ssl conf keyHash) (signContract ssl conf c keyHash tx) := by
  refine Performs.bind_cons (performs_dumpPrivKey rfl) ?_
  intro prikey
  apply Performs.bind_nil (performs_orFail _ _)
  intro secret
  apply Performs.bind_nil (performs_raise _)
  intro pubKey
  apply Performs.bind_nil (performs_orFail _ _)
  intro sig
  exact Performs.pure _

theorem performs_addFeeInput (keyID : Uint160) (key : CKey) (tx : CTransaction) :
    Performs (feeScript conf) (addFeeInput ssl conf keyID key tx) := by
  refine Performs.bind_cons (performs_callRPC rfl) ?_
  intro feeReply
  apply Performs.bind_nil (performs_raise _)
  intro found
  apply Performs.bind_nil (performs_orFail _ _)
  -- the key asked for next is that of the address in this entry
  intro p
  obtain ⟨feeIndex, unspent⟩ := p
  apply Performs.bind_nil (performs_raise _)
  intro entry
  apply Performs.bind_nil (performs_orFail _ _)
  intro feeKeyID
  apply Performs.bind_cons (performs_dumpPrivKey ⟨entry.address, rfl⟩)
  intro feePrikey
  apply Performs.bind_nil (performs_orFail _ _)
  intro feeSecret
  apply Performs.bind_nil (performs_raise _)
  intro feePubKey
  apply Performs.bind_nil (performs_orFail _ _)
  intro sig
  exact Performs.pure _

theorem performs_broadcast (tx : CTransaction) :
    Performs (sendScript conf) (broadcast conf tx) := by
  apply Performs.bind_cons (performs_callChecked ⟨tx, rfl⟩)
  intro sendReply
  apply Performs.bind_nil (performs_raise _)
  intro txid
  exact performs_setResponse _ (by decide)

end

/-! ## Operations -/

section

variable {ssl : OpenSSL} {conf : RpcConf}

/-- What the recogniser's verdict returns is the data in the contract. -/
theorem swapData_bind {β : Type} (c : CScript) (f : AtomicSwapData → Swap β) :
    swapData c >>= f = raise (CScript.isAtomicSwap c) >>= fun b =>
      if b then f (extractAtomicSwapData c)
      else atoError (str "Contract is not atomicswap script.") := by
  rw [swapData, EnvM.bind_assoc]
  congr 1
  funext b
  cases b with
  | true => rfl
  | false => rfl

theorem performs_swapData_bind {β : Type} {script : CallScript} {c : CScript}
    {f : AtomicSwapData → Swap β} (h : Performs script (f (extractAtomicSwapData c))) :
    Performs script (swapData c >>= f) := by
  rw [swapData_bind]
  apply Performs.bind_nil (performs_raise _)
  intro b
  exact Performs.ite h (performs_atoError _)

theorem performs_redeem (contract txid secret redeemAddress : Str) :
    Performs (redeemScript ssl conf contract txid)
      (redeem ssl contract txid secret redeemAddress conf) := by
  refine Performs.bind ?_ performs_broadcast
  apply Performs.bind_nil Performs.ask
  intro env
  apply performs_swapData_bind
  apply Performs.bind (performs_findContractOut _ _)
  intro p
  obtain ⟨outIndex, amount⟩ := p
  apply Performs.bind_nil (performs_orFail _ _)
  intro keyID
  apply Performs.bind (performs_signContract _ _ _)
  intro p
  obtain ⟨key, pubKey, sig⟩ := p
  apply Performs.bind_nil (performs_raise _)
  intro pushKey
  -- only a cfos transaction pays its fee with a coin of its own
  split
  · exact performs_addFeeInput _ _ _
  · exact Performs.pure _

theorem performs_refund (contract txid refundAddress : Str) :
    Performs (refundScript ssl conf contract txid)
      (refund ssl contract txid refundAddress conf) := by
  refine Performs.bind ?_ performs_broadcast
  apply Performs.bind_nil Performs.ask
  intro env
  apply performs_swapData_bind
  apply Performs.bind (performs_findContractOut _ _)
  intro p
  obtain ⟨outIndex, amount⟩ := p
  apply Performs.bind_nil (performs_orFail _ _)
  intro keyID
  apply Performs.bind_right (performs_signContract _ _ _)
  intro p
  obtain ⟨key, pubKey, sig⟩ := p
  apply Performs.bind_nil (performs_raise _)
  intro pushKey
  exact Performs.pure _

/-- A contract is funded with what is known of its lock time and hash. -/
theorem performs_fundContract {p : FundParams} {bound : Int → Bytes → Prop} {lockTime : Int}
    {secHash : Bytes} (hbound : bound lockTime secHash) :
    Performs (fundScript ssl conf p bound) (fundContract ssl p conf lockTime secHash) := by
  apply Performs.bind_nil (performs_setResponse _ (by decide))
  intro u
  apply Performs.bind_nil (performs_setResponse _ (by decide))
  intro u
  apply Performs.bind_nil (performs_setResponse _ (by decide))
  intro u
  have hcall (contractAddressStr : Str) :
      (⟨conf, (fundCall p conf contractAddressStr).method,
        (fundCall p conf contractAddressStr).params⟩ : RpcCall) =
        fundCall p conf contractAddressStr := by
    unfold fundCall
    split <;> rfl
  apply Performs.bind_cons (performs_callChecked ⟨lockTime, secHash, hbound, hcall _⟩)
  intro reply
  apply Performs.bind_nil (performs_raise _)
  intro txid
  exact performs_setResponse _ (by decide)

theorem performs_initiate (p : FundParams) :
    Performs (initiateScript ssl conf p) (initiate ssl p conf) := by
  apply Performs.bind_nil Performs.ask
  intro env
  apply Performs.bind_nil (performs_setResponse _ (by decide))
  intro u
  apply Performs.bind_nil (performs_setResponse _ (by decide))
  intro u
  exact performs_fundContract ⟨env.rand, rfl⟩

theorem performs_participate (p : FundParams) (secHash : Str) :
    Performs (participateScript ssl conf p secHash) (participate ssl p secHash conf) := by
  apply Performs.bind_nil Performs.ask
  intro env
  exact performs_fundContract rfl

theorem performs_extractSecret (txid secHash : Str) :
    Performs (fetchScript conf txid) (extractSecret ssl txid secHash conf) := by
  apply Performs.bind_nil Performs.ask
  intro env
  apply Performs.bind_right (performs_fetchTransaction txid)
  intro txResult
  apply Performs.bind_nil (performs_raise _)
  intro vins
  split
  · apply Performs.bind_nil (performs_raise _)
    intro sigAsm
    apply Performs.bind_nil (performs_raise _)
    intro secStrTmp
    exact Performs.ite (performs_setResponse _ (by decide)) (performs_atoError _)
  · exact performs_atoError _

/-- Every run of an operation makes the calls of its script in their order, up to where it
    stops, and a run that returns has made them all; and none touches the envelope of the
    response. -/
theorem operations_perform (ssl : OpenSSL) (conf : RpcConf) :
    (∀ p, Performs (initiateScript ssl conf p) (initiate ssl p conf)) ∧
      (∀ p secHash, Performs (participateScript ssl conf p secHash)
        (participate ssl p secHash conf)) ∧
      (∀ contract txid secret redeemAddress, Performs (redeemScript ssl conf contract txid)
        (redeem ssl contract txid secret redeemAddress conf)) ∧
      (∀ contract txid refundAddress, Performs (refundScript ssl conf contract txid)
        (refund ssl contract txid refundAddress conf)) ∧
      ∀ txid secHash, Performs (fetchScript conf txid) (extractSecret ssl txid secHash conf) :=
  ⟨performs_initiate, performs_participate, performs_redeem, performs_refund,
    performs_extractSecret⟩

end

/-! ## Handlers -/

namespace AtomRpc

/-- The calls a handler may make for a request: none unless its parameters are read and pass
    the handler's test. -/
def handlerScript {α : Type} (read : Json → Except Exn α) (wrong : α → Bool)
    (script : α → CallScript) (root : Json) : CallScript :=
  match root.index "params" >>= read with
  | .error _ => []
  | .ok a => if wrong a then [] else script a

/-- The response holds the version, the id of the request and a result, and an error only if
    it held one before. -/
structure Enveloped (root : Json) (w w' : World) : Prop where
  version : w'.response.lookup "jsonrpc" = some (.string (str "2.0"))
  id : ∃ id, root.index "id" = .ok id ∧ w'.response.lookup "id" = some id
  result : ∃ result, w'.response.lookup "result" = some result
  error : w'.response.lookup "error" = w.response.lookup "error"

/-- What is known of the runs of a method: the calls that they make, and the response that
    they leave if they return. -/
structure Serves (script : CallScript) (root : Json) (method : Handler) : Prop where
  calls : EnvM.MayPlay World.calls script method
  response : ∀ env w ok w', method env w = (.ok ok, w') → Enveloped root w w'

/-- The version and the id, and then what leaves both alone and writes a result. -/
theorem enveloped_of_leaves {root id : Json} {w w' : World} (hid : root.index "id" = .ok id)
    (hleaves : LeavesEnvelope ((w.respond "jsonrpc" (.string (str "2.0"))).respond "id" id) w')
    (hresult : ∃ result, w'.response.lookup "result" = some result) : Enveloped root w w' := by
  refine ⟨?_, ⟨id, hid, ?_⟩, hresult, ?_⟩
  · rw [hleaves "jsonrpc" (by decide), World.respond_response, Object.lookup_set_ne _ _ (by decide)]
    exact Object.lookup_set_self _ _ _
  · rw [hleaves "id" (by decide)]
    exact Object.lookup_set_self _ _ _
  · rw [hleaves "error" (by decide), World.respond_response, Object.lookup_set_ne _ _ (by decide),
      World.respond_response, Object.lookup_set_ne _ _ (by decide)]

theorem enveloped_respond {root id result : Json} {w w₁ : World}
    (hid : root.index "id" = .ok id)
    (hleaves : LeavesEnvelope ((w.respond "jsonrpc" (.string (str "2.0"))).respond "id" id) w₁) :
    Enveloped root w (w₁.respond "result" result) :=
  enveloped_of_leaves hid (trans_of LeavesEnvelope hleaves (leaves_respond result (by decide)))
    ⟨result, Object.lookup_set_self _ _ _⟩

/-- Filling in the response calls no node. -/
theorem plays_respond (key : String) (v : Json) : EnvM.Plays World.calls [] (respond key v) :=
  EnvM.plays_modify fun _ => rfl

theorem handle_mayPlay {α : Type} {read : Json → Except Exn α} {wrong : α → Bool}
    {operation : α → Swap Unit} {script : α → CallScript}
    (hop : ∀ a, Performs (script a) (operation a)) (root : Json) :
    EnvM.MayPlay World.calls (handlerScript read wrong script root)
      (handle read wrong operation root) := by
  apply EnvM.mayPlay_bind_nil (EnvM.plays_ofExcept _)
  intro params hparams
  apply EnvM.mayPlay_bind_nil (EnvM.plays_ofExcept _)
  intro a ha
  -- both were read from the request, so the script is known before anything is called
  obtain ⟨_, _, hparams⟩ := hparams
  obtain ⟨_, _, ha⟩ := ha
  have hindex : root.index "params" = .ok params := hparams
  have hread : root.index "params" >>= read = .ok a := by
    rw [hindex]
    exact ha
  have hscript : handlerScript read wrong script root = if wrong a then [] else script a := by
    rw [handlerScript, hread]
  rw [hscript]
  apply EnvM.mayPlay_bind_nil (plays_respond _ _)
  intro u _
  apply EnvM.mayPlay_bind_nil (EnvM.plays_ofExcept _)
  intro id _
  apply EnvM.mayPlay_bind_nil (plays_respond _ _)
  intro u _
  cases wrong a with
  | true => exact (EnvM.plays_bind_nil (plays_respond _ _) fun _ => EnvM.plays_pure _).mayPlay
  | false =>
    -- the handler goes on after a failure, so the operation may have stopped anywhere
    refine EnvM.mayPlay_bind_right (EnvM.mayPlay_recover ?_) ?_
    · exact EnvM.mayPlay_bind_right (hop a).plays.mayPlay fun _ => EnvM.plays_pure _
    · intro ok
      exact EnvM.plays_bind_nil (plays_respond _ _) fun _ => EnvM.plays_pure _

theorem handle_enveloped {α : Type} {read : Json → Except Exn α} {wrong : α → Bool}
    {operation : α → Swap Unit} {root : Json} {env : Env} {w w' : World} {ok : Bool}
    (hop : ∀ a, EnvM.Keeps LeavesEnvelope (operation a))
    (h : handle read wrong operation root env w = (.ok ok, w')) : Enveloped root w w' := by
  rw [handle] at h
  obtain ⟨params, _, hparams, h⟩ := EnvM.bind_eq_ok_iff.mp h
  obtain ⟨a, _, hread, h⟩ := EnvM.bind_eq_ok_iff.mp h
  obtain ⟨_, _, hversion, h⟩ := EnvM.bind_eq_ok_iff.mp h
  obtain ⟨id, _, hid, h⟩ := EnvM.bind_eq_ok_iff.mp h
  obtain ⟨_, _, hsetid, h⟩ := EnvM.bind_eq_ok_iff.mp h
  obtain ⟨_, rfl⟩ := EnvM.ofExcept_eq_ok_iff.mp hparams
  obtain ⟨_, rfl⟩ := EnvM.ofExcept_eq_ok_iff.mp hread
  cases hversion
  obtain ⟨hindex, rfl⟩ := EnvM.ofExcept_eq_ok_iff.mp hid
  cases hsetid
  split at h
  · -- refused
    obtain ⟨_, _, hresult, h⟩ := EnvM.bind_eq_ok_iff.mp h
    cases hresult
    cases h
    exact enveloped_respond hindex (refl_of LeavesEnvelope _)
  · -- the operation was run
    obtain ⟨ok', w₁, hrun, h⟩ := EnvM.bind_eq_ok_iff.mp h
    obtain ⟨_, _, hresult, h⟩ := EnvM.bind_eq_ok_iff.mp h
    cases hresult
    cases h
    have hkeeps : EnvM.Keeps LeavesEnvelope
        (EnvM.recover (do operation a; return true) returned) :=
      EnvM.keeps_recover (EnvM.keeps_bind (hop a) fun _ => EnvM.keeps_pure true)
    exact enveloped_respond hindex (hkeeps.run hrun)

theorem serves_handle {α : Type} {read : Json → Except Exn α} {wrong : α → Bool}
    {operation : α → Swap Unit} {script : α → CallScript}
    (hop : ∀ a, Performs (script a) (operation a)) (root : Json) :
    Serves (handlerScript read wrong script root) root (handle read wrong operation root) :=
  ⟨handle_mayPlay hop root, fun _ _ _ _ h => handle_enveloped (fun a => (hop a).leaves) h⟩

theorem serves_atomGetInfo (root : Json) : Serves [] root (atomGetInfo root) := by
  refine ⟨?_, ?_⟩
  · apply EnvM.mayPlay_bind_nil (plays_respond _ _)
    intro u _
    apply EnvM.mayPlay_bind_nil (EnvM.plays_ofExcept _)
    intro id _
    apply EnvM.mayPlay_bind_nil (plays_respond _ _)
    intro u _
    apply EnvM.mayPlay_bind_nil (plays_respond _ _)
    intro u _
    apply EnvM.mayPlay_bind_nil (plays_respond _ _)
    intro u _
    exact (EnvM.plays_pure _).mayPlay
  · intro env w ok w' h
    rw [atomGetInfo] at h
    obtain ⟨_, _, hversion, h⟩ := EnvM.bind_eq_ok_iff.mp h
    obtain ⟨id, _, hid, h⟩ := EnvM.bind_eq_ok_iff.mp h
    obtain ⟨_, _, hsetid, h⟩ := EnvM.bind_eq_ok_iff.mp h
    obtain ⟨_, _, hresult, h⟩ := EnvM.bind_eq_ok_iff.mp h
    obtain ⟨_, _, hnumber, h⟩ := EnvM.bind_eq_ok_iff.mp h
    cases hversion
    obtain ⟨hindex, rfl⟩ := EnvM.ofExcept_eq_ok_iff.mp hid
    cases hsetid
    cases hresult
    cases hnumber
    cases h
    have hresult (w₁ : World) :
        LeavesEnvelope w₁ (w₁.respond "result" (.string (str "success"))) :=
      leaves_respond _ (by decide)
    exact enveloped_of_leaves hindex (trans_of LeavesEnvelope (hresult _)
      (leaves_respond _ (by decide))) ⟨_, rfl⟩

section

variable (ssl : OpenSSL)

/-- The script of each method, in the order of `registered`. -/
def methodScripts : List (String × (Json → CallScript)) :=
  [("getinfo", fun _ => []),
    ("initiate", handlerScript readInitiate wrongInitiate fun a => initiateScript ssl a.2 a.1),
    ("initiatecfos",
      handlerScript readInitiateCfos wrongInitiateCfos fun a => initiateScript ssl a.2 a.1),
    ("participate", handlerScript readParticipate wrongParticipate fun a =>
      participateScript ssl a.2.2 a.1 a.2.1),
    ("participatecfos", handlerScript readParticipateCfos wrongParticipateCfos fun a =>
      participateScript ssl a.2.2 a.1 a.2.1),
    ("redeem", handlerScript readRedeem wrongRedeem fun a =>
      redeemScript ssl a.conf a.contract a.txid),
    ("refund", handlerScript readRefund wrongRefund fun a =>
      refundScript ssl a.conf a.contract a.txid),
    ("extractsecret", handlerScript readExtract wrongExtract fun a => fetchScript a.conf a.txid)]

/-- Every registered method makes only the calls of its script, and envelops its response. -/
theorem registered_serves :
    List.Forall₂ (fun m s => m.1 = s.1 ∧ ∀ root, Serves (s.2 root) root (m.2 root))
      (registered ssl) (methodScripts ssl) := by
  refine .cons ⟨rfl, serves_atomGetInfo⟩ ?_
  refine .cons ⟨rfl, serves_handle fun a => performs_initiate a.1⟩ ?_
  refine .cons ⟨rfl, serves_handle fun a => performs_initiate a.1⟩ ?_
  refine .cons ⟨rfl, serves_handle fun a => performs_participate a.1 a.2.1⟩ ?_
  refine .cons ⟨rfl, serves_handle fun a => performs_participate a.1 a.2.1⟩ ?_
  refine .cons ⟨rfl, serves_handle fun a =>
    performs_redeem a.contract a.txid a.secret a.redeemAddress⟩ ?_
  refine .cons ⟨rfl, serves_handle fun a => performs_refund a.contract a.txid a.refundAddress⟩ ?_
  refine .cons ⟨rfl, serves_handle fun a => performs_extractSecret a.txid a.secretHash⟩ ?_
  exact .nil

end

end AtomRpc

end CrossChain
