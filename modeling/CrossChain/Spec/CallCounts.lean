import CrossChain.Spec.ServerRuns

/-!
# How often the server pays and spends

A contract is funded at most once for each request to fund one, and a
transaction sent at most once for each request to redeem or refund: over a whole
run of the server, however it ends (`startserver_counts`).
-/

namespace CrossChain

open RpcHandler TcpServer AtomRpc

/-- A call that pays a contract. -/
def RpcCall.funds (call : RpcCall) : Bool :=
  call.method == "sendtoaddress" || call.method == "sendassettoaddress"

/-- A call that sends a transaction. -/
def RpcCall.spends (call : RpcCall) : Bool := call.method == "sendrawtransaction"

/-- The methods that fund a contract, and those that spend one. -/
def fundingMethods : List String :=
  ["initiate", "initiatecfos", "participate", "participatecfos"]

def spendingMethods : List String := ["redeem", "refund"]

/-- The request is valid and for one of these methods. -/
def asks (keys : List String) (root : Json) : Bool :=
  (check root).isNone &&
    keys.any fun key => (root.index "method" >>= Json.asString).toOption == some (str key)

/-! ## One method -/

section

variable {ssl : OpenSSL} {conf : RpcConf} {q : RpcCall → Bool}

/-- What is counted are no calls that ask a node for something. -/
def Idle (q : RpcCall → Bool) : Prop :=
  ∀ (conf : RpcConf) (params : List Json), ∀ method ∈ ["getrawtransaction",
    "decoderawtransaction", "dumpprivkey", "listunspent"], q ⟨conf, method, params⟩ = false

theorem idle_funds : Idle RpcCall.funds := by
  have h : ∀ method ∈ ["getrawtransaction", "decoderawtransaction", "dumpprivkey", "listunspent"],
      (method == "sendtoaddress" || method == "sendassettoaddress") = false := by decide
  exact fun _ _ => h

theorem idle_spends : Idle RpcCall.spends := by
  have h : ∀ method ∈ ["getrawtransaction", "decoderawtransaction", "dumpprivkey", "listunspent"],
      (method == "sendrawtransaction") = false := by decide
  exact fun _ _ => h

theorem quiet_fetchScript (hq : Idle q) (txid : Str) :
    EnvM.Script.Quiet q (fetchScript conf txid) := by
  intro p hp call hcall
  simp only [fetchScript, List.mem_cons, List.not_mem_nil, or_false] at hp
  obtain rfl | rfl := hp
  · rw [hcall]
    exact hq _ _ _ (by simp)
  · obtain ⟨rawtx, rfl⟩ := hcall
    exact hq _ _ _ (by simp)

theorem quiet_keyScript (hq : Idle q) (keyHash : Bytes) :
    EnvM.Script.Quiet q (keyScript ssl conf keyHash) := by
  intro p hp call hcall
  rw [List.mem_singleton.mp hp] at hcall
  rw [hcall]
  exact hq _ _ _ (by simp)

theorem quiet_feeScript (hq : Idle q) : EnvM.Script.Quiet q (feeScript conf) := by
  intro p hp call hcall
  simp only [feeScript, List.mem_cons, List.not_mem_nil, or_false] at hp
  obtain rfl | rfl := hp
  · rw [hcall]
    exact hq _ _ _ (by simp)
  · obtain ⟨address, rfl⟩ := hcall
    exact hq _ _ _ (by simp)

theorem quiet_append {script script' : CallScript} (h : EnvM.Script.Quiet q script)
    (h' : EnvM.Script.Quiet q script') : EnvM.Script.Quiet q (script ++ script') := by
  intro p hp
  obtain hp | hp := List.mem_append.mp hp
  · exact h p hp
  · exact h' p hp

/-- Before a redeem or a refund sends its transaction nothing is counted. -/
theorem quiet_redeem (hq : Idle q) (contract txid : Str) :
    EnvM.Script.Quiet q (fetchScript conf txid ++
      (keyScript ssl conf (extractAtomicSwapData (parseHex contract)).recipientPubKeyHash ++
        (if conf.type = str "cfos" then feeScript conf else []))) := by
  apply quiet_append (quiet_fetchScript hq txid)
  apply quiet_append (quiet_keyScript hq _)
  split
  · exact quiet_feeScript hq
  · intro p hp
    cases hp

theorem quiet_refund (hq : Idle q) (contract txid : Str) :
    EnvM.Script.Quiet q (fetchScript conf txid ++
      keyScript ssl conf (extractAtomicSwapData (parseHex contract)).refundPubKeyHash) :=
  quiet_append (quiet_fetchScript hq txid) (quiet_keyScript hq _)

theorem quiet_sendScript : EnvM.Script.Quiet RpcCall.funds (sendScript conf) := by
  intro p hp call hcall
  rw [List.mem_singleton.mp hp] at hcall
  obtain ⟨tx, rfl⟩ := hcall
  rfl

theorem quiet_fundScript (p : FundParams) (bound : Int → Bytes → Prop) :
    EnvM.Script.Quiet RpcCall.spends (fundScript ssl conf p bound) := by
  intro event hevent call hcall
  rw [List.mem_singleton.mp hevent] at hcall
  obtain ⟨lockTime, secHash, _, rfl⟩ := hcall
  unfold fundCall
  split
  · rfl
  · rfl

/-- The script of a handler counts what the scripts of its operation count. -/
theorem handlerScript_countP {α : Type} {read : Json → Except Exn α} {wrong : α → Bool}
    {script : α → CallScript} {n m : Nat}
    (h : ∀ a calls, (script a).Begins calls →
      calls.countP RpcCall.funds ≤ n ∧ calls.countP RpcCall.spends ≤ m)
    (root : Json) {calls : List RpcCall}
    (hcalls : (handlerScript read wrong script root).Begins calls) :
    calls.countP RpcCall.funds ≤ n ∧ calls.countP RpcCall.spends ≤ m := by
  have hnil (hcalls : EnvM.Script.Begins [] calls) :
      calls.countP RpcCall.funds ≤ n ∧ calls.countP RpcCall.spends ≤ m := by
    cases hcalls
    exact ⟨Nat.zero_le n, Nat.zero_le m⟩
  unfold handlerScript at hcalls
  -- a request that cannot be read, or is refused, calls no node
  split at hcalls
  · exact hnil hcalls
  · split at hcalls
    · exact hnil hcalls
    · exact h _ _ hcalls

/-- A quiet script counts nothing. -/
theorem countP_of_quiet {script : CallScript} {calls : List RpcCall}
    (hquiet : EnvM.Script.Quiet q script) (h : script.Begins calls) : calls.countP q ≤ 0 := by
  have hbegins : EnvM.Script.Begins (script ++ []) calls := h.append_right []
  exact hbegins.countP_le hquiet

theorem fundScript_countP {p : FundParams} {bound : Int → Bytes → Prop} {calls : List RpcCall}
    (h : (fundScript ssl conf p bound).Begins calls) :
    calls.countP RpcCall.funds ≤ 1 ∧ calls.countP RpcCall.spends ≤ 0 :=
  ⟨List.countP_le_length.trans h.length_le, countP_of_quiet (quiet_fundScript p bound) h⟩

theorem redeemScript_countP {contract txid : Str} {calls : List RpcCall}
    (h : (redeemScript ssl conf contract txid).Begins calls) :
    calls.countP RpcCall.funds ≤ 0 ∧ calls.countP RpcCall.spends ≤ 1 :=
  ⟨countP_of_quiet (quiet_append (quiet_redeem idle_funds contract txid) quiet_sendScript) h,
    h.countP_le (quiet_redeem idle_spends contract txid)⟩

theorem refundScript_countP {contract txid : Str} {calls : List RpcCall}
    (h : (refundScript ssl conf contract txid).Begins calls) :
    calls.countP RpcCall.funds ≤ 0 ∧ calls.countP RpcCall.spends ≤ 1 :=
  ⟨countP_of_quiet (quiet_append (quiet_refund idle_funds contract txid) quiet_sendScript) h,
    h.countP_le (quiet_refund idle_spends contract txid)⟩

theorem fetchScript_countP {txid : Str} {calls : List RpcCall}
    (h : (fetchScript conf txid).Begins calls) :
    calls.countP RpcCall.funds ≤ 0 ∧ calls.countP RpcCall.spends ≤ 0 :=
  ⟨countP_of_quiet (quiet_fetchScript idle_funds txid) h,
    countP_of_quiet (quiet_fetchScript idle_spends txid) h⟩

/-- How often one run of a method pays and sends. -/
theorem methodScripts_countP {key : String} {script : Json → CallScript}
    (hmem : (key, script) ∈ methodScripts ssl) (root : Json) {calls : List RpcCall}
    (h : (script root).Begins calls) :
    calls.countP RpcCall.funds ≤ (if key ∈ fundingMethods then 1 else 0) ∧
      calls.countP RpcCall.spends ≤ (if key ∈ spendingMethods then 1 else 0) := by
  simp only [methodScripts, List.mem_cons, List.not_mem_nil, or_false, Prod.mk.injEq] at hmem
  obtain ⟨rfl, rfl⟩ | ⟨rfl, rfl⟩ | ⟨rfl, rfl⟩ | ⟨rfl, rfl⟩ | ⟨rfl, rfl⟩ | ⟨rfl, rfl⟩ | ⟨rfl, rfl⟩ |
    ⟨rfl, rfl⟩ := hmem
  · -- `getinfo` calls no node
    cases h
    exact ⟨Nat.zero_le _, Nat.zero_le _⟩
  · exact handlerScript_countP (fun a _ h => fundScript_countP h) root h
  · exact handlerScript_countP (fun a _ h => fundScript_countP h) root h
  · exact handlerScript_countP (fun a _ h => fundScript_countP h) root h
  · exact handlerScript_countP (fun a _ h => fundScript_countP h) root h
  · exact handlerScript_countP (fun a _ h => redeemScript_countP h) root h
  · exact handlerScript_countP (fun a _ h => refundScript_countP h) root h
  · exact handlerScript_countP (fun a _ h => fetchScript_countP h) root h

/-! ## Requests -/

theorem asks_of_names {keys : List String} {root : Json} {key : String} (h : Names root key)
    (hkey : key ∈ keys) : asks keys root = true := by
  rw [asks, h.1, h.2, Bool.and_eq_true, List.any_eq_true]
  exact ⟨rfl, key, hkey, beq_self_eq_true _⟩

/-- How often the run for one request pays and sends. -/
theorem requestScript_countP {root : Json} {runs : List (List RpcCall)}
    (h : (requestScript ssl root).Begins runs) :
    runs.flatten.countP RpcCall.funds ≤ (if asks fundingMethods root then 1 else 0) ∧
      runs.flatten.countP RpcCall.spends ≤ (if asks spendingMethods root then 1 else 0) := by
  have hnil (h : EnvM.Script.Begins [] runs) :
      runs.flatten.countP RpcCall.funds ≤ (if asks fundingMethods root then 1 else 0) ∧
        runs.flatten.countP RpcCall.spends ≤ (if asks spendingMethods root then 1 else 0) := by
    cases h
    exact ⟨Nat.zero_le _, Nat.zero_le _⟩
  have hprocessed : Processed ssl root _ _ := processed root
  generalize requestScript ssl root = script at h hprocessed
  generalize process (methods ssl) root = x at hprocessed
  cases hprocessed with
  | invalid _ => exact hnil h
  | notFound _ => exact hnil h
  | describe _ => exact hnil h
  | @run key method script hnames _ hmem _ =>
    cases h with
    | nil => exact ⟨Nat.zero_le _, Nat.zero_le _⟩
    | @cons _ calls _ runs hcalls hrest =>
      cases hrest
      obtain ⟨hfunds, hspends⟩ := methodScripts_countP hmem root hcalls
      rw [List.flatten_singleton]
      refine ⟨hfunds.trans ?_, hspends.trans ?_⟩
      · split
        · rw [if_pos (asks_of_names hnames ‹_›)]
        · exact Nat.zero_le _
      · split
        · rw [if_pos (asks_of_names hnames ‹_›)]
        · exact Nat.zero_le _

theorem requests_countP {roots : List Json} {runs : List (List RpcCall)}
    (h : EnvM.Script.Begins (roots.flatMap (requestScript ssl)) runs) :
    runs.flatten.countP RpcCall.funds ≤ roots.countP (asks fundingMethods) ∧
      runs.flatten.countP RpcCall.spends ≤ roots.countP (asks spendingMethods) := by
  induction roots generalizing runs with
  | nil =>
    cases h
    exact ⟨Nat.le_refl _, Nat.le_refl _⟩
  | cons root roots ih =>
    rw [List.flatMap_cons] at h
    -- the runs for the first request, then those for the others
    obtain ⟨runs₁, runs₂, rfl, h₁, h₂⟩ := h.of_append
    obtain ⟨hfunds₁, hspends₁⟩ := requestScript_countP h₁
    obtain ⟨hfunds₂, hspends₂⟩ := ih h₂
    rw [List.flatten_append, List.countP_append, List.countP_append, List.countP_cons,
      List.countP_cons]
    omega

end

/-- Over a run of the server, however it ends, contracts are funded at most as often as valid
    requests to initiate or to participate were read, and transactions sent at most as often
    as valid requests to redeem or to refund were. -/
theorem startserver_counts (d : DoubleText) (ssl : OpenSSL) (sock : Int) (turns : List Turn)
    (envs : Nat → Env) :
    let calls := (startserver d turns envs (started ssl sock)).2.session.runs.flatten
    let roots := requests d.scan (received ssl sock turns)
    calls.countP RpcCall.funds ≤ roots.countP (asks fundingMethods) ∧
      calls.countP RpcCall.spends ≤ roots.countP (asks spendingMethods) :=
  requests_countP (startserver_runs d ssl sock turns envs).1

end CrossChain
