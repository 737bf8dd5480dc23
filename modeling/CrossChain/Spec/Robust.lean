import CrossChain.Native.Handlers
import CrossChain.Spec.Readable
import CrossChain.Spec.Spending

/-!
# Handlers that survive

Nothing above the handlers catches an exception.  A handler survives a request
exactly when it refuses the parameters or its operation can read the node's
replies (`handlers_survive_iff`).
-/

namespace CrossChain

open AtomRpc

/-- "result" is "success" or "failed". -/
def Reported (w : World) : Prop :=
  w.response.lookup "result" = some (.string (str "success")) ∨
    w.response.lookup "result" = some (.string (str "failed"))

/-- The handler returns and has reported a result. -/
def Survives (handler : Handler) (env : Env) (w : World) : Prop :=
  ∃ ok w', handler env w = (.ok ok, w') ∧ Reported w'

theorem survives_iff_wp {handler : Handler} {env : Env} {w : World} :
    Survives handler env w ↔ EnvM.wp handler (fun _ => Reported) (fun _ _ => False) env w := by
  rw [Survives, EnvM.wp]
  rcases handler env w with ⟨e | ok, w'⟩
  · constructor
    · intro hgiven
      obtain ⟨_, _, h, _⟩ := hgiven
      cases h
    · intro h
      exact h.elim
  · constructor
    · intro hgiven
      obtain ⟨_, _, h, hreported⟩ := hgiven
      cases h
      exact hreported
    · intro h
      exact ⟨ok, w', rfl, h⟩

/-! ## Requests -/

/-- A request whose "params" hold texts, and a number as "amount". -/
def WellTyped (root : Json) (params : Object) : Prop :=
  ∃ members, root = .object members ∧ members.lookup "params" = some (.object params) ∧
    ∀ key v, params.lookup key = some v →
      if key = "amount" then (∃ i, v = .int i) ∨ ∃ q, v = .real q else ∃ s, v = .string s

section

variable {root : Json} {params : Object}

theorem readString_ok (h : WellTyped root params) (key : String) (hkey : key ≠ "amount") :
    ∃ s, readString (.object params) key = .ok s := by
  obtain ⟨_, _, _, htyped⟩ := h
  rw [readString, Json.index]
  cases hv : params.lookup key with
  | none => exact ⟨[], rfl⟩
  | some v =>
    have hstring := htyped key v hv
    rw [if_neg hkey] at hstring
    obtain ⟨s, rfl⟩ := hstring
    exact ⟨cStr s, rfl⟩

theorem readAmount_ok (h : WellTyped root params) : ∃ q, readAmount (.object params) = .ok q := by
  obtain ⟨_, _, _, htyped⟩ := h
  rw [readAmount, Json.index]
  cases hv : params.lookup "amount" with
  | none => exact ⟨0, rfl⟩
  | some v =>
    have hnumber := htyped "amount" v hv
    rw [if_pos rfl] at hnumber
    obtain ⟨i, rfl⟩ | ⟨q, rfl⟩ := hnumber
    · exact ⟨i, rfl⟩
    · exact ⟨q, rfl⟩

/-- Reading one thing after the other. -/
theorem exists_bind_ok {α β : Type} {x : Except Exn α} {f : α → Except Exn β}
    (hx : ∃ a, x = .ok a) (hf : ∀ a, ∃ b, f a = .ok b) : ∃ b, (x >>= f) = .ok b := by
  obtain ⟨a, rfl⟩ := hx
  exact hf a

theorem readConf_ok (h : WellTyped root params) : ∃ conf, readConf (.object params) = .ok conf := by
  refine exists_bind_ok (readString_ok h "cointype" (by decide)) fun coinType => ?_
  refine exists_bind_ok (readString_ok h "rpcaddress" (by decide)) fun rpcAddress => ?_
  refine exists_bind_ok (readString_ok h "rpcport" (by decide)) fun rpcPort => ?_
  refine exists_bind_ok (readString_ok h "rpcusername" (by decide)) fun rpcUserName => ?_
  refine exists_bind_ok (readString_ok h "rpcpassword" (by decide)) fun rpcPassword => ?_
  exact ⟨_, rfl⟩

theorem readInitiate_ok (h : WellTyped root params) : ∃ a, readInitiate (.object params) = .ok a := by
  refine exists_bind_ok (readString_ok h "themaddress" (by decide)) fun themAddress => ?_
  refine exists_bind_ok (readString_ok h "refundaddress" (by decide)) fun refundAddress => ?_
  refine exists_bind_ok (readAmount_ok h) fun amount => ?_
  refine exists_bind_ok (readConf_ok h) fun conf => ?_
  exact ⟨_, rfl⟩

theorem readInitiateCfos_ok (h : WellTyped root params) :
    ∃ a, readInitiateCfos (.object params) = .ok a := by
  refine exists_bind_ok (readString_ok h "fromaddress" (by decide)) fun fromAddress => ?_
  refine exists_bind_ok (readString_ok h "themaddress" (by decide)) fun themAddress => ?_
  refine exists_bind_ok (readString_ok h "feeaddress" (by decide)) fun feeAddress => ?_
  refine exists_bind_ok (readString_ok h "feechangeaddress" (by decide)) fun feeChangeAddress => ?_
  refine exists_bind_ok (readString_ok h "assetchangeaddress" (by decide)) fun assetChange => ?_
  refine exists_bind_ok (readString_ok h "cfostype" (by decide)) fun cfosType => ?_
  refine exists_bind_ok (readString_ok h "refundaddress" (by decide)) fun refundAddress => ?_
  refine exists_bind_ok (readAmount_ok h) fun amount => ?_
  refine exists_bind_ok (readConf_ok h) fun conf => ?_
  exact ⟨_, rfl⟩

theorem readParticipate_ok (h : WellTyped root params) :
    ∃ a, readParticipate (.object params) = .ok a := by
  refine exists_bind_ok (readString_ok h "themaddress" (by decide)) fun themAddress => ?_
  refine exists_bind_ok (readString_ok h "refundaddress" (by decide)) fun refundAddress => ?_
  refine exists_bind_ok (readAmount_ok h) fun amount => ?_
  refine exists_bind_ok (readString_ok h "secrethash" (by decide)) fun secretHash => ?_
  refine exists_bind_ok (readConf_ok h) fun conf => ?_
  exact ⟨_, rfl⟩

theorem readParticipateCfos_ok (h : WellTyped root params) :
    ∃ a, readParticipateCfos (.object params) = .ok a := by
  refine exists_bind_ok (readString_ok h "fromaddress" (by decide)) fun fromAddress => ?_
  refine exists_bind_ok (readString_ok h "themaddress" (by decide)) fun themAddress => ?_
  refine exists_bind_ok (readString_ok h "feeaddress" (by decide)) fun feeAddress => ?_
  refine exists_bind_ok (readString_ok h "feechangeaddress" (by decide)) fun feeChangeAddress => ?_
  refine exists_bind_ok (readString_ok h "assetchangeaddress" (by decide)) fun assetChange => ?_
  refine exists_bind_ok (readString_ok h "cfostype" (by decide)) fun cfosType => ?_
  refine exists_bind_ok (readString_ok h "refundaddress" (by decide)) fun refundAddress => ?_
  refine exists_bind_ok (readAmount_ok h) fun amount => ?_
  refine exists_bind_ok (readString_ok h "secrethash" (by decide)) fun secretHash => ?_
  refine exists_bind_ok (readConf_ok h) fun conf => ?_
  exact ⟨_, rfl⟩

theorem readRedeem_ok (h : WellTyped root params) : ∃ a, readRedeem (.object params) = .ok a := by
  refine exists_bind_ok (readString_ok h "contract" (by decide)) fun contract => ?_
  refine exists_bind_ok (readString_ok h "txid" (by decide)) fun txid => ?_
  refine exists_bind_ok (readString_ok h "secret" (by decide)) fun secret => ?_
  refine exists_bind_ok (readString_ok h "redeemaddress" (by decide)) fun redeemAddress => ?_
  refine exists_bind_ok (readConf_ok h) fun conf => ?_
  exact ⟨_, rfl⟩

theorem readRefund_ok (h : WellTyped root params) : ∃ a, readRefund (.object params) = .ok a := by
  refine exists_bind_ok (readString_ok h "contract" (by decide)) fun contract => ?_
  refine exists_bind_ok (readString_ok h "txid" (by decide)) fun txid => ?_
  refine exists_bind_ok (readString_ok h "refundaddress" (by decide)) fun refundAddress => ?_
  refine exists_bind_ok (readConf_ok h) fun conf => ?_
  exact ⟨_, rfl⟩

theorem readExtract_ok (h : WellTyped root params) : ∃ a, readExtract (.object params) = .ok a := by
  refine exists_bind_ok (readString_ok h "txid" (by decide)) fun txid => ?_
  refine exists_bind_ok (readString_ok h "secrethash" (by decide)) fun secretHash => ?_
  refine exists_bind_ok (readConf_ok h) fun conf => ?_
  exact ⟨_, rfl⟩

end

/-! ## Handlers -/

/-- The parameters a handler reads are refused, or `readable`. -/
def Served {α : Type} (read : Json → Except Exn α) (wrong : α → Bool) (readable : α → Prop)
    (params : Object) : Prop :=
  ∃ a, read (.object params) = .ok a ∧ (wrong a = true ∨ readable a)

/-- The reply that is told "success" or "failed" has reported. -/
theorem reported_respond (w : World) (ok : Bool) :
    Reported (w.respond "result" (.string (str (if ok then "success" else "failed")))) := by
  cases ok with
  | true => exact .inl (Object.lookup_set_self _ _ _)
  | false => exact .inr (Object.lookup_set_self _ _ _)

/-- Running an operation and reporting its result survives exactly when the operation ends
    without an exception. -/
theorem wp_reported_iff {operation : Swap Unit} {env : Env} {w : World} :
    EnvM.wp (do
        let ok ← EnvM.recover (do operation; return true) returned
        respond "result" (.string (str (if ok then "success" else "failed")))
        return ok) (fun _ => Reported) (fun _ _ => False) env w ↔
      Ends operation (fun _ _ => True) env w := by
  rw [Ends, EnvM.wpObs]
  simp only [respond, EnvM.wp_bind, EnvM.wp_recover, EnvM.wp_ofExcept, EnvM.wp_modify,
    EnvM.wp_pure]
  constructor
  · intro h
    -- an exception reports nothing
    refine EnvM.wp_mono h (fun _ _ _ => trivial) ?_
    intro e w' he
    cases e with
    | failed text => exact ⟨text, rfl⟩
    | raised e => exact he.elim
  · intro h
    -- both ways to return are reported
    refine EnvM.wp_mono h (fun _ w' _ => reported_respond w' true) ?_
    intro e w' hgiven
    obtain ⟨text, rfl⟩ := hgiven
    exact reported_respond w' false

/-- A handler survives when it refuses the parameters or its operation ends without an
    exception. -/
theorem survives_handle_iff {α : Type} {read : Json → Except Exn α} {wrong : α → Bool}
    {operation : α → Swap Unit} {k : α → Nat → Prop} {root : Json} {params : Object}
    {env : Env} {w : World} (hroot : WellTyped root params)
    (hread : ∃ a, read (.object params) = .ok a)
    (hends : ∀ a w', Ends (operation a) (fun _ _ => True) env w' ↔ k a w'.calls.length) :
    Survives (handle read wrong operation root) env w ↔
      Served read wrong (fun a => k a w.calls.length) params := by
  obtain ⟨members, rfl, hparams, _⟩ := hroot
  obtain ⟨a, ha⟩ := hread
  have hindex : (Json.object members).index "params" = .ok (.object params) := by
    rw [Json.index, hparams]
    rfl
  have hid : (Json.object members).index "id" = .ok ((members.lookup "id").getD .null) := rfl
  -- the parameters are read in one way only
  have hserved : Served read wrong (fun a => k a w.calls.length) params ↔
      (wrong a = true ∨ k a w.calls.length) := by
    constructor
    · intro hgiven
      obtain ⟨a', ha', h⟩ := hgiven
      rw [ha] at ha'
      cases ha'
      exact h
    · intro h
      exact ⟨a, ha, h⟩
  rw [hserved, survives_iff_wp]
  -- no call is made before the operation runs
  have hrest (w' : World) (hcalls : w'.calls = w.calls) :
      EnvM.wp (if wrong a then do
          respond "result" (.string (str "failed"))
          return false
        else do
          let ok ← EnvM.recover (do operation a; return true) returned
          respond "result" (.string (str (if ok then "success" else "failed")))
          return ok) (fun _ => Reported) (fun _ _ => False) env w' ↔
        (wrong a = true ∨ k a w.calls.length) := by
    rw [EnvM.wp_ite, wp_reported_iff, hends, hcalls]
    cases wrong a with
    | true => simpa [respond] using reported_respond w' false
    | false => simp
  simp only [handle, EnvM.wp_bind (x := EnvM.ofExcept _), EnvM.wp_ofExcept, hindex, ha, hid]
  exact hrest ((w.respond "jsonrpc" _).respond "id" _) rfl

section

variable (ssl : OpenSSL) {root : Json} {params : Object} {env : Env} {w : World}

/-- Each handler survives a request exactly when it refuses the parameters or its operation
    can read the replies it gets to. -/
theorem handlers_survive_iff (hroot : WellTyped root params) :
    (Survives (atomInitiate ssl root) env w ↔
      Served readInitiate wrongInitiate (fun a => FundReadable a.2 env w.calls.length) params) ∧
    (Survives (atomInitiateCfos ssl root) env w ↔
      Served readInitiateCfos wrongInitiateCfos
        (fun a => FundReadable a.2 env w.calls.length) params) ∧
    (Survives (atomParticipate ssl root) env w ↔
      Served readParticipate wrongParticipate
        (fun a => FundReadable a.2.2 env w.calls.length) params) ∧
    (Survives (atomParticipateCfos ssl root) env w ↔
      Served readParticipateCfos wrongParticipateCfos
        (fun a => FundReadable a.2.2 env w.calls.length) params) ∧
    (Survives (atomRedeemCoin ssl root) env w ↔
      Served readRedeem wrongRedeem (fun a => RedeemReadable ssl a.conf a.contract a.txid a.secret
        a.redeemAddress env w.calls.length) params) ∧
    (Survives (atomRefundCoin ssl root) env w ↔
      Served readRefund wrongRefund (fun a => RefundReadable ssl a.conf a.contract a.txid
        a.refundAddress env w.calls.length) params) ∧
    (Survives (atomExtractSecret ssl root) env w ↔
      Served readExtract wrongExtract (fun _ => ExtractReadable env w.calls.length) params) := by
  refine ⟨?_, ?_, ?_, ?_, ?_, ?_, ?_⟩
  · exact survives_handle_iff hroot (readInitiate_ok hroot)
      (k := fun a n => FundReadable a.2 env n)
      fun a w' => ends_initiate ssl a.1 a.2
  · exact survives_handle_iff hroot (readInitiateCfos_ok hroot)
      (k := fun a n => FundReadable a.2 env n)
      fun a w' => ends_initiate ssl a.1 a.2
  · exact survives_handle_iff hroot (readParticipate_ok hroot)
      (k := fun a n => FundReadable a.2.2 env n)
      fun a w' => ends_participate ssl a.1 a.2.1 a.2.2
  · exact survives_handle_iff hroot (readParticipateCfos_ok hroot)
      (k := fun a n => FundReadable a.2.2 env n)
      fun a w' => ends_participate ssl a.1 a.2.1 a.2.2
  · exact survives_handle_iff hroot (readRedeem_ok hroot)
      (k := fun a n => RedeemReadable ssl a.conf a.contract a.txid a.secret
        a.redeemAddress env n)
      fun a w' => ends_redeem a.contract a.txid a.secret a.redeemAddress
  · exact survives_handle_iff hroot (readRefund_ok hroot)
      (k := fun a n => RefundReadable ssl a.conf a.contract a.txid a.refundAddress env n)
      fun a w' => ends_refund a.contract a.txid a.refundAddress
  · exact survives_handle_iff hroot (readExtract_ok hroot)
      (k := fun _ n => ExtractReadable env n)
      fun a w' => ends_extractSecret ssl a.txid a.secretHash a.conf

end

/-- The members every request has: the address of a bitcoin node. -/
def sampleConfTexts : List (String × String) :=
  [("cointype", "bitcoin"), ("rpcaddress", "127.0.0.1"), ("rpcport", "8332"),
    ("rpcusername", "user"), ("rpcpassword", "password")]

/-- The parameters with these texts, an amount and a node's address. -/
def sampleParams (texts : List (String × String)) : Object :=
  ("amount", .int 1) :: (texts ++ sampleConfTexts).map fun p => (p.1, .string (str p.2))

/-- The request with these parameters. -/
def requestOf (params : Object) : Json := .object [("id", .int 1), ("params", .object params)]

theorem wellTyped_sampleParams (texts : List (String × String))
    (h : ∀ p ∈ texts, p.1 ≠ "amount") :
    WellTyped (requestOf (sampleParams texts)) (sampleParams texts) := by
  have hconf : ∀ p ∈ sampleConfTexts, p.1 ≠ "amount" := by decide
  refine ⟨_, rfl, rfl, ?_⟩
  intro key v hv
  obtain ⟨l₁, l₂, hsplit, hfirst⟩ := List.lookup_eq_some_iff.mp hv
  have hmem : (key, v) ∈ sampleParams texts := by
    rw [hsplit]
    simp
  obtain heq | hmem := List.mem_cons.mp hmem
  · cases heq
    exact .inl ⟨1, rfl⟩
  · obtain ⟨p, hp, heq⟩ := List.mem_map.mp hmem
    cases heq
    have hkey : p.1 ≠ "amount" := by
      obtain hp | hp := List.mem_append.mp hp
      · exact h p hp
      · exact hconf p hp
    rw [if_neg hkey]
    exact ⟨_, rfl⟩

/-- The node that answers every call with a transaction id. -/
def txidEnv : Env := Env.sample fun _ => RpcAnswer.result (.string sampleTxid)

def sampleFundTexts : List (String × String) :=
  [("themaddress", "1cMh228HTCiwS8ZsaakH8A8wze1JR5ZsP"),
    ("refundaddress", "1BgGZ9tcN4rm9KBzDn7KprQz87SZ26SAMH")]

/-- An Initiate whose node answers with a transaction id. -/
theorem handlers_survive_initiate :
    Survives (atomInitiate sampleSSL (requestOf (sampleParams sampleFundTexts))) txidEnv
      World.initial := by
  have hroot := wellTyped_sampleParams sampleFundTexts (by decide)
  refine (handlers_survive_iff sampleSSL hroot).1.mpr ⟨_, rfl, .inr ⟨?_, ?_⟩⟩
  · intro hunresolved
    cases hunresolved
  · intro v hv
    cases hv
    refine ⟨_, rfl, ?_⟩
    intro _
    exact ⟨⟨.null, rfl, .inl rfl⟩, fun _ => ⟨sampleTxid, rfl⟩⟩

/-- A contract of one byte, the first that the recogniser tests. -/
def sampleShortTexts : List (String × String) :=
  [("contract", "63"), ("txid", "11"), ("secret", "11"),
    ("redeemaddress", "1cMh228HTCiwS8ZsaakH8A8wze1JR5ZsP")]

/-- A Redeem of that contract throws before it makes a call. -/
theorem redeem_short_contract_throws :
    WellTyped (requestOf (sampleParams sampleShortTexts)) (sampleParams sampleShortTexts) ∧
      (∀ n, ∃ reply, txidEnv.answers n = .reply (.object reply)) ∧
      ¬ Survives (atomRedeemCoin sampleSSL (requestOf (sampleParams sampleShortTexts))) txidEnv
        World.initial := by
  refine ⟨wellTyped_sampleParams _ (by decide), fun _ => ⟨_, rfl⟩, ?_⟩
  intro hgiven
  obtain ⟨ok, w', h, _⟩ := hgiven
  -- the first byte is OP_IF, and there is no second
  have hthrows : (atomRedeemCoin sampleSSL (requestOf (sampleParams sampleShortTexts)) txidEnv
      World.initial).1 = .error .outOfRange := by rfl
  rw [h] at hthrows
  cases hthrows

end CrossChain
