import CrossChain.Spec.Robust

/-!
# The guards of the handlers

A handler refuses a request before it starts its operation, or passes control
to it.  Each guard covers the parameters its handler reads, except that of
`AtomParticipateCfos`, which does not look at `fromaddress` (`guards_iff`).
-/

namespace CrossChain

open AtomRpc

/-- The seven swap handlers. -/
inductive SwapHandler where
  | initiate
  | initiateCfos
  | participate
  | participateCfos
  | redeemCoin
  | refundCoin
  | extractSecret
  deriving DecidableEq

namespace SwapHandler

/-! ## What a handler reads -/

/-- The texts all handlers read. -/
def confTexts : List String := ["cointype", "rpcaddress", "rpcport", "rpcusername", "rpcpassword"]

/-- The texts `AtomInitiateCfos` and `AtomParticipateCfos` read besides `fromaddress`. -/
def cfosTexts : List String :=
  ["themaddress", "feeaddress", "feechangeaddress", "assetchangeaddress", "cfostype",
    "refundaddress"]

/-- The texts a handler reads. -/
def texts : SwapHandler → List String
  | initiate => ["themaddress", "refundaddress"] ++ confTexts
  | initiateCfos => "fromaddress" :: cfosTexts ++ confTexts
  | participate => ["themaddress", "refundaddress", "secrethash"] ++ confTexts
  | participateCfos => "fromaddress" :: cfosTexts ++ "secrethash" :: confTexts
  | redeemCoin => ["contract", "txid", "secret", "redeemaddress"] ++ confTexts
  | refundCoin => ["contract", "txid", "refundaddress"] ++ confTexts
  | extractSecret => ["txid", "secrethash"] ++ confTexts

/-- Whether it reads an amount. -/
def readsAmount : SwapHandler → Bool
  | initiate | initiateCfos | participate | participateCfos => true
  | redeemCoin | refundCoin | extractSecret => false

/-- The texts its guard tests. -/
def tested : SwapHandler → List String
  | participateCfos => cfosTexts ++ "secrethash" :: confTexts
  | h => h.texts

/-- The parameters as it holds them. -/
def Args : SwapHandler → Type
  | initiate | initiateCfos => FundParams × RpcConf
  | participate | participateCfos => FundParams × Str × RpcConf
  | redeemCoin => RedeemParams
  | refundCoin => RefundParams
  | extractSecret => ExtractParams

def read : (h : SwapHandler) → Json → Except Exn h.Args
  | initiate => readInitiate
  | initiateCfos => readInitiateCfos
  | participate => readParticipate
  | participateCfos => readParticipateCfos
  | redeemCoin => readRedeem
  | refundCoin => readRefund
  | extractSecret => readExtract

def wrong : (h : SwapHandler) → h.Args → Bool
  | initiate => wrongInitiate
  | initiateCfos => wrongInitiateCfos
  | participate => wrongParticipate
  | participateCfos => wrongParticipateCfos
  | redeemCoin => wrongRedeem
  | refundCoin => wrongRefund
  | extractSecret => wrongExtract

/-- The handler with `operation` in place of its swap operation. -/
def runWith (h : SwapHandler) (operation : h.Args → Swap Unit) : Json → Handler :=
  handle h.read h.wrong operation

/-- Its swap operation. -/
def operation (ssl : OpenSSL) : (h : SwapHandler) → h.Args → Swap Unit
  | initiate | initiateCfos => fun a => CrossChain.initiate ssl a.1 a.2
  | participate | participateCfos => fun a => CrossChain.participate ssl a.1 a.2.1 a.2.2
  | redeemCoin => fun a => redeem ssl a.contract a.txid a.secret a.redeemAddress a.conf
  | refundCoin => fun a => refund ssl a.contract a.txid a.refundAddress a.conf
  | extractSecret => fun a => CrossChain.extractSecret ssl a.txid a.secretHash a.conf

/-- The handler of the source. -/
def handler (ssl : OpenSSL) : SwapHandler → Json → Handler
  | initiate => atomInitiate ssl
  | initiateCfos => atomInitiateCfos ssl
  | participate => atomParticipate ssl
  | participateCfos => atomParticipateCfos ssl
  | redeemCoin => atomRedeemCoin ssl
  | refundCoin => atomRefundCoin ssl
  | extractSecret => atomExtractSecret ssl

theorem handler_eq (ssl : OpenSSL) (h : SwapHandler) :
    h.handler ssl = h.runWith (h.operation ssl) := by
  cases h <;> rfl

/-! ## Refused and passed on -/

/-- The world once the envelope of the reply is written. -/
def envelope (w : World) (id : Json) : World :=
  (w.respond "jsonrpc" (.string (str "2.0"))).respond "id" id

/-- Running an operation and reporting its result. -/
def report (operation : Swap Unit) : Handler := do
  let ok ← EnvM.recover (do operation; return true) returned
  respond "result" (.string (str (if ok then "success" else "failed")))
  return ok

/-- The request is answered "failed" and `false`, without the operation, whichever it is. -/
def Refuses (h : SwapHandler) (root : Json) : Prop :=
  ∃ id, root.index "id" = .ok id ∧ ∀ operation env w, h.runWith operation root env w =
    (.ok false, (envelope w id).respond "result" (.string (str "failed")))

/-- Control goes to the operation, whichever it is, with the arguments `a`. -/
def Passes (h : SwapHandler) (root : Json) (a : h.Args) : Prop :=
  ∃ id, root.index "id" = .ok id ∧ ∀ operation env w, h.runWith operation root env w =
    report (operation a) env (envelope w id)

/-- The text is read and not empty. -/
def NonEmpty (params : Object) (key : String) : Prop :=
  ∃ s, readString (.object params) key = .ok s ∧ s ≠ []

/-- The amount, if the handler reads one, is not negative. -/
def AmountFits (h : SwapHandler) (params : Object) : Prop :=
  h.readsAmount = true → ∃ q, readAmount (.object params) = .ok q ∧ 0 ≤ q

/-- What the guard tests is there. -/
def Tested (h : SwapHandler) (params : Object) : Prop :=
  (∀ key ∈ h.tested, NonEmpty params key) ∧ h.AmountFits params

/-- Every text the handler reads is non-empty and the amount not negative. -/
def Complete (h : SwapHandler) (params : Object) : Prop :=
  (∀ key ∈ h.texts, NonEmpty params key) ∧ h.AmountFits params

/-- Only a complete request gets to the operation, any other is refused. -/
def Guarded (h : SwapHandler) (root : Json) (params : Object) : Prop :=
  (∀ a, h.Passes root a → h.Complete params) ∧ (¬ h.Complete params → h.Refuses root)

section

variable {h : SwapHandler} {root : Json} {params : Object}

theorem index_params (hroot : WellTyped root params) :
    root.index "params" = .ok (.object params) ∧ ∃ id, root.index "id" = .ok id := by
  obtain ⟨members, rfl, hparams, _⟩ := hroot
  rw [Json.index, hparams]
  exact ⟨rfl, _, rfl⟩

/-- A guard that finds something wrong ends the request, any other starts the operation. -/
theorem refuses_or_passes (hroot : WellTyped root params) {a : h.Args}
    (ha : h.read (.object params) = .ok a) :
    (h.wrong a = true → h.Refuses root) ∧ (h.wrong a = false → h.Passes root a) := by
  obtain ⟨hparams, id, hid⟩ := index_params hroot
  have hrun (operation : h.Args → Swap Unit) (env : Env) (w : World) :
      h.runWith operation root env w =
        (if h.wrong a then do
          respond "result" (.string (str "failed"))
          return false
        else report (operation a)) env (envelope w id) := by
    rw [runWith, handle]
    simp only [EnvM.bind_run, EnvM.ofExcept_run, hparams, ha, hid]
    rfl
  constructor
  · intro hwrong
    refine ⟨id, hid, ?_⟩
    intro operation env w
    rw [hrun, if_pos hwrong]
    rfl
  · intro hwrong
    refine ⟨id, hid, ?_⟩
    intro operation env w
    rw [hrun, if_neg (by simp [hwrong])]

theorem nonEmpty_iff {key : String} {s : Str} (hs : readString (.object params) key = .ok s) :
    NonEmpty params key ↔ s.isEmpty = false := by
  rw [NonEmpty, hs]
  simp

theorem amountFits_iff {q : ℚ} (hreads : h.readsAmount = true)
    (hq : readAmount (.object params) = .ok q) :
    h.AmountFits params ↔ decide (q < 0) = false := by
  rw [AmountFits, hq]
  simp [hreads]

theorem amountFits_of_not_reads (hreads : h.readsAmount = false) : h.AmountFits params := by
  rw [AmountFits, hreads]
  simp

theorem confEmpty_eq_false_iff {conf : RpcConf} (hconf : readConf (.object params) = .ok conf) :
    confEmpty conf = false ↔ ∀ key ∈ confTexts, NonEmpty params key := by
  simp only [readConf, except_bind_eq_ok_iff, pure, Except.pure, Except.ok.injEq] at hconf
  obtain ⟨_, htype, _, haddress, _, hport, _, huser, _, hpassword, rfl⟩ := hconf
  simp [confEmpty, confTexts, nonEmpty_iff htype, nonEmpty_iff haddress, nonEmpty_iff hport,
    nonEmpty_iff huser, nonEmpty_iff hpassword, and_assoc]

theorem wrongInitiate_iff {a : FundParams × RpcConf}
    (ha : readInitiate (.object params) = .ok a) :
    wrongInitiate a = false ↔ Tested .initiate params := by
  simp only [readInitiate, except_bind_eq_ok_iff, pure, Except.pure, Except.ok.injEq] at ha
  obtain ⟨_, hthem, _, hrefund, _, hamount, _, hconf, rfl⟩ := ha
  have hfits := amountFits_iff (h := .initiate) rfl hamount
  simp only [wrongInitiate, Tested, tested, texts, nonEmpty_iff hthem, nonEmpty_iff hrefund, hfits,
    ← confEmpty_eq_false_iff hconf, List.forall_mem_append, List.forall_mem_cons,
    Bool.or_eq_false_iff]
  tauto

theorem wrongInitiateCfos_iff {a : FundParams × RpcConf}
    (ha : readInitiateCfos (.object params) = .ok a) :
    wrongInitiateCfos a = false ↔ Tested .initiateCfos params := by
  simp only [readInitiateCfos, except_bind_eq_ok_iff, pure, Except.pure, Except.ok.injEq] at ha
  obtain ⟨_, hfrom, _, hthem, _, hfee, _, hfeeChange, _, hassetChange, _, hcfos, _, hrefund, _,
    hamount, _, hconf, rfl⟩ := ha
  have hfits := amountFits_iff (h := .initiateCfos) rfl hamount
  simp only [wrongInitiateCfos, Tested, tested, texts, cfosTexts, nonEmpty_iff hfrom,
    nonEmpty_iff hthem, nonEmpty_iff hfee, nonEmpty_iff hfeeChange, nonEmpty_iff hassetChange,
    nonEmpty_iff hcfos, nonEmpty_iff hrefund, hfits, ← confEmpty_eq_false_iff hconf,
    List.forall_mem_append, List.forall_mem_cons, Bool.or_eq_false_iff]
  tauto

theorem wrongParticipate_iff {a : FundParams × Str × RpcConf}
    (ha : readParticipate (.object params) = .ok a) :
    wrongParticipate a = false ↔ Tested .participate params := by
  simp only [readParticipate, except_bind_eq_ok_iff, pure, Except.pure, Except.ok.injEq] at ha
  obtain ⟨_, hthem, _, hrefund, _, hamount, _, hhash, _, hconf, rfl⟩ := ha
  have hfits := amountFits_iff (h := .participate) rfl hamount
  simp only [wrongParticipate, Tested, tested, texts, nonEmpty_iff hthem, nonEmpty_iff hrefund,
    nonEmpty_iff hhash, hfits, ← confEmpty_eq_false_iff hconf, List.forall_mem_append,
    List.forall_mem_cons, Bool.or_eq_false_iff]
  tauto

theorem wrongParticipateCfos_iff {a : FundParams × Str × RpcConf}
    (ha : readParticipateCfos (.object params) = .ok a) :
    wrongParticipateCfos a = false ↔ Tested .participateCfos params := by
  simp only [readParticipateCfos, except_bind_eq_ok_iff, pure, Except.pure, Except.ok.injEq] at ha
  obtain ⟨_, hfrom, _, hthem, _, hfee, _, hfeeChange, _, hassetChange, _, hcfos, _, hrefund, _,
    hamount, _, hhash, _, hconf, rfl⟩ := ha
  have hfits := amountFits_iff (h := .participateCfos) rfl hamount
  simp only [wrongParticipateCfos, Tested, tested, cfosTexts, nonEmpty_iff hthem, nonEmpty_iff hfee,
    nonEmpty_iff hfeeChange, nonEmpty_iff hassetChange, nonEmpty_iff hcfos, nonEmpty_iff hrefund,
    nonEmpty_iff hhash, hfits, ← confEmpty_eq_false_iff hconf, List.forall_mem_append,
    List.forall_mem_cons, Bool.or_eq_false_iff]
  tauto

theorem wrongRedeem_iff {a : RedeemParams} (ha : readRedeem (.object params) = .ok a) :
    wrongRedeem a = false ↔ Tested .redeemCoin params := by
  simp only [readRedeem, except_bind_eq_ok_iff, pure, Except.pure, Except.ok.injEq] at ha
  obtain ⟨_, hcontract, _, htxid, _, hsecret, _, haddress, _, hconf, rfl⟩ := ha
  have hfits : AmountFits .redeemCoin params := amountFits_of_not_reads rfl
  simp only [wrongRedeem, Tested, tested, texts, nonEmpty_iff hcontract, nonEmpty_iff htxid,
    nonEmpty_iff hsecret, nonEmpty_iff haddress, hfits, ← confEmpty_eq_false_iff hconf,
    List.forall_mem_append, List.forall_mem_cons, Bool.or_eq_false_iff]
  tauto

theorem wrongRefund_iff {a : RefundParams} (ha : readRefund (.object params) = .ok a) :
    wrongRefund a = false ↔ Tested .refundCoin params := by
  simp only [readRefund, except_bind_eq_ok_iff, pure, Except.pure, Except.ok.injEq] at ha
  obtain ⟨_, hcontract, _, htxid, _, haddress, _, hconf, rfl⟩ := ha
  have hfits : AmountFits .refundCoin params := amountFits_of_not_reads rfl
  simp only [wrongRefund, Tested, tested, texts, nonEmpty_iff hcontract, nonEmpty_iff htxid,
    nonEmpty_iff haddress, hfits, ← confEmpty_eq_false_iff hconf, List.forall_mem_append,
    List.forall_mem_cons, Bool.or_eq_false_iff]
  tauto

theorem wrongExtract_iff {a : ExtractParams} (ha : readExtract (.object params) = .ok a) :
    wrongExtract a = false ↔ Tested .extractSecret params := by
  simp only [readExtract, except_bind_eq_ok_iff, pure, Except.pure, Except.ok.injEq] at ha
  obtain ⟨_, htxid, _, hhash, _, hconf, rfl⟩ := ha
  have hfits : AmountFits .extractSecret params := amountFits_of_not_reads rfl
  simp only [wrongExtract, Tested, tested, texts, nonEmpty_iff htxid, nonEmpty_iff hhash, hfits,
    ← confEmpty_eq_false_iff hconf, List.forall_mem_append, List.forall_mem_cons,
    Bool.or_eq_false_iff]
  tauto

/-- A guard finds nothing wrong exactly when what it tests is there. -/
theorem wrong_eq_false_iff {a : h.Args} (ha : h.read (.object params) = .ok a) :
    h.wrong a = false ↔ h.Tested params := by
  cases h with
  | initiate => exact wrongInitiate_iff ha
  | initiateCfos => exact wrongInitiateCfos_iff ha
  | participate => exact wrongParticipate_iff ha
  | participateCfos => exact wrongParticipateCfos_iff ha
  | redeemCoin => exact wrongRedeem_iff ha
  | refundCoin => exact wrongRefund_iff ha
  | extractSecret => exact wrongExtract_iff ha

theorem read_ok (hroot : WellTyped root params) (h : SwapHandler) :
    ∃ a, h.read (.object params) = .ok a := by
  cases h with
  | initiate => exact readInitiate_ok hroot
  | initiateCfos => exact readInitiateCfos_ok hroot
  | participate => exact readParticipate_ok hroot
  | participateCfos => exact readParticipateCfos_ok hroot
  | redeemCoin => exact readRedeem_ok hroot
  | refundCoin => exact readRefund_ok hroot
  | extractSecret => exact readExtract_ok hroot

/-- A refused request is not passed on: an operation that throws would be noticed. -/
theorem Refuses.not_passes (hrefuses : h.Refuses root) (a : h.Args) : ¬ h.Passes root a := by
  intro hpasses
  obtain ⟨id, hid, hpasses⟩ := hpasses
  obtain ⟨id', _, hrefuses⟩ := hrefuses
  have hrun := hpasses (fun _ => EnvM.stop (.raised .badIndex)) (Env.sample fun _ => .unresolved)
    World.initial
  rw [hrefuses] at hrun
  cases hrun

/-- The handler of the source answers a refused request "failed", and no node is called. -/
theorem Refuses.handler_run (hrefuses : h.Refuses root) (ssl : OpenSSL) (env : Env) (w : World) :
    ∃ w', h.handler ssl root env w = (.ok false, w') ∧ w'.calls = w.calls ∧
      w'.response.lookup "result" = some (.string (str "failed")) := by
  obtain ⟨id, _, hrun⟩ := hrefuses
  rw [handler_eq, hrun]
  exact ⟨_, rfl, rfl, Object.lookup_set_self _ _ _⟩

/-- A request is refused or passed on, by what the guard tests. -/
theorem refuses_iff (hroot : WellTyped root params) (h : SwapHandler) :
    (h.Refuses root ↔ ¬ h.Tested params) ∧ ((∃ a, h.Passes root a) ↔ h.Tested params) := by
  obtain ⟨a, ha⟩ := read_ok hroot h
  obtain ⟨hrefuses, hpasses⟩ := refuses_or_passes hroot ha
  rw [← wrong_eq_false_iff ha]
  cases hwrong : h.wrong a with
  | true =>
    have hrefused := hrefuses hwrong
    simp only [hrefused, Bool.true_eq_false, not_false_eq_true, true_and, iff_false]
    intro hpassed
    obtain ⟨a', ha'⟩ := hpassed
    exact hrefused.not_passes a' ha'
  | false =>
    have hpassed := hpasses hwrong
    simp only [not_true_eq_false, iff_false, iff_true]
    exact ⟨fun hrefused => hrefused.not_passes a hpassed, a, hpassed⟩

/-! ## The seven guards -/

/-- All that `AtomParticipateCfos` reads is there but `fromaddress`. -/
def OnlyFromMissing (params : Object) : Prop :=
  ¬ NonEmpty params "fromaddress" ∧ Tested .participateCfos params

/-- Given a secret hash, the initiate and the participate handler of a coin accept the same
    requests. -/
def AcceptAlike (root : Json) (params : Object) : Prop :=
  NonEmpty params "secrethash" →
    ((∃ a, Passes .initiate root a) ↔ ∃ a, Passes .participate root a) ∧
    ((∃ a, Passes .initiateCfos root a) ↔ ∃ a, Passes .participateCfos root a)

/-- A guard is right when what it tests is all that its handler reads. -/
theorem guarded_iff_tested (hroot : WellTyped root params) (h : SwapHandler) :
    h.Guarded root params ↔ (h.Tested params → h.Complete params) := by
  obtain ⟨hrefuses, hpasses⟩ := refuses_iff hroot h
  rw [Guarded, hrefuses]
  constructor
  · intro hguarded htested
    obtain ⟨hguard, _⟩ := hguarded
    obtain ⟨a, ha⟩ := hpasses.mpr htested
    exact hguard a ha
  · intro hcomplete
    refine ⟨fun a ha => hcomplete (hpasses.mp ⟨a, ha⟩), ?_⟩
    intro hincomplete htested
    exact hincomplete (hcomplete htested)

/-- Six handlers test all they read; the seventh leaves out `fromaddress`. -/
theorem tested_complete_iff (h : SwapHandler) (params : Object) :
    (h.Tested params → h.Complete params) ↔ (h = .participateCfos → ¬ OnlyFromMissing params) := by
  cases h with
  | participateCfos =>
    have hcomplete : Complete .participateCfos params ↔
        NonEmpty params "fromaddress" ∧ Tested .participateCfos params := by
      simp [Complete, Tested, texts, tested, and_assoc]
    rw [hcomplete, OnlyFromMissing]
    tauto
  | _ => simp [Complete, Tested, tested]

theorem tested_participate_iff (params : Object) :
    Tested .participate params ↔ NonEmpty params "secrethash" ∧ Tested .initiate params := by
  have hamount : AmountFits .participate params ↔ AmountFits .initiate params := Iff.rfl
  simp only [Tested, tested, texts, hamount, List.forall_mem_append, List.forall_mem_cons]
  tauto

theorem tested_initiateCfos_iff (params : Object) :
    NonEmpty params "secrethash" ∧ Tested .initiateCfos params ↔
      NonEmpty params "fromaddress" ∧ Tested .participateCfos params := by
  have hamount : AmountFits .initiateCfos params ↔ AmountFits .participateCfos params := Iff.rfl
  simp only [Tested, tested, texts, hamount, List.forall_mem_append, List.forall_mem_cons,
    List.cons_append]
  tauto

theorem acceptAlike_iff (hroot : WellTyped root params) :
    AcceptAlike root params ↔ ¬ OnlyFromMissing params := by
  have hparticipate := tested_participate_iff params
  have hinitiateCfos := tested_initiateCfos_iff params
  have hhash : Tested .participateCfos params → NonEmpty params "secrethash" :=
    fun h => h.1 "secrethash" (by simp [tested])
  rw [AcceptAlike, (refuses_iff hroot .initiate).2, (refuses_iff hroot .participate).2,
    (refuses_iff hroot .initiateCfos).2, (refuses_iff hroot .participateCfos).2, OnlyFromMissing]
  tauto

end

/-- Each guard is right about a request, and the variants of a coin agree on it, unless
    `fromaddress` is all that is missing for `AtomParticipateCfos`. -/
theorem guards_iff {root : Json} {params : Object} (hroot : WellTyped root params) :
    (∀ h : SwapHandler, h.Guarded root params ↔
      (h = .participateCfos → ¬ OnlyFromMissing params)) ∧
    (AcceptAlike root params ↔ ¬ OnlyFromMissing params) := by
  refine ⟨?_, acceptAlike_iff hroot⟩
  intro h
  rw [guarded_iff_tested hroot, tested_complete_iff]

/-- The guard of `AtomInitiate` on a complete request. -/
theorem guards_sample :
    Guarded .initiate (requestOf (sampleParams sampleFundTexts)) (sampleParams sampleFundTexts) := by
  have hroot := wellTyped_sampleParams sampleFundTexts (by decide)
  exact ((guards_iff hroot).1 .initiate).mpr nofun

/-- The parameters of `AtomParticipateCfos` with an empty `fromaddress`. -/
def sampleFromlessTexts : List (String × String) :=
  ("fromaddress", "") :: (cfosTexts ++ ["secrethash"]).map fun key => (key, key)

/-- That request is passed on. -/
theorem participateCfos_unguarded :
    WellTyped (requestOf (sampleParams sampleFromlessTexts)) (sampleParams sampleFromlessTexts) ∧
      readString (.object (sampleParams sampleFromlessTexts)) "fromaddress" = .ok [] ∧
      (∃ a, Passes .participateCfos (requestOf (sampleParams sampleFromlessTexts)) a) ∧
      ¬ Guarded .participateCfos (requestOf (sampleParams sampleFromlessTexts))
        (sampleParams sampleFromlessTexts) := by
  have hroot := wellTyped_sampleParams sampleFromlessTexts (by decide)
  have hfrom : readString (.object (sampleParams sampleFromlessTexts)) "fromaddress" = .ok [] := rfl
  -- the guard finds nothing wrong with what is read
  have htested : Tested .participateCfos (sampleParams sampleFromlessTexts) :=
    (wrongParticipateCfos_iff rfl).mp rfl
  refine ⟨hroot, hfrom, (refuses_iff hroot .participateCfos).2.mpr htested, ?_⟩
  rw [guarded_iff_tested hroot]
  intro hguard
  obtain ⟨s, hs, hne⟩ := (hguard htested).1 "fromaddress" (by simp [texts])
  rw [hfrom] at hs
  cases hs
  exact hne rfl

end SwapHandler

end CrossChain
