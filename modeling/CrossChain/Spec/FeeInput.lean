import CrossChain.ForStd.FirstMatch
import CrossChain.Spec.Readable

/-!
# The fee input of a cfos redeem

The search for a fee output compares amounts with an integer quotient that is 0
(`feeThreshold_eq`), while 10000 base units are subtracted from what it stops
at, and the new input takes the position in the list for the output number.
So the fee input is right exactly for lists whose first entry of non-negative
amount covers the fee and has its position as output number
(`feeInput_right_iff`).
-/

namespace CrossChain

/-! ## Unspent outputs -/

/-- An entry of a `listunspent` reply: what `Redeem` reads of it, and its output number. -/
structure Unspent extends FeeEntry where
  vout : UInt32

namespace Unspent

/-- The output it is. -/
def outpoint (e : Unspent) : COutPoint := ⟨BaseUint.setHex 32 e.txid, e.vout⟩

/-- Its amount covers the fee that `Redeem` subtracts from it. -/
def Covers (e : Unspent) : Prop := (blackcoinMinTxFee : ℚ) ≤ e.amount * cfosCoin

/-- Its amount passes the test of the search. -/
def Passes (e : Unspent) : Prop := ((blackcoinMinTxFee / coin : Int) : ℚ) ≤ e.amount

instance (e : Unspent) : Decidable e.Covers := inferInstanceAs (Decidable (_ ≤ _))

instance (e : Unspent) : Decidable e.Passes := inferInstanceAs (Decidable (_ ≤ _))

/-- As the node prints it. -/
def toJson (e : Unspent) : Json :=
  .object [("txid", .string e.txid), ("vout", .int e.vout.toNat), ("address", .string e.address),
    ("scriptPubKey", .string e.scriptPubKey), ("amount", .real e.amount)]

end Unspent

/-- The json of an unspent output. -/
def ListsUnspent (unspent : Json) (e : Unspent) : Prop :=
  ReadsEntry unspent e.toFeeEntry ∧
    ∃ members, unspent = .object members ∧ members.lookup "vout" = some (.int e.vout.toNat)

theorem listsUnspent_toJson (e : Unspent) : ListsUnspent e.toJson e :=
  ⟨⟨_, .real e.amount, rfl, rfl, rfl, rfl, rfl, rfl⟩, _, rfl, rfl⟩

/-- The threshold of the search: a fee in base units divided by a coin. -/
theorem feeThreshold_eq : blackcoinMinTxFee / coin = 0 := by decide

theorem Unspent.passes_iff {e : Unspent} : e.Passes ↔ 0 ≤ e.amount := by
  rw [Passes, feeThreshold_eq, Int.cast_zero]

/-- An amount that covers the fee passes the test. -/
theorem Unspent.Covers.passes {e : Unspent} (h : e.Covers) : e.Passes := by
  have hfee : ((10000 : Int) : ℚ) ≤ e.amount * (10000 : Int) := h
  rw [passes_iff]
  push_cast at hfee
  linarith

/-! ## The search -/

section

variable {unspents : List Json} {es : List Unspent}

/-- One round of the search. -/
theorem feeUnspent_lists_cons {unspent : Json} {e : Unspent} (h : ListsUnspent unspent e)
    (i : Nat) :
    feeUnspent i (unspent :: unspents) =
      if e.Passes then .ok (some (i, unspent)) else feeUnspent (i + 1) unspents := by
  obtain ⟨⟨members, amount, rfl, _, _, _, hamount, hq⟩, _⟩ := h
  rw [feeUnspent_cons unspents hamount hq]
  exact if_congr Iff.rfl rfl rfl

/-- The search stops at the first entry that passes its test. -/
theorem feeUnspent_lists (h : List.Forall₂ ListsUnspent unspents es) (i : Nat) :
    (∀ k e, FirstMatch Unspent.Passes es k e → ∃ unspent, unspents[k]? = some unspent ∧
      ListsUnspent unspent e ∧ feeUnspent i unspents = .ok (some (i + k, unspent))) ∧
    ((∀ e ∈ es, ¬ e.Passes) → feeUnspent i unspents = .ok none) := by
  induction h generalizing i with
  | nil => exact ⟨fun k e hfirst => absurd hfirst FirstMatch.not_nil, fun _ => rfl⟩
  | @cons unspent e unspents es hlists _ ih =>
    rw [feeUnspent_lists_cons hlists]
    by_cases hpasses : e.Passes
    · rw [if_pos hpasses]
      constructor
      · intro k e' hfirst
        obtain ⟨rfl, rfl⟩ := FirstMatch.unique hfirst (FirstMatch.zero hpasses)
        exact ⟨unspent, rfl, hlists, rfl⟩
      · intro hnone
        exact absurd hpasses (hnone e List.mem_cons_self)
    · rw [if_neg hpasses]
      obtain ⟨hfound, hmissing⟩ := ih (i + 1)
      constructor
      · intro k e' hfirst
        obtain ⟨hpasses', _, _⟩ | ⟨_, j, rfl, hfirst'⟩ := FirstMatch.cons_iff.mp hfirst
        · exact absurd hpasses' hpasses
        · obtain ⟨unspent', hget, hlists', hrun⟩ := hfound j e' hfirst'
          refine ⟨unspent', hget, hlists', ?_⟩
          rw [hrun, Nat.add_right_comm]
          rfl
      · intro hnone
        exact hmissing fun e' he' => hnone e' (List.mem_cons_of_mem _ he')

end

/-! ## Runs of the fee branch -/

section

variable {ssl : OpenSSL} {conf : RpcConf} {env : Env} {w w' : World} {keyID : Uint160}
  {key : CKey} {tx : CTransaction} {reply : Object} {unspents : List Json}

/-- The call of the fee branch. -/
def listUnspentCall (conf : RpcConf) : RpcCall :=
  ⟨conf, "listunspent", [.string cfosFeeSym]⟩

/-- With a chosen entry, the branch ends otherwise or after another call. -/
theorem spendFee_ne {entry : FeeEntry} {α : Type} {sign : CBitcoinSecret → Swap α} {text : Str}
    (htext : text ≠ str "Get redeem key error when redeem.")
    (hsign : ∀ secret w, EnvM.wpState (sign secret) (· = w) env w) :
    (do
      let _ ← orFail ((CBitcoinAddress.ofString ssl entry.address).getKeyID conf.type)
        "Get redeem key error when redeem."
      let feePrikeyStr ← dumpPrivKey conf entry.address
      let secret ← orFail (CBitcoinSecret.setString ssl feePrikeyStr conf.type)
        "Set fee private key error when redeem."
      sign secret) env w ≠ (.error (.failed text), w) := by
  intro h
  cases hkey : (CBitcoinAddress.ofString ssl entry.address).getKeyID conf.type with
  | none =>
    rw [hkey] at h
    cases h
    exact htext rfl
  | some id =>
    rw [hkey, EnvM.bind_run_of_ok (orFail_eq_ok_iff.mpr ⟨rfl, rfl⟩)] at h
    -- the call for the key shows in the world
    have hstate : EnvM.wpState (do
        let feePrikeyStr ← dumpPrivKey conf entry.address
        let secret ← orFail (CBitcoinSecret.setString ssl feePrikeyStr conf.type)
          "Set fee private key error when redeem."
        sign secret) (· = w.called ⟨conf, "dumpprivkey", [.string entry.address]⟩) env w := by
      apply EnvM.wpState_bind_eq (dumpPrivKey_state entry.address)
      intro prikey
      apply EnvM.wpState_bind_eq (orFail_state _ _)
      intro secret
      exact hsign secret _
    have hw : w = w.called ⟨conf, "dumpprivkey", [.string entry.address]⟩ := by
      have hend := EnvM.wpState_iff.mp hstate
      rwa [h] at hend
    have hcalls := congrArg (fun w : World => w.calls.length) hw
    simp at hcalls

/-- The branch stops right after its first call, with that message, exactly when the search
    found nothing. -/
theorem addFeeInput_notEnough_iff (hanswer : env.answers w.calls.length = .reply (.object reply))
    (hresult : reply.lookup "result" = some (.array unspents)) {found : Option (Nat × Json)}
    (hsearch : feeUnspent 0 unspents = .ok found) :
    addFeeInput ssl conf keyID key tx env w =
        (.error (.failed (str "Not enough Fee.")), w.called (listUnspentCall conf)) ↔
      found = none := by
  have hne : reply ≠ [] := by
    intro heq
    subst heq
    simp at hresult
  have hcall : callRPC conf "listunspent" [.string cfosFeeSym] env w =
      (.ok reply, w.called (listUnspentCall conf)) := callRPC_eq_ok_iff.mpr ⟨hanswer, hne, rfl⟩
  have hread : (do
      let unspents ← Object.at' reply "result"
      let unspents ← unspents.getArray
      feeUnspent 0 unspents) = .ok found := by
    simp [except_bind_eq_ok_iff, hresult, hsearch]
  rw [addFeeInput, EnvM.bind_run_of_ok hcall, EnvM.bind_run_of_ok (raise_eq_ok_iff.mpr ⟨hread, rfl⟩)]
  cases found with
  | none => exact ⟨fun _ => rfl, fun _ => rfl⟩
  | some choice =>
    rw [EnvM.bind_run_of_ok (orFail_eq_ok_iff.mpr ⟨rfl, rfl⟩)]
    simp only [reduceCtorEq, iff_false]
    cases hentry : readFeeEntry choice.2 with
    | error e =>
      intro h
      cases h
    | ok entry =>
      rw [EnvM.bind_run_of_ok (raise_eq_ok_iff.mpr ⟨rfl, rfl⟩)]
      apply spendFee_ne (by decide)
      intro secret w₂
      apply EnvM.wpState_bind_eq (raise_state _)
      intro pubKey
      apply EnvM.wpState_bind_eq (orFail_state _ _)
      intro sig
      rfl

end

/-! ## The right fee input -/

section

variable (ssl : OpenSSL) (conf : RpcConf) (keyID : Uint160) (key : CKey) (tx : CTransaction)
  (env : Env) (w : World) (unspents : List Json) (es : List Unspent)

/-- The first entry that covers the fee is chosen, the branch ends in "Not enough Fee."
    exactly when there is none, and the input appended for the chosen entry spends it. -/
structure FeeInputRight : Prop where
  chooses : ∀ k e, FirstMatch Unspent.Covers es k e →
    ∃ unspent, unspents[k]? = some unspent ∧ feeUnspent 0 unspents = .ok (some (k, unspent))
  fails : addFeeInput ssl conf keyID key tx env w =
      (.error (.failed (str "Not enough Fee.")), w.called (listUnspentCall conf)) ↔
    ¬ ∃ e ∈ es, e.Covers
  spends : ∀ k unspent entry e, feeUnspent 0 unspents = .ok (some (k, unspent)) →
    readFeeEntry unspent = .ok entry → es[k]? = some e →
    (feeTransaction conf keyID entry k tx).vin = tx.vin ++ [⟨e.outpoint, [], uintMax - 1⟩]

/-- The first entry that passes the test, if any, covers the fee and has its position as
    output number. -/
def FirstIsOwn : Prop :=
  ∀ k e, FirstMatch Unspent.Passes es k e → e.Covers ∧ e.vout = UInt32.ofNat k

variable {ssl conf keyID key tx env w unspents es}

/-- The outpoint of the new input: the entry's transaction, and the position. -/
theorem feeTransaction_vin {entry : FeeEntry} {k : Nat} {e : Unspent}
    (hentry : entry = e.toFeeEntry) :
    (feeTransaction conf keyID entry k tx).vin = tx.vin ++ [⟨e.outpoint, [], uintMax - 1⟩] ↔
      e.vout = UInt32.ofNat k := by
  subst hentry
  constructor
  · intro h
    have hlast := List.append_cancel_left h
    simp only [List.cons.injEq, CTxIn.mk.injEq, Unspent.outpoint, COutPoint.mk.injEq] at hlast
    exact hlast.1.1.2.symm
  · intro h
    rw [feeTransaction, Unspent.outpoint, h]

/-- What the branch reads of a listed entry. -/
theorem readFeeEntry_of_lists {unspent : Json} {e : Unspent} (h : ListsUnspent unspent e) :
    readFeeEntry unspent = .ok e.toFeeEntry :=
  readFeeEntry_eq_ok_iff.mpr h.1

/-- The fee input is right when the first entry that passes the test covers the fee and is
    its own output. -/
theorem feeInputRight_of_firstIsOwn
    (hanswer : env.answers w.calls.length = .reply (.object reply))
    (hresult : reply.lookup "result" = some (.array unspents))
    (hlists : List.Forall₂ ListsUnspent unspents es) (hown : FirstIsOwn es) :
    FeeInputRight ssl conf keyID key tx env w unspents es := by
  obtain ⟨hfound, hmissing⟩ := feeUnspent_lists hlists 0
  by_cases hpasses : ∃ e ∈ es, e.Passes
  · obtain ⟨k, e, hfirst⟩ := FirstMatch.exists_iff.mpr hpasses
    obtain ⟨unspent, hget, hlist, hsearch⟩ := hfound k e hfirst
    obtain ⟨hcovers, hvout⟩ := hown k e hfirst
    rw [Nat.zero_add] at hsearch
    constructor
    · intro k' e' hfirst'
      -- the first that covers the fee is the first that passes
      obtain ⟨rfl, rfl⟩ := hfirst'.unique (hfirst.of_imp (fun _ h => h.passes) hcovers)
      exact ⟨unspent, hget, hsearch⟩
    · rw [addFeeInput_notEnough_iff hanswer hresult hsearch]
      constructor
      · intro h
        cases h
      · intro hnone
        exact absurd ⟨e, hfirst.mem, hcovers⟩ hnone
    · intro k' unspent' entry e' hsearch' hread he'
      rw [hsearch] at hsearch'
      cases hsearch'
      obtain rfl := Option.some.inj (he'.symm.trans hfirst.get)
      rw [readFeeEntry_of_lists hlist] at hread
      exact (feeTransaction_vin (Except.ok.inj hread).symm).mpr hvout
  · have hsearch : feeUnspent 0 unspents = .ok none := by
      apply hmissing
      intro e he hp
      exact hpasses ⟨e, he, hp⟩
    have hnone : ¬ ∃ e ∈ es, e.Covers := by
      intro hgiven
      obtain ⟨e, he, hcovers⟩ := hgiven
      exact hpasses ⟨e, he, hcovers.passes⟩
    constructor
    · intro k e hfirst
      exact absurd ⟨e, hfirst.mem, hfirst.holds⟩ hnone
    · rw [addFeeInput_notEnough_iff hanswer hresult hsearch]
      exact ⟨fun _ => hnone, fun _ => rfl⟩
    · intro k unspent entry e hsearch'
      rw [hsearch] at hsearch'
      cases hsearch'

/-- A right fee input needs the first entry that passes the test to cover the fee and to be
    its own output. -/
theorem FeeInputRight.firstIsOwn (h : FeeInputRight ssl conf keyID key tx env w unspents es)
    (hanswer : env.answers w.calls.length = .reply (.object reply))
    (hresult : reply.lookup "result" = some (.array unspents))
    (hlists : List.Forall₂ ListsUnspent unspents es) : FirstIsOwn es := by
  intro k e hfirst
  obtain ⟨unspent, _, hlist, hsearch⟩ := (feeUnspent_lists hlists 0).1 k e hfirst
  rw [Nat.zero_add] at hsearch
  -- the branch did not stop, so some entry covers the fee, and the first is the one chosen
  have hcovers : ∃ e ∈ es, e.Covers := by
    by_contra hnone
    have hstop := (addFeeInput_notEnough_iff hanswer hresult hsearch).mp (h.fails.mpr hnone)
    cases hstop
  obtain ⟨k', e', hfirst'⟩ := FirstMatch.exists_iff.mpr hcovers
  obtain ⟨unspent', _, hsearch'⟩ := h.chooses k' e' hfirst'
  rw [hsearch] at hsearch'
  cases hsearch'
  obtain rfl := Option.some.inj (hfirst'.get.symm.trans hfirst.get)
  have hvin := h.spends k unspent e'.toFeeEntry e' hsearch (readFeeEntry_of_lists hlist) hfirst.get
  exact ⟨hfirst'.holds, (feeTransaction_vin rfl).mp hvin⟩

end

/-- The fee input is right exactly when the first entry that passes the test covers the fee
    and has its position as output number; a branch that returned appended the input and
    output of the entry it chose. -/
theorem feeInput_right_iff (ssl : OpenSSL) (conf : RpcConf) (keyID : Uint160) (key : CKey)
    (tx : CTransaction) (env : Env) (w : World) (reply : Object) (unspents : List Json)
    (es : List Unspent)
    (hanswer : env.answers w.calls.length = .reply (.object reply))
    (hresult : reply.lookup "result" = some (.array unspents))
    (hlists : List.Forall₂ ListsUnspent unspents es) :
    (FeeInputRight ssl conf keyID key tx env w unspents es ↔ FirstIsOwn es) ∧
    ∀ tx' w', addFeeInput ssl conf keyID key tx env w = (.ok tx', w') →
      ∃ k unspent entry scriptSig, feeUnspent 0 unspents = .ok (some (k, unspent)) ∧
        readFeeEntry unspent = .ok entry ∧
        tx' = (feeTransaction conf keyID entry k tx).setScriptSig scriptSig := by
  constructor
  · constructor
    · intro h
      exact h.firstIsOwn hanswer hresult hlists
    · intro h
      exact feeInputRight_of_firstIsOwn hanswer hresult hlists h
  · intro tx' w' hrun
    obtain ⟨reply', unspents', k, unspent, entry, sig, hanswer', hresult', hsearch, hread, _,
      rfl⟩ := addFeeInput_eq_ok hrun
    rw [hanswer] at hanswer'
    cases hanswer'
    rw [hresult] at hresult'
    cases hresult'
    exact ⟨k, unspent, entry, _, hsearch, hread, rfl⟩

/-! ## Lists of unspent outputs -/

/-- An unspent output that pays to key 1. -/
def sampleListed (amount : ℚ) (vout : UInt32) : Unspent where
  txid := List.replicate 64 0x32
  scriptPubKey := str "76a914751e76e8199196d454941c45d1b3a323f1433bd688ac"
  address := str "1BgGZ9tcN4rm9KBzDn7KprQz87SZ26SAMH"
  amount := amount
  vout := vout

theorem listsUnspent_map (es : List Unspent) :
    List.Forall₂ ListsUnspent (es.map Unspent.toJson) es := by
  induction es with
  | nil => exact .nil
  | cons e es ih => exact .cons (listsUnspent_toJson e) ih

/-- A node that lists these outputs. -/
def listingEnv (es : List Unspent) : Env :=
  Env.sample (answersOf [.result (.array (es.map Unspent.toJson))])

/-- With one output of amount 1 and number 0, the fee input is right. -/
theorem feeInput_right_sample :
    FeeInputRight digestsOnly (RpcConf.localNode "cfos") (BaseUint.zero 20) CKey.invalid
      (CTransaction.new (str "cfos") 0) (listingEnv [sampleListed 1 0]) World.initial
      [(sampleListed 1 0).toJson] [sampleListed 1 0] := by
  have hown : FirstIsOwn [sampleListed 1 0] := by
    intro k e hfirst
    obtain ⟨_, rfl, rfl⟩ | ⟨_, j, _, hfirst'⟩ := FirstMatch.cons_iff.mp hfirst
    · exact ⟨by decide +kernel, rfl⟩
    · exact absurd hfirst' FirstMatch.not_nil
  exact (feeInput_right_iff digestsOnly (RpcConf.localNode "cfos") (BaseUint.zero 20) CKey.invalid
    (CTransaction.new (str "cfos") 0) (listingEnv [sampleListed 1 0]) World.initial _ _ _ rfl rfl
    (listsUnspent_map _)).1.mpr hown

/-- Of an output of amount 1/2 and number 1 and one of amount 5 and number 3, the first is
    chosen though only the second covers the fee, and what is spent is number 0. -/
theorem feeInput_wrong_choice :
    FirstMatch Unspent.Covers [sampleListed (1 / 2) 1, sampleListed 5 3] 1 (sampleListed 5 3) ∧
    feeUnspent 0 ([sampleListed (1 / 2) 1, sampleListed 5 3].map Unspent.toJson) =
      .ok (some (0, (sampleListed (1 / 2) 1).toJson)) ∧
    (feeTransaction (RpcConf.localNode "cfos") (BaseUint.zero 20)
      (sampleListed (1 / 2) 1).toFeeEntry 0 (CTransaction.new (str "cfos") 0)).vin ≠
        [⟨(sampleListed (1 / 2) 1).outpoint, [], uintMax - 1⟩] := by
  refine ⟨?_, ?_, by decide +kernel⟩
  · exact (FirstMatch.succ_iff (by decide +kernel)).mpr (FirstMatch.zero (by decide +kernel))
  · rw [List.map_cons, feeUnspent_lists_cons (listsUnspent_toJson _), if_pos (by decide +kernel)]

end CrossChain
