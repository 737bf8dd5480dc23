import CrossChain.Spec.Encoding
import CrossChain.Spec.FindAndDelete

/-!
# What SignatureHash commits to

With `SIGHASH_ALL` the bytes hashed are the encoding of the transaction with its
input scripts blanked, and the hash type.  They do not depend on the scripts, and
by unique decodability they determine everything else
(`signaturePreimage_commits`).
-/

namespace CrossChain

/-- An input without its script. -/
def CTxIn.blank (i : CTxIn) : CTxIn := { i with scriptSig := [] }

/-- The script code `SignatureHash` puts into the signed input. -/
def signedCode (scriptCode : CScript) : CScript :=
  (scriptCode.findAndDelete [opCodeSeparator]).1

/-- The transaction whose encoding is hashed for input `nIn` with `SIGHASH_ALL`. -/
def CTransaction.signed (tx : CTransaction) (scriptCode : CScript) (nIn : Nat) : CTransaction :=
  { tx with
    vin := (tx.vin.map CTxIn.blank).modify nIn fun i =>
      { i with scriptSig := signedCode scriptCode } }

/-- `tx` with the script of input `k` replaced by `scripts k`. -/
def CTransaction.withScripts (tx : CTransaction) (scripts : Nat → CScript) : CTransaction :=
  { tx with vin := tx.vin.mapIdx fun k i => { i with scriptSig := scripts k } }

/-- Equal bytes were signed: the transactions agree but for their input scripts, the script
    codes but for code separators, and so do the inputs if there is any code. -/
structure SignedAlike (coinType : Str) (code code' : CScript) (tx tx' : CTransaction)
    (nIn nIn' : Nat) : Prop where
  nVersion : tx.nVersion = tx'.nVersion
  nTime : coinType = str "blackcoin" → tx.nTime = tx'.nTime
  vin : tx.vin.map (fun i => (i.prevout, i.nSequence)) =
    tx'.vin.map fun i => (i.prevout, i.nSequence)
  vout : tx.vout.map (fun o => (o.nValue, o.scriptPubKey)) =
    tx'.vout.map fun o => (o.nValue, o.scriptPubKey)
  nLockTime : tx.nLockTime = tx'.nLockTime
  scriptCode : signedCode code = signedCode code'
  index : signedCode code ≠ [] → nIn = nIn'

/-! ## The bytes hashed -/

theorem signaturePreimage_eq {tx : CTransaction} {nIn : Nat} (code : CScript)
    (h : nIn < tx.vin.length) : signaturePreimage code tx nIn sighashAll =
      .ok ((tx.signed code nIn).serialize ++ writeUInt32 sighashAll) := by
  have hin : ¬ tx.vin.length ≤ nIn := by omega
  have hnone : ¬ sighashAll &&& 0x1f = sighashNone := by decide
  have hsingle : ¬ sighashAll &&& 0x1f = sighashSingle := by decide
  have hpay : ¬ sighashAll &&& sighashAnyoneCanPay ≠ 0 := by decide
  rw [signaturePreimage, signatureTx]
  simp only [hin, hnone, hsingle, hpay, if_false]
  rfl

/-- Blanking forgets which scripts were there. -/
theorem signed_withScripts (tx : CTransaction) (scripts : Nat → CScript) (code : CScript)
    (nIn : Nat) : (tx.withScripts scripts).signed code nIn = tx.signed code nIn := by
  have hblank : (tx.withScripts scripts).vin.map CTxIn.blank = tx.vin.map CTxIn.blank := by
    apply List.ext_getElem
    · simp [CTransaction.withScripts]
    · intro k hk hk'
      simp [CTransaction.withScripts, CTxIn.blank]
  unfold CTransaction.signed
  rw [hblank]
  rfl

/-- The scripts of the signed transaction: the code at the signed input, none elsewhere. -/
theorem signed_scriptSig (tx : CTransaction) (code : CScript) (nIn : Nat) {k : Nat}
    (hk : k < tx.vin.length) :
    (tx.signed code nIn).vin[k]?.map (·.scriptSig) =
      some (if nIn = k then signedCode code else []) := by
  by_cases h : nIn = k
  · subst h
    simp [CTransaction.signed, hk]
  · simp [CTransaction.signed, h, hk, CTxIn.blank]

/-- What is signed of the inputs besides their scripts. -/
theorem signed_vin_map (tx : CTransaction) (code : CScript) (nIn : Nat) :
    (tx.signed code nIn).vin.map (fun i => (i.prevout, i.nSequence)) =
      tx.vin.map fun i => (i.prevout, i.nSequence) := by
  apply List.ext_getElem
  · simp [CTransaction.signed]
  · intro k hk hk'
    by_cases h : nIn = k
    · subst h
      simp [CTransaction.signed, CTxIn.blank]
    · simp [CTransaction.signed, h, CTxIn.blank]

theorem signed_ofType {coinType : Str} {tx : CTransaction} (h : tx.OfType coinType)
    (code : CScript) (nIn : Nat) : (tx.signed code nIn).OfType coinType :=
  ⟨h.type_eq, h.vout_eq⟩

theorem signed_sized {tx : CTransaction} (h : tx.Sized) {code : CScript}
    (hcode : code.length < 2 ^ 64) (nIn : Nat) : (tx.signed code nIn).Sized := by
  have hlen := CScript.length_findAndDelete_le code
  refine ⟨?_, h.vout, ?_, h.scriptPubKey⟩
  · simpa [CTransaction.signed] using h.vin
  · intro i hi
    obtain ⟨k, hk, rfl⟩ := List.mem_iff_getElem.mp hi
    have hk' : k < tx.vin.length := by simpa [CTransaction.signed] using hk
    have hscript := signed_scriptSig tx code nIn hk'
    rw [List.getElem?_eq_getElem hk, Option.map_some] at hscript
    rw [Option.some.inj hscript]
    split
    · rw [signedCode]
      omega
    · simp

/-! ## Every transaction -/

/-- The bytes hashed do not depend on the input scripts, and determine the rest. -/
theorem signaturePreimage_commits (coinType : Str) {code code' : CScript} {tx tx' : CTransaction}
    {nIn nIn' : Nat} (htx : tx.OfType coinType) (htx' : tx'.OfType coinType) (hsized : tx.Sized)
    (hsized' : tx'.Sized) (hcode : code.length < 2 ^ 64) (hcode' : code'.length < 2 ^ 64)
    (hn : nIn < tx.vin.length) (hn' : nIn' < tx'.vin.length) :
    ∃ bytes, signaturePreimage code tx nIn sighashAll = .ok bytes ∧
      (∀ scripts : Nat → CScript,
        signaturePreimage code (tx.withScripts scripts) nIn sighashAll = .ok bytes) ∧
      (signaturePreimage code' tx' nIn' sighashAll = .ok bytes →
        SignedAlike coinType code code' tx tx' nIn nIn') := by
  refine ⟨_, signaturePreimage_eq code hn, fun scripts => ?_, fun heq => ?_⟩
  · have hlen : nIn < (tx.withScripts scripts).vin.length := by
      simpa [CTransaction.withScripts] using hn
    rw [signaturePreimage_eq code hlen, signed_withScripts]
  · rw [signaturePreimage_eq code' hn'] at heq
    -- the encodings of the blanked transactions are told apart
    obtain ⟨hcontent, _⟩ := decodes_transaction coinType
      ⟨signed_ofType htx' code' nIn', signed_sized hsized' hcode' nIn'⟩
      ⟨signed_ofType htx code nIn, signed_sized hsized hcode nIn⟩ (Except.ok.inj heq)
    have hagree := agrees_of_content (signed_ofType htx code nIn) (signed_ofType htx' code' nIn')
      hcontent.symm
    have hmap := congrArg (List.map fun i => (i.prevout, i.nSequence)) hagree.vin
    rw [signed_vin_map, signed_vin_map] at hmap
    have hlen : tx.vin.length = tx'.vin.length := by
      simpa using congrArg List.length hmap
    -- the script code stands at the signed input, so it or the input tells the two apart
    have hscript {k : Nat} (hk : k < tx.vin.length) :
        (if nIn = k then signedCode code else []) =
          if nIn' = k then signedCode code' else [] := by
      have hget := signed_scriptSig tx code nIn hk
      rw [hagree.vin, signed_scriptSig tx' code' nIn' (by omega)] at hget
      exact (Option.some.inj hget).symm
    have hfirst := hscript hn
    have hsecond := hscript (k := nIn') (by omega)
    rw [if_pos rfl] at hfirst hsecond
    have hvout : tx.vout = tx'.vout := hagree.vout
    refine ⟨hagree.nVersion, hagree.nTime, hmap, by rw [hvout], hagree.nLockTime, ?_, ?_⟩
    · by_cases h : nIn' = nIn
      · rw [if_pos h] at hfirst
        exact hfirst
      · rw [if_neg h] at hfirst
        rw [if_neg fun h' => h h'.symm] at hsecond
        rw [hfirst, ← hsecond]
    · intro hne
      by_contra h
      rw [if_neg fun h' => h h'.symm] at hfirst
      exact hne hfirst

/-- A code separator and, for cfos, the time do not show. -/
theorem signaturePreimage_commits_cfosSample :
    SignedAlike (str "cfos") [opCodeSeparator, 0x51] [0x51] (cfosSample 1) (cfosSample 2) 0 0 := by
  have hsized (now : UInt32) (h : (cfosSample now).serialize.length < 2 ^ 64) :
      (cfosSample now).Sized := sized_of_length h
  have hcode : ([opCodeSeparator, 0x51] : CScript).length < 2 ^ 64 := by decide
  have hcode' : ([0x51] : CScript).length < 2 ^ 64 := by decide
  have hn : 0 < (cfosSample 1).vin.length := by decide
  have hn' : 0 < (cfosSample 2).vin.length := by decide
  obtain ⟨bytes, hbytes, _, hall⟩ := signaturePreimage_commits (str "cfos") (cfosSample_ofType 1)
    (cfosSample_ofType 2) (hsized 1 (by decide)) (hsized 2 (by decide)) hcode hcode' hn hn'
  apply hall
  rw [← hbytes]
  decide

end CrossChain
