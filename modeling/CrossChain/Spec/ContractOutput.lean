import CrossChain.ForStd.FirstMatch
import CrossChain.Spec.Readable
import CrossChain.Spec.Spending
import CrossChain.Spec.Base58RoundTrip

/-!
# The contract's output

Redeem and Refund find the first output that pays to the contract's script hash
as long as the node lists addresses for every output in front of it; at one
without "addresses" the loop ends in an exception
(`findContractOut_finds_iff`).
-/

namespace CrossChain

/-! ## Pay-to-script-hash scripts -/

/-- The scripts the test accepts are those that pay to a script hash. -/
theorem CScript.isPayToScriptHash_iff {s : CScript} :
    isPayToScriptHash s = true ↔ ∃ id, s = createPayToScriptHashScript id := by
  constructor
  · intro h
    simp only [isPayToScriptHash, Bool.and_eq_true, beq_iff_eq] at h
    obtain ⟨⟨⟨hlen, h0⟩, h1⟩, h22⟩ := h
    rcases s with _ | ⟨op, _ | ⟨n, rest⟩⟩
    · simp at hlen
    · simp at hlen
    · obtain rfl : op = opHash160 := by simpa using h0
      obtain rfl : n = 0x14 := by simpa using h1
      have hrest : rest.length = 21 := by simpa using hlen
      have hlast : rest[20]? = some opEqual := by simpa using h22
      -- twenty bytes and the last opcode
      have hdrop : rest.drop 20 = [opEqual] := by
        rw [List.drop_eq_getElem_cons (by omega), List.drop_eq_nil_of_le (by omega)]
        rw [List.getElem?_eq_getElem (by omega)] at hlast
        rw [Option.some.inj hlast]
      refine ⟨⟨rest.take 20, by rw [List.length_take]; omega⟩, ?_⟩
      show opHash160 :: 0x14 :: rest = opHash160 :: 0x14 :: (rest.take 20 ++ [opEqual])
      rw [← hdrop, List.take_append_drop]
  · intro hgiven
    obtain ⟨id, rfl⟩ := hgiven
    have hlen : (createPayToScriptHashScript id).length = 23 := by
      simp [createPayToScriptHashScript, pushUint]
    have hlast : (createPayToScriptHashScript id)[22]? = some opEqual := by
      simp [createPayToScriptHashScript, pushUint]
    rw [isPayToScriptHash, hlen, hlast]
    rfl

theorem CScript.createPayToScriptHashScript_injective :
    Function.Injective CScript.createPayToScriptHashScript := by
  intro id id' h
  have hbytes : id.bytes ++ [opEqual] = id'.bytes ++ [opEqual] :=
    List.tail_eq_of_cons_eq (List.tail_eq_of_cons_eq h)
  exact BaseUint.ext (List.append_cancel_right hbytes)

/-! ## What the node reports -/

/-- An output of a decoded transaction: `addresses` is `none` where the node reports no
    "addresses". -/
structure DecodedOut where
  value : ℚ
  script : CScript
  asm : Str
  addresses : Option (List Str)

/-- The json of an output. -/
def ReportsOut (vout : Json) (o : DecodedOut) : Prop :=
  ∃ out value scriptPubKey hex, vout = .object out ∧
    out.lookup "scriptPubKey" = some (.object scriptPubKey) ∧
    out.lookup "value" = some value ∧ value.getReal = .ok o.value ∧
    scriptPubKey.lookup "addresses" = o.addresses.map (fun as => .array (as.map .string)) ∧
    scriptPubKey.lookup "hex" = some (.string hex) ∧ parseHex hex = o.script ∧
    scriptPubKey.lookup "asm" = some (.string o.asm)

/-- The coin types of the program. -/
def coinTypes : List Str := [str "bitcoin", str "blackcoin", str "cfos"]

theorem exists_scriptPrefix {type : Str} (h : type ∈ coinTypes) :
    ∃ version, getPrefixesScriptAddress type = [version] := by
  simp only [coinTypes, List.mem_cons, List.not_mem_nil, or_false] at h
  rcases h with rfl | rfl | rfl
  · exact ⟨5, rfl⟩
  · exact ⟨85, rfl⟩
  · exact ⟨5, rfl⟩

/-- The output pays to the script hash `id`. -/
def PaysTo (id : Uint160) (o : DecodedOut) : Prop :=
  o.script = CScript.createPayToScriptHashScript id

instance (id : Uint160) (o : DecodedOut) : Decidable (PaysTo id o) :=
  inferInstanceAs (Decidable (o.script = _))

/-- An output that pays to a script hash is listed with the address of that hash alone. -/
def ListedByAddress (ssl : OpenSSL) (type : Str) (o : DecodedOut) : Prop :=
  ∀ id, PaysTo id o → o.addresses =
    some [(CBitcoinAddress.set (getPrefixesScriptAddress type) id).toString ssl]

/-- The node lists addresses for the output. -/
def HasAddresses (o : DecodedOut) : Prop := o.addresses ≠ none

/-! ## The loop -/

section

variable {ssl : OpenSSL} {type : Str} {contract : CScript} {vout : Json} {vouts : List Json}
  {o : DecodedOut} {outs : List DecodedOut}

/-- The loop's test on an output with one address. -/
theorem contractTest_iff (hcoin : type ∈ coinTypes) (hlisted : ListedByAddress ssl type o)
    {address : Str} (ho : o.addresses = some [address]) :
    (CScript.isPayToScriptHash o.script &&
        (CBitcoinAddress.ofString ssl address).equals (contractAddress ssl type contract)) = true ↔
      PaysTo (CScript.getID ssl contract) o := by
  obtain ⟨version, hversion⟩ := exists_scriptPrefix hcoin
  rw [Bool.and_eq_true, CBase58Data.equals_iff, contractAddress, CScript.isPayToScriptHash_iff,
    hversion]
  -- the address of a script hash is read back
  have haddress (id : Uint160) (hid : PaysTo id o) :
      CBitcoinAddress.ofString ssl address = CBitcoinAddress.set [version] id := by
    have hone := hlisted id hid
    rw [ho, hversion] at hone
    have htext : address = (CBitcoinAddress.set [version] id).toString ssl :=
      List.head_eq_of_cons_eq (Option.some.inj hone)
    rw [htext]
    exact ofString_toString ssl version id
  constructor
  · intro h
    obtain ⟨⟨id, hid⟩, heq⟩ := h
    rw [haddress id hid] at heq
    have hbytes : id.bytes = (CScript.getID ssl contract).bytes := by
      simpa [CBitcoinAddress.set] using heq
    rw [PaysTo, hid, BaseUint.ext hbytes]
  · intro hpays
    exact ⟨⟨_, hpays⟩, haddress _ hpays⟩

/-- One round of the loop. -/
theorem contractOut_cons (hcoin : type ∈ coinTypes) (hreport : ReportsOut vout o)
    (hlisted : ListedByAddress ssl type o) (i : Nat) :
    contractOut ssl (contractAddress ssl type contract) i (vout :: vouts) =
      if o.addresses = none then .error .outOfRange
      else if PaysTo (CScript.getID ssl contract) o then .ok (some (i, o.value))
      else contractOut ssl (contractAddress ssl type contract) (i + 1) vouts := by
  obtain ⟨out, value, spk, hex, rfl, hspk, hvalue, hq, haddresses, hhex, hscript, hasm⟩ := hreport
  simp only [contractOut, Json.getObject, Object.at', hspk, hvalue, hq, haddresses, hhex, hscript,
    hasm, Json.getString, bind, Except.bind]
  cases ho : o.addresses with
  | none => rfl
  | some as =>
    rw [if_neg (by simp)]
    simp only [Option.map_some, Json.getArray]
    -- an output of a script hash has one address
    have hone (hpays : PaysTo (CScript.getID ssl contract) o) : ∃ address, as = [address] := by
      have haddresses := hlisted _ hpays
      rw [ho] at haddresses
      exact ⟨_, Option.some.inj haddresses⟩
    rcases as with _ | ⟨address, _ | ⟨address', rest⟩⟩
    · rw [if_neg fun hpays => by simpa using hone hpays]
      rfl
    · -- the test of the source
      have htest : (CScript.isPayToScriptHash o.script && (CBitcoinAddress.ofString ssl
          address).equals (contractAddress ssl type contract)) = true ↔
            PaysTo (CScript.getID ssl contract) o := contractTest_iff hcoin hlisted ho
      by_cases hpays : PaysTo (CScript.getID ssl contract) o
      · rw [if_pos hpays]
        simp only [List.map_cons, List.map_nil, htest.mpr hpays, ↓reduceIte]
        rfl
      · rw [if_neg hpays]
        simp only [List.map_cons, List.map_nil, mt htest.mp hpays, Bool.false_eq_true, ↓reduceIte]
    · rw [if_neg fun hpays => by simpa using hone hpays]
      rfl

/-- What the loop finds when addresses are listed up to the contract's output. -/
theorem contractOut_of_listed (hcoin : type ∈ coinTypes)
    (hreports : List.Forall₂ ReportsOut vouts outs)
    (hlisted : ∀ o ∈ outs, ListedByAddress ssl type o)
    (hall : UpToFirst (PaysTo (CScript.getID ssl contract)) HasAddresses outs) (i : Nat) :
    (∀ k o, FirstMatch (PaysTo (CScript.getID ssl contract)) outs k o →
      contractOut ssl (contractAddress ssl type contract) i vouts = .ok (some (i + k, o.value))) ∧
    ((∀ o ∈ outs, ¬ PaysTo (CScript.getID ssl contract) o) →
      contractOut ssl (contractAddress ssl type contract) i vouts = .ok none) := by
  induction hreports generalizing i with
  | nil => exact ⟨fun k o h => absurd h FirstMatch.not_nil, fun _ => rfl⟩
  | @cons vout o vouts outs hreport _ ih =>
    obtain ⟨hhas, hnext⟩ := hall
    rw [contractOut_cons hcoin hreport (hlisted o List.mem_cons_self), if_neg hhas]
    by_cases hpays : PaysTo (CScript.getID ssl contract) o
    · rw [if_pos hpays]
      constructor
      · intro k o' hfirst
        obtain ⟨rfl, rfl⟩ := FirstMatch.unique hfirst (FirstMatch.zero hpays)
        rfl
      · intro hnone
        exact absurd hpays (hnone o List.mem_cons_self)
    · rw [if_neg hpays]
      obtain ⟨hfound, hmissing⟩ :=
        ih (fun o' ho' => hlisted o' (List.mem_cons_of_mem _ ho')) (hnext hpays) (i + 1)
      constructor
      · intro k o' hfirst
        obtain ⟨hpays', _, _⟩ | ⟨_, j, rfl, hfirst'⟩ := FirstMatch.cons_iff.mp hfirst
        · exact absurd hpays' hpays
        · rw [hfound j o' hfirst', Nat.add_right_comm]
          rfl
      · intro hnone
        exact hmissing fun o' ho' => hnone o' (List.mem_cons_of_mem _ ho')

/-- An output without "addresses" in front of the contract's ends the loop. -/
theorem contractOut_of_unlisted (hcoin : type ∈ coinTypes)
    (hreports : List.Forall₂ ReportsOut vouts outs)
    (hlisted : ∀ o ∈ outs, ListedByAddress ssl type o)
    (hall : ¬ UpToFirst (PaysTo (CScript.getID ssl contract)) HasAddresses outs) (i : Nat) :
    contractOut ssl (contractAddress ssl type contract) i vouts = .error .outOfRange := by
  induction hreports generalizing i with
  | nil => exact absurd trivial hall
  | @cons vout o vouts outs hreport _ ih =>
    rw [contractOut_cons hcoin hreport (hlisted o List.mem_cons_self)]
    by_cases hhas : o.addresses = none
    · rw [if_pos hhas]
    · rw [if_neg hhas]
      -- so the output does not pay to the contract, and the fault lies behind it
      have hpays : ¬ PaysTo (CScript.getID ssl contract) o := by
        intro hpays
        exact hall ⟨hhas, fun hnot => absurd hpays hnot⟩
      rw [if_neg hpays]
      apply ih
      · intro o' ho'
        exact hlisted o' (List.mem_cons_of_mem _ ho')
      · intro hnext
        exact hall ⟨hhas, fun _ => hnext⟩

end

/-! ## The search -/

/-- The end of a search that found the first output that pays to the contract, or
    reported that there is none. -/
structure FindsContractOut (id : Uint160) (outs : List DecodedOut)
    (result : Except Halt (Nat × ℚ)) : Prop where
  selects : ∀ k o, FirstMatch (PaysTo id) outs k o → result = .ok (k, o.value)
  reports : result = .error (.failed (str "Can not find P2SH out when redeem.")) ↔
    ¬ ∃ o ∈ outs, PaysTo id o

section

variable {ssl : OpenSSL} {conf : RpcConf} {env : Env} {w w' : World} {contract : CScript}
  {txid : Str} {tx : Object} {vouts : List Json}

/-- The search is the loop over the decoded transaction's outputs. -/
theorem findContractOut_run (hfetch : fetchTransaction conf txid env w = (.ok tx, w'))
    (hvouts : tx.lookup "vout" = some (.array vouts)) :
    findContractOut ssl conf contract txid env w =
      match contractOut ssl (contractAddress ssl conf.type contract) 0 vouts with
      | .ok (some out) => (.ok out, w')
      | .ok none => (.error (.failed (str "Can not find P2SH out when redeem.")), w')
      | .error e => (.error (.raised e), w') := by
  rw [findContractOut, EnvM.bind_run_of_ok hfetch, EnvM.bind_run]
  simp only [Object.at', hvouts, Json.getArray, bind, Except.bind]
  cases contractOut ssl (contractAddress ssl conf.type contract) 0 vouts with
  | error e => rfl
  | ok out =>
    cases out with
    | none => rfl
    | some p => rfl

end

/-- The search that Redeem and Refund share finds the contract's output, or reports that
    there is none, exactly when the node lists addresses for every output up to the
    contract's. -/
theorem findContractOut_finds_iff (ssl : OpenSSL) (conf : RpcConf) (env : Env) (w w' : World)
    (contract : CScript) (txid : Str) (tx : Object) (vouts : List Json) (outs : List DecodedOut)
    (hcoin : conf.type ∈ coinTypes)
    (hfetch : fetchTransaction conf txid env w = (.ok tx, w'))
    (hvouts : tx.lookup "vout" = some (.array vouts))
    (hreports : List.Forall₂ ReportsOut vouts outs)
    (hlisted : ∀ o ∈ outs, ListedByAddress ssl conf.type o) :
    FindsContractOut (CScript.getID ssl contract) outs
        (findContractOut ssl conf contract txid env w).1 ↔
      UpToFirst (PaysTo (CScript.getID ssl contract)) HasAddresses outs := by
  rw [findContractOut_run hfetch hvouts]
  constructor
  · intro hfinds
    by_contra hall
    rw [contractOut_of_unlisted hcoin hreports hlisted hall 0] at hfinds
    -- an exception is neither an output nor the report that there is none
    by_cases hpays : ∃ o ∈ outs, PaysTo (CScript.getID ssl contract) o
    · obtain ⟨k, o, hfirst⟩ := FirstMatch.exists_iff.mpr hpays
      cases hfinds.selects k o hfirst
    · cases hfinds.reports.mpr hpays
  · intro hall
    obtain ⟨hfound, hmissing⟩ := contractOut_of_listed hcoin hreports hlisted hall 0
    by_cases hpays : ∃ o ∈ outs, PaysTo (CScript.getID ssl contract) o
    · obtain ⟨k, o, hfirst⟩ := FirstMatch.exists_iff.mpr hpays
      rw [hfound k o hfirst, Nat.zero_add]
      constructor
      · intro k' o' hfirst'
        obtain ⟨rfl, rfl⟩ := hfirst'.unique hfirst
        rfl
      · constructor
        · intro h
          cases h
        · intro hnot
          exact absurd hpays hnot
    · rw [hmissing fun o ho hp => hpays ⟨o, ho, hp⟩]
      constructor
      · intro k o hfirst
        exact absurd ⟨o, hfirst.mem, hfirst.holds⟩ hpays
      · exact ⟨fun _ => hpays, fun _ => rfl⟩

/-! ## Decoded transactions -/

/-- An output as a node prints it. -/
def DecodedOut.toJson (o : DecodedOut) : Json :=
  .object [("value", .real o.value), ("scriptPubKey", .object (
    (o.addresses.map fun as => ("addresses", .array (as.map .string))).toList ++
      [("hex", .string (hexStr o.script)), ("asm", .string o.asm)]))]

theorem reportsOut_toJson (o : DecodedOut) : ReportsOut o.toJson o := by
  refine ⟨_, _, _, _, rfl, rfl, rfl, rfl, ?_, ?_, parseHex_hexStr o.script, ?_⟩
  · cases o.addresses <;> rfl
  · cases o.addresses <;> rfl
  · cases o.addresses <;> rfl

/-- An output that pays to a contract. -/
def contractDecodedOut (ssl : OpenSSL) (type : Str) (contract : CScript) (value : ℚ) :
    DecodedOut where
  value := value
  script := CScript.createPayToScriptHashScript (CScript.getID ssl contract)
  asm := []
  addresses := some [(contractAddress ssl type contract).toString ssl]

theorem listedByAddress_contractDecodedOut (ssl : OpenSSL) (type : Str) (contract : CScript)
    (value : ℚ) : ListedByAddress ssl type (contractDecodedOut ssl type contract value) := by
  intro id hid
  obtain rfl := CScript.createPayToScriptHashScript_injective hid
  rfl

/-- An output of 1 that pays to the sample contract. -/
def sampleContractOut : DecodedOut :=
  contractDecodedOut sampleSSL (str "bitcoin") sampleContract 1

/-- An output that carries data. -/
def dataDecodedOut : DecodedOut := ⟨0, [0x6a], [], none⟩

/-- A node that decodes a transaction with these outputs. -/
def decodingEnv (outs : List DecodedOut) : Env := Env.sample (answersOf
  [.result (.string (str "00")),
    .result (.object [("vout", .array (outs.map DecodedOut.toJson))])])

/-- The search for the sample contract's output in it. -/
def searchDecoded (outs : List DecodedOut) : Except Halt (Nat × ℚ) :=
  (findContractOut sampleSSL (RpcConf.localNode "bitcoin") sampleContract sampleTxid
    (decodingEnv outs) World.initial).1

/-- The contract's output alone is found. -/
theorem findContractOut_finds_single :
    FindsContractOut (CScript.getID sampleSSL sampleContract) [sampleContractOut]
      (searchDecoded [sampleContractOut]) := by
  refine (findContractOut_finds_iff sampleSSL (RpcConf.localNode "bitcoin")
    (decodingEnv [sampleContractOut]) World.initial _ sampleContract sampleTxid _ _
    [sampleContractOut] (by decide) rfl rfl (.cons (reportsOut_toJson _) .nil) ?_).mpr ?_
  · intro o ho
    obtain rfl := List.mem_singleton.mp ho
    exact listedByAddress_contractDecodedOut _ _ _ _
  · exact ⟨by simp [HasAddresses, sampleContractOut, contractDecodedOut], fun _ => trivial⟩

/-- Behind a data output the contract's output is not found: the search ends in an
    exception. -/
theorem data_output_hides_contract :
    FirstMatch (PaysTo (CScript.getID sampleSSL sampleContract))
      [dataDecodedOut, sampleContractOut] 1 sampleContractOut ∧
    searchDecoded [dataDecodedOut, sampleContractOut] = .error (.raised .outOfRange) := by
  have hdata (id : Uint160) : ¬ PaysTo id dataDecodedOut := by
    intro h
    cases h
  constructor
  · exact (FirstMatch.succ_iff (hdata _)).mpr (FirstMatch.zero rfl)
  · have hloop : contractOut sampleSSL
        (contractAddress sampleSSL (RpcConf.localNode "bitcoin").type sampleContract) 0
        ([dataDecodedOut, sampleContractOut].map DecodedOut.toJson) = .error .outOfRange := by
      rw [List.map_cons, contractOut_cons (by decide) (reportsOut_toJson _)
        fun id h => absurd h (hdata id)]
      rfl
    rw [searchDecoded, findContractOut_run rfl rfl, hloop]

end CrossChain
