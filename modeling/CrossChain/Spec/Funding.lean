import CrossChain.Spec.OperationRuns
import CrossChain.Spec.Recognise

/-!
# What Initiate and Participate fund

A run of either operation makes one call, which pays to the P2SH address of the
contract it reports (`fundContract_wp`).  Two statements about that contract:

- Redeem and Refund accept it exactly when the secret hash has 20 bytes and the lock
  time does not fall where its 32-bit form takes other than four bytes
  (`funded_accepted_iff`);
- its key hashes are those of the two addresses exactly when both decode
  (`funded_decoded_iff`).
-/

namespace CrossChain

/-! ## Runs -/

/-- A call that funds an address. -/
def IsFunding (call : RpcCall) : Prop :=
  call.method = "sendtoaddress" ∨ call.method = "sendassettoaddress"

/-- The address a funding call pays to. -/
def fundedAddress (call : RpcCall) : Option Json :=
  if call.method = "sendassettoaddress" then call.params[1]? else call.params[0]?

section

variable (ssl : OpenSSL) (p : FundParams) (conf : RpcConf)

theorem isFunding_fundCall (addr : Str) : IsFunding (fundCall p conf addr) := by
  unfold fundCall
  split
  · exact .inr rfl
  · exact .inl rfl

theorem fundedAddress_fundCall (addr : Str) :
    fundedAddress (fundCall p conf addr) = some (.string addr) := by
  unfold fundCall
  split <;> rfl

theorem fundCall_conf (addr : Str) :
    (⟨conf, (fundCall p conf addr).method, (fundCall p conf addr).params⟩ : RpcCall) =
      fundCall p conf addr := by
  unfold fundCall
  split <;> rfl

/-- What holds after a run of the shared part, however it ends: one call was made, to the
    address of the contract in the response. -/
def Funded (contract : CScript) (w w' : World) : Prop :=
  w'.calls = w.calls ++ [fundCall p conf ((contractAddress ssl conf.type contract).toString ssl)] ∧
    w'.response.lookup "Contract hex" = some (.string (hexStr contract))

theorem fundContract_wp (lockTime : Int) (secHash : Bytes) (env : Env) (w : World) :
    EnvM.wpState (fundContract ssl p conf lockTime secHash)
      (Funded ssl p conf (fundedContract ssl p conf.type lockTime secHash) w) env w := by
  simp only [fundContract, EnvM.wp_bind, wp_setResponse]
  apply EnvM.wp_mono (callChecked_state _ _ _)
  · intro reply _ heq
    subst heq
    -- the call is made; the reply can only add a "txid"
    rw [wp_raise, fundCall_conf]
    cases fundTxid conf reply with
    | error e => exact ⟨rfl, by simp⟩
    | ok txid => exact ⟨rfl, by simp⟩
  · intro _ _ heq
    subst heq
    rw [fundCall_conf]
    exact ⟨rfl, by simp⟩

theorem initiate_wp (env : Env) (w : World) :
    EnvM.wpState (initiate ssl p conf)
      (Funded ssl p conf (fundedContract ssl p conf.type (env.now + initiateLocktime)
        (ssl.ripemd160 env.rand.bytes).bytes) w) env w := by
  simp only [initiate, EnvM.wp_bind, EnvM.wp_ask, wp_setResponse]
  exact fundContract_wp ssl p conf _ _ env _

theorem participate_wp (secHash : Str) (env : Env) (w : World) :
    EnvM.wpState (participate ssl p secHash conf)
      (Funded ssl p conf (fundedContract ssl p conf.type (env.now + participateLocktime)
        (parseHex secHash)) w) env w := by
  simp only [participate, EnvM.wp_bind, EnvM.wp_ask]
  exact fundContract_wp ssl p conf _ _ env w

/-! ## Accepted by Redeem and Refund -/

/-- If the run from `w` to `w'` funds an address, then `ParseHex` of the "Contract hex" it
    reports is `contract`, `ISAtomicSwap` is true of it, and the funded address is the
    one Redeem and Refund compute from it. -/
def FundsAccepted (contract : CScript) (w w' : World) : Prop :=
  ∀ call ∈ newCalls w w', IsFunding call →
    ∃ hex, w'.response.lookup "Contract hex" = some (.string hex) ∧
      parseHex hex = contract ∧
      CScript.isAtomicSwap (parseHex hex) = .ok true ∧
      fundedAddress call =
        some (.string ((contractAddress ssl conf.type (parseHex hex)).toString ssl))

variable {ssl p conf}

theorem newCalls_of_funded {contract : CScript} {w w' : World}
    (h : Funded ssl p conf contract w w') :
    newCalls w w' = [fundCall p conf ((contractAddress ssl conf.type contract).toString ssl)] := by
  rw [newCalls, h.1, List.drop_left]

theorem fundsAccepted_iff {contract : CScript} {w w' : World}
    (h : Funded ssl p conf contract w w') :
    FundsAccepted ssl conf contract w w' ↔ CScript.isAtomicSwap contract = .ok true := by
  rw [FundsAccepted, newCalls_of_funded h]
  constructor
  · intro hall
    obtain ⟨hex, hhex, hparse, hswap, _⟩ :=
      hall _ List.mem_cons_self (isFunding_fundCall p conf _)
    rwa [hparse] at hswap
  · intro hswap call hcall _
    obtain rfl := List.mem_singleton.mp hcall
    refine ⟨hexStr contract, h.2, parseHex_hexStr contract, ?_, ?_⟩
    · rwa [parseHex_hexStr]
    · rw [parseHex_hexStr]
      exact fundedAddress_fundCall p conf _

/-- A lock time from 2^23 on that fits 32 bits takes four bytes except at 2^31 and in the
    last 2^23 values. -/
theorem lockTime_four_bytes_iff {t : Int} (hlo : 2 ^ 23 ≤ t) (hhi : t < 2 ^ 32) :
    (2 ^ 23 ≤ (CBigNum.toInt32 t).natAbs ∧ (CBigNum.toInt32 t).natAbs < 2 ^ 31) ↔
      t ≠ 2 ^ 31 ∧ t ≤ 2 ^ 32 - 2 ^ 23 := by
  by_cases ht : t < 2 ^ 31
  · rw [CBigNum.toInt32_eq_self (by omega) ht]
    omega
  · -- as an `int` the lock time is negative
    have hneg : CBigNum.toInt32 t = t - 2 ^ 32 := by
      rw [CBigNum.toInt32, Int.bmod_def, Int.emod_eq_of_lt (by omega) (by omega)]
      rw [if_neg (by omega)]
      rfl
    rw [hneg]
    omega

end

/-- What Initiate and Participate fund is accepted by Redeem and Refund exactly when the
    lock time takes four bytes and, for Participate, the secret hash has 20. -/
theorem funded_accepted_iff (ssl : OpenSSL) (p : FundParams) (conf : RpcConf) (env : Env)
    (w : World) (hnow : 1515000000 ≤ env.now) :
    (env.now + initiateLocktime < 2 ^ 32 →
      (FundsAccepted ssl conf (fundedContract ssl p conf.type (env.now + initiateLocktime)
          (ssl.ripemd160 env.rand.bytes).bytes) w (initiate ssl p conf env w).2 ↔
        env.now + initiateLocktime ≠ 2 ^ 31 ∧ env.now + initiateLocktime ≤ 2 ^ 32 - 2 ^ 23)) ∧
    ∀ secHash : Str, env.now + participateLocktime < 2 ^ 32 →
      (FundsAccepted ssl conf (fundedContract ssl p conf.type (env.now + participateLocktime)
          (parseHex secHash)) w (participate ssl p secHash conf env w).2 ↔
        (parseHex secHash).length = 20 ∧
          env.now + participateLocktime ≠ 2 ^ 31 ∧
          env.now + participateLocktime ≤ 2 ^ 32 - 2 ^ 23) := by
  constructor
  · intro hfits
    -- the secret's digest has 20 bytes, so only the lock time matters
    have hfunded := EnvM.wpState_iff.mp (initiate_wp ssl p conf env w)
    rw [fundsAccepted_iff hfunded, fundedContract, isAtomicSwap_contract_iff,
      lockTime_four_bytes_iff (by simp only [initiateLocktime]; omega) hfits]
    simp
  · intro secHash hfits
    have hfunded := EnvM.wpState_iff.mp (participate_wp ssl p conf secHash env w)
    rw [fundsAccepted_iff hfunded, fundedContract, isAtomicSwap_contract_iff,
      lockTime_four_bytes_iff (by simp only [participateLocktime]; omega) hfits]

/-! ## Concrete requests -/

/-- Pay 1 bitcoin to the address of private key 2, refunded to that of private key 1. -/
def fundSample : FundParams where
  fromAddress := []
  themAddress := str "1cMh228HTCiwS8ZsaakH8A8wze1JR5ZsP"
  feeAddress := []
  feeChangeAddress := []
  assetChangeAddress := []
  cfosType := []
  refundAddress := str "1BgGZ9tcN4rm9KBzDn7KprQz87SZ26SAMH"
  amount := 1

theorem funded_accepted_sample :
    FundsAccepted digestsOnly (RpcConf.localNode "bitcoin")
      (fundedContract digestsOnly fundSample (str "bitcoin") (1515000000 + initiateLocktime)
        (digestsOnly.ripemd160 (List.replicate 32 0x11)).bytes) World.initial
      (initiate digestsOnly fundSample (RpcConf.localNode "bitcoin")
        (Env.sample fun _ => .unresolved) World.initial).2 :=
  ((funded_accepted_iff digestsOnly fundSample (RpcConf.localNode "bitcoin")
    (Env.sample fun _ => .unresolved) World.initial (by decide)).1 (by decide)).mpr
    ⟨by decide, by decide⟩

/-! ## The addresses behind the key hashes -/

section

variable (ssl : OpenSSL)

/-- `s` is the base58check text of a pay-to-pubkey-hash address of the coin type, with
    payload `id`. -/
def IsPubkeyHashAddress (type s : Str) (id : Uint160) : Prop :=
  ∃ v, getPrefixesPubKeyAddress type = [v] ∧ decodeBase58Check ssl s = some (v :: id.bytes)

/-- `GetKeyID` succeeds on the pay-to-pubkey-hash addresses of the coin type, and on
    nothing else, and yields their payload. -/
theorem getKeyID_ofString_eq_some_iff (type s : Str) (id : Uint160) :
    (CBitcoinAddress.ofString ssl s).getKeyID type = some id ↔
      IsPubkeyHashAddress ssl type s id := by
  have hprefix : getPrefixesPubKeyAddress type = [] ∨
      ∃ v, getPrefixesPubKeyAddress type = [v] := by
    unfold getPrefixesPubKeyAddress
    split
    · exact .inr ⟨0, rfl⟩
    · split
      · exact .inr ⟨25, rfl⟩
      · exact .inl rfl
  rw [IsPubkeyHashAddress, CBitcoinAddress.ofString, CBase58Data.setString,
    CBitcoinAddress.getKeyID, CBitcoinAddress.isValid]
  -- the first decoded byte is the version, the rest the payload
  cases hdecode : decodeBase58Check ssl s with
  | none => simp
  | some b =>
    cases b with
    | nil => simp
    | cons v data =>
      simp only [Option.getD_some]
      constructor
      · intro h
        split at h
        · cases h
        · rename_i hok
          simp only [Bool.or_eq_true, Bool.not_eq_true', Bool.and_eq_false_iff,
            bne_iff_ne, ne_eq, not_or, not_not] at hok
          obtain ⟨hvalid, hv⟩ := hok
          have hlen : data.length = 20 := by simp_all
          refine ⟨v, hv.symm, ?_⟩
          obtain rfl := Option.some.inj h
          rw [BaseUint.bytes_ofBytes hlen]
      · intro hgiven
        obtain ⟨v', hv', hb⟩ := hgiven
        simp only [Option.some.injEq, List.cons.injEq] at hb
        obtain ⟨rfl, rfl⟩ := hb
        have hid : BaseUint.ofBytes 20 id.bytes = id :=
          BaseUint.ext (BaseUint.bytes_ofBytes id.length_bytes)
        simp [hv', hid]

/-- If the run from `w` to `w'` funds an address, then both addresses of the request are
    pay-to-pubkey-hash addresses of the coin type and the funded contract holds their
    payloads. -/
def FundsDecoded (p : FundParams) (conf : RpcConf) (w w' : World) : Prop :=
  ∀ call ∈ newCalls w w', IsFunding call →
    ∃ them refund : Uint160, ∃ lockTime secHash,
      IsPubkeyHashAddress ssl conf.type p.themAddress them ∧
      IsPubkeyHashAddress ssl conf.type p.refundAddress refund ∧
      w'.response.lookup "Contract hex" =
        some (.string (hexStr (atomicSwapContract refund them lockTime secHash))) ∧
      fundedAddress call = some (.string ((contractAddress ssl conf.type
        (atomicSwapContract refund them lockTime secHash)).toString ssl))

variable {ssl} {p : FundParams} {conf : RpcConf}

theorem fundsDecoded_iff {lockTime : Int} {secHash : Bytes} {w w' : World}
    (h : Funded ssl p conf (fundedContract ssl p conf.type lockTime secHash) w w') :
    FundsDecoded ssl p conf w w' ↔
      ((CBitcoinAddress.ofString ssl p.themAddress).getKeyID conf.type).isSome ∧
        ((CBitcoinAddress.ofString ssl p.refundAddress).getKeyID conf.type).isSome := by
  rw [FundsDecoded, newCalls_of_funded h]
  constructor
  · intro hall
    obtain ⟨them, refund, _, _, hthem, hrefund, _⟩ :=
      hall _ List.mem_cons_self (isFunding_fundCall p conf _)
    rw [(getKeyID_ofString_eq_some_iff ssl _ _ _).mpr hthem,
      (getKeyID_ofString_eq_some_iff ssl _ _ _).mpr hrefund]
    exact ⟨rfl, rfl⟩
  · intro hgiven call hcall _
    obtain ⟨hthem, hrefund⟩ := hgiven
    obtain rfl := List.mem_singleton.mp hcall
    obtain ⟨them, hthem⟩ := Option.isSome_iff_exists.mp hthem
    obtain ⟨refund, hrefund⟩ := Option.isSome_iff_exists.mp hrefund
    -- both lookups succeed, so no default is left in the contract
    have hcontract : fundedContract ssl p conf.type lockTime secHash =
        atomicSwapContract refund them lockTime secHash := by
      rw [fundedContract, keyIDOrDefault, keyIDOrDefault, hthem, hrefund]
      rfl
    refine ⟨them, refund, lockTime, secHash, ?_, ?_, ?_, ?_⟩
    · exact (getKeyID_ofString_eq_some_iff ssl _ _ _).mp hthem
    · exact (getKeyID_ofString_eq_some_iff ssl _ _ _).mp hrefund
    · rw [← hcontract]
      exact h.2
    · rw [← hcontract]
      exact fundedAddress_fundCall p conf _

end

/-- The key hashes a run funds are those of the request's addresses exactly when
    `GetKeyID`, whose result is not looked at, succeeds on both. -/
theorem funded_decoded_iff (ssl : OpenSSL) (p : FundParams) (conf : RpcConf) (env : Env)
    (w : World) :
    (FundsDecoded ssl p conf w (initiate ssl p conf env w).2 ↔
      ((CBitcoinAddress.ofString ssl p.themAddress).getKeyID conf.type).isSome ∧
        ((CBitcoinAddress.ofString ssl p.refundAddress).getKeyID conf.type).isSome) ∧
    ∀ secHash : Str,
      (FundsDecoded ssl p conf w (participate ssl p secHash conf env w).2 ↔
        ((CBitcoinAddress.ofString ssl p.themAddress).getKeyID conf.type).isSome ∧
          ((CBitcoinAddress.ofString ssl p.refundAddress).getKeyID conf.type).isSome) :=
  ⟨fundsDecoded_iff (EnvM.wpState_iff.mp (initiate_wp ssl p conf env w)),
    fun secHash => fundsDecoded_iff (EnvM.wpState_iff.mp (participate_wp ssl p conf secHash env w))⟩

/-- A refund address that does not decode is funded all the same. -/
theorem initiate_typo_funded :
    ¬ FundsDecoded digestsOnly { fundSample with refundAddress := str "typo" }
      (RpcConf.localNode "bitcoin") World.initial
      (initiate digestsOnly { fundSample with refundAddress := str "typo" }
        (RpcConf.localNode "bitcoin") (Env.sample fun _ => .unresolved) World.initial).2 := by
  rw [fundsDecoded_iff (EnvM.wpState_iff.mp (initiate_wp _ _ _ _ _))]
  decide +kernel

/-- A secret hash of one byte is funded at valid addresses and not accepted. -/
theorem participate_short_hash_not_accepted :
    IsPubkeyHashAddress digestsOnly (str "bitcoin") fundSample.themAddress
        (BaseUint.ofBytes 20 (hexBytes "06afd46bcdfd22ef94ac122aa11f241244a37ecc")) ∧
      IsPubkeyHashAddress digestsOnly (str "bitcoin") fundSample.refundAddress
        (BaseUint.ofBytes 20 (hexBytes "751e76e8199196d454941c45d1b3a323f1433bd6")) ∧
      ¬ FundsAccepted digestsOnly (RpcConf.localNode "bitcoin")
        (fundedContract digestsOnly fundSample (str "bitcoin") (1515000000 + participateLocktime)
          (parseHex (str "00"))) World.initial
        (participate digestsOnly fundSample (str "00") (RpcConf.localNode "bitcoin")
          (Env.sample fun _ => .unresolved) World.initial).2 := by
  refine ⟨⟨0, by decide, by decide +kernel⟩, ⟨0, by decide, by decide +kernel⟩, ?_⟩
  have hfunded := EnvM.wpState_iff.mp (participate_wp digestsOnly fundSample
    (RpcConf.localNode "bitcoin") (str "00") (Env.sample fun _ => .unresolved) World.initial)
  intro h
  have haccepted := (isAtomicSwap_contract_iff _ _ _ _).mp ((fundsAccepted_iff hfunded).mp h)
  revert haccepted
  decide

end CrossChain
