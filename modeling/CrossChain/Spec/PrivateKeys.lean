import CrossChain.Native.Base58

/-!
# Private keys and the strings that hold them

`CKey::Check` compares byte by byte; that is the range test 1 ≤ k < n on the
number the bytes denote (`CKey.check_iff`).  `CBitcoinSecret::SetString` makes
no such test, so what it accepts is a usable key only for the payloads in range
(`acceptedUsable_iff`).
-/

namespace CrossChain

namespace CKey

/-! ## The range check -/

/-- The second loop compares in list order. -/
theorem checkMax_iff {vs ms : Bytes} (hlen : vs.length = ms.length) :
    checkMax vs ms = true ↔ vs ≤ ms := by
  induction vs generalizing ms with
  | nil => simp [checkMax]
  | cons v vs ih =>
    obtain ⟨m, ms, rfl⟩ := List.exists_cons_of_length_eq_add_one hlen.symm
    have hlen' : vs.length = ms.length := by simpa using hlen
    rw [checkMax, List.cons_le_cons_iff, ← ih hlen']
    -- the loop is left at the first position where the strings differ
    by_cases hlt : v < m
    · simp [hlt]
    · by_cases hgt : v > m
      · have hne : v ≠ m := fun h => hlt (h ▸ hgt)
        simp [hlt, hgt, hne]
      · have heq : v = m := UInt8.le_antisymm (UInt8.not_lt.mp hgt) (UInt8.not_lt.mp hlt)
        simp [heq]

/-- The first loop finds the strings that denote 0. -/
theorem all_zero_iff (vch : Bytes) : vch.all (· == 0) = true ↔ CBigNum.bin2bn vch = 0 := by
  induction vch with
  | nil => simp [CBigNum.bin2bn]
  | cons v vs ih =>
    have hv : v = 0 ↔ v.toNat = 0 := UInt8.toNat_inj.symm
    simp [CBigNum.bin2bn_cons, ih, hv, and_comm]

theorem bin2bn_vchMax : CBigNum.bin2bn vchMax = secp256k1Order - 1 := by decide +kernel

/-- `Check` accepts exactly the numbers from 1 to n - 1. -/
theorem check_iff (vch : Bytes) (hlen : vch.length = 32) :
    check vch = true ↔
      1 ≤ CBigNum.bin2bn vch ∧ CBigNum.bin2bn vch ≤ secp256k1Order - 1 := by
  have hmax : vch.length = vchMax.length := hlen
  have hle : CBigNum.bin2bn vch ≤ CBigNum.bin2bn vchMax ↔ vch ≤ vchMax := by
    rw [← Nat.not_lt, ← List.not_lt]
    exact not_congr (Bytes.ofLE_reverse_lt_iff hmax.symm)
  rw [← bin2bn_vchMax, hle, ← checkMax_iff hmax, check]
  by_cases hzero : CBigNum.bin2bn vch = 0
  · simp [(all_zero_iff vch).mpr hzero, hzero]
  · have hall : ¬ vch.all (· == 0) = true := fun h => hzero ((all_zero_iff vch).mp h)
    rw [if_neg hall, Nat.one_le_iff_ne_zero]
    exact (and_iff_right hzero).symm

/-- The greatest private key. -/
theorem check_vchMax : check vchMax = true :=
  (check_iff vchMax rfl).mpr (by decide +kernel)

end CKey

/-! ## Accepted key strings -/

/-- A payload as `IsValid` expects it: 32 bytes, or 33 with the last one 1. -/
def SecretPayload (payload : Bytes) : Prop :=
  payload.length = 32 ∨ payload.length = 33 ∧ payload[32]? = some 1

/-- `GetPubKey` does not abort on the key, and `Sign` fails only where the library does. -/
structure UsableKey (ssl : OpenSSL) (key : CKey) : Prop where
  valid : key.fValid = true
  getPubKey : ∃ pubKey, key.getPubKey ssl = .ok pubKey
  sign : ∀ hash nHashType, key.sign ssl hash nHashType = none ↔ CKey.ecSign ssl key.vch hash = none

/-- If `SetString` accepts the text, `GetKey` gives a usable key: the first 32 bytes of the
    payload, compressed where a byte 1 follows them. -/
def AcceptedUsable (ssl : OpenSSL) (s type : Str) : Prop :=
  ∀ secret, CBitcoinSecret.setString ssl s type = some secret →
    UsableKey ssl secret.getKey ∧
      ∃ version payload, decodeBase58Check ssl s = some (version :: payload) ∧
        secret.getKey.vch.length = 32 ∧ secret.getKey.vch = payload.take 32 ∧
        (secret.getKey.fCompressed = true ↔ payload[32]? = some 1)

section

variable (ssl : OpenSSL)

theorem secretPayload_iff (payload : Bytes) :
    (payload.length == 32 || (payload.length == 33 && payload.getD 32 0 == 1)) = true ↔
      SecretPayload payload := by
  rw [SecretPayload, List.getD_eq_getElem?_getD]
  cases payload[32]? <;> simp

/-- `SetString` accepts the text of a version byte and a payload of the right shape. -/
theorem setString_eq_some_iff (s type : Str) (secret : CBitcoinSecret) :
    CBitcoinSecret.setString ssl s type = some secret ↔
      ∃ version payload, decodeBase58Check ssl s = some (version :: payload) ∧
        [version] = getPrefixesSecretKey type ∧ SecretPayload payload ∧
        secret = ⟨[version], payload⟩ := by
  rw [CBitcoinSecret.setString, CBase58Data.setString]
  rcases decodeBase58Check ssl s with _ | _ | ⟨version, payload⟩
  · simp
  · simp
  · have hvalid : CBitcoinSecret.isValid ⟨[version], payload⟩ type = true ↔
        SecretPayload payload ∧ [version] = getPrefixesSecretKey type := by
      rw [CBitcoinSecret.isValid, Bool.and_eq_true, secretPayload_iff, beq_iff_eq]
    dsimp only [Option.getD_some]
    rw [Bool.true_and]
    constructor
    · intro h
      split at h
      · rename_i hok
        obtain ⟨hpayload, hversion⟩ := hvalid.mp hok
        cases h
        exact ⟨version, payload, rfl, hversion, hpayload, rfl⟩
      · cases h
    · intro h
      obtain ⟨_, _, heq, hversion, hpayload, rfl⟩ := h
      cases heq
      rw [if_pos (hvalid.mpr ⟨hpayload, hversion⟩)]

/-- `GetKey` of a payload of the right shape, valid where its number is in range. -/
theorem getKey_of_secretPayload (version : Bytes) {payload : Bytes} (h : SecretPayload payload) :
    CBitcoinSecret.getKey ⟨version, payload⟩ =
      if 1 ≤ CBigNum.bin2bn (payload.take 32) ∧
          CBigNum.bin2bn (payload.take 32) ≤ secp256k1Order - 1 then
        ⟨true, payload[32]? = some 1, payload.take 32⟩
      else CKey.invalid := by
  have hlen : (payload.take 32).length = 32 := by
    rw [List.length_take]
    rcases h with h | ⟨h, _⟩ <;> omega
  have hcompressed : (decide (payload.length > 32) && payload.getD 32 0 == 1) =
      decide (payload[32]? = some 1) := by
    rw [List.getD_eq_getElem?_getD]
    rcases h with h | ⟨h, hbyte⟩
    · simp [h]
    · rw [hbyte, h]
      rfl
  rw [CBitcoinSecret.getKey, CKey.set, hcompressed]
  simp only [hlen, ne_eq, not_true_eq_false, ↓reduceIte, CKey.check_iff _ hlen]

theorem usableKey_iff (key : CKey) : UsableKey ssl key ↔ key.fValid = true := by
  constructor
  · intro h
    exact h.valid
  · intro hvalid
    refine ⟨hvalid, ?_, ?_⟩
    · rw [CKey.getPubKey, if_pos hvalid]
      exact ⟨_, rfl⟩
    · intro hash nHashType
      rw [CKey.sign, if_pos hvalid, Option.map_eq_none_iff]

/-- What `SetString` accepts is usable exactly when the number of its payload is a private
    key. -/
theorem acceptedUsable_iff (s type : Str) :
    AcceptedUsable ssl s type ↔
      ∀ version payload, decodeBase58Check ssl s = some (version :: payload) →
        [version] = getPrefixesSecretKey type → SecretPayload payload →
        1 ≤ CBigNum.bin2bn (payload.take 32) ∧
          CBigNum.bin2bn (payload.take 32) ≤ secp256k1Order - 1 := by
  constructor
  · intro h version payload hdecode hversion hpayload
    obtain ⟨husable, _⟩ := h ⟨[version], payload⟩ ((setString_eq_some_iff ssl s type _).mpr
      ⟨version, payload, hdecode, hversion, hpayload, rfl⟩)
    have hvalid := husable.valid
    rw [getKey_of_secretPayload [version] hpayload] at hvalid
    -- a key out of range is the invalid one
    by_contra hrange
    rw [if_neg hrange] at hvalid
    cases hvalid
  · intro h secret hset
    obtain ⟨version, payload, hdecode, hversion, hpayload, rfl⟩ :=
      (setString_eq_some_iff ssl s type secret).mp hset
    have hkey := getKey_of_secretPayload [version] hpayload
    rw [if_pos (h version payload hdecode hversion hpayload)] at hkey
    rw [hkey, usableKey_iff]
    refine ⟨rfl, version, payload, hdecode, ?_, rfl, decide_eq_true_iff⟩
    rw [List.length_take]
    rcases hpayload with hlen | ⟨hlen, _⟩ <;> omega

end

/-- The text of the key 0 for bitcoin. -/
def zeroKeyText : Str := str "5HpHagT65TZzG1PH3CSu63k8DbpvD8s5ip4nEB3kEsreAbuatmU"

/-- The text of the key 0 is accepted, and `GetPubKey` aborts on its key. -/
theorem zero_key_accepted :
    ∃ secret, CBitcoinSecret.setString digestsOnly zeroKeyText (str "bitcoin") = some secret ∧
      secret.getKey.getPubKey digestsOnly = .error .assertFailed ∧
      ¬ AcceptedUsable digestsOnly zeroKeyText (str "bitcoin") := by
  have hdecode : decodeBase58Check digestsOnly zeroKeyText =
      some (128 :: List.replicate 32 0) := by
    decide +kernel
  have hset := (setString_eq_some_iff digestsOnly zeroKeyText (str "bitcoin") _).mpr
    ⟨128, _, hdecode, rfl, .inl rfl, rfl⟩
  refine ⟨_, hset, rfl, ?_⟩
  intro h
  obtain ⟨husable, _⟩ := h _ hset
  have hvalid := husable.valid
  cases hvalid

end CrossChain
