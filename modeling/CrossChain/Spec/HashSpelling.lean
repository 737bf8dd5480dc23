import CrossChain.Spec.Extract
import CrossChain.Spec.Txids

/-!
# The spelling of a secret hash

`Participate` reads its secret hash as hex text, in any case and with white
space; `ExtractSecret` compares the same text with a hex dump.  The secret is
reported exactly for the spelling of the dump (`spelling_reported_iff`).
-/

namespace CrossChain

/-- A digit as `HexStr` writes it. -/
def isLowerHex (c : UInt8) : Bool := (0x30 ≤ c && c ≤ 0x39) || (0x61 ≤ c && c ≤ 0x66)

/-- A 20-byte hash in lower-case digits and nothing else. -/
def LowerHash (h : Str) : Prop := h.length = 2 * 20 ∧ ∀ c ∈ h, isLowerHex c = true

/-- `ExtractSecret`, given the hash as the text `h`, returns the text of `s`. -/
def ReportsSecret (ssl : OpenSSL) (conf : RpcConf) (env : Env) (w : World) (txid h : Str)
    (s : Bytes) : Prop :=
  ∃ w', extractSecret ssl txid h conf env w = (.ok (), w') ∧
    w'.response.lookup "secret" = some (.string (hexStr s))

/-! ## Lower-case digits -/

theorem isLowerHex_hexStr (v : Bytes) : ∀ c ∈ hexStr v, isLowerHex c = true := by
  apply forall_mem_hexStr
  apply Bytes.forall_nibble
  decide +kernel

/-- A lower-case digit is the digit of its value. -/
theorem hexmap_of_isLowerHex {c : UInt8} (h : isLowerHex c = true) :
    ∃ n, phexdigit c = some n ∧ hexmap n = c := by
  have key : ∀ d, isLowerHex d = true →
      ∃ m : Fin 16, phexdigit d = some (UInt8.ofNat m) ∧ hexmap (UInt8.ofNat m) = d := by
    apply Bytes.forall_byte
    decide +kernel
  obtain ⟨m, hm⟩ := key c h
  exact ⟨_, hm⟩

/-- A byte made of two nibbles has those nibbles. -/
theorem nibbles_of_or {n m : UInt8} (hn : n < 16) (hm : m < 16) :
    ((n <<< 4) ||| m) >>> 4 = n ∧ ((n <<< 4) ||| m) &&& 15 = m := by
  have key : ∀ i < (16 : UInt8), ∀ j < (16 : UInt8),
      ((i <<< 4) ||| j) >>> 4 = i ∧ ((i <<< 4) ||| j) &&& 15 = j := by
    apply Bytes.forall_nibble
    intro i
    apply Bytes.forall_nibble
    revert i
    decide +kernel
  exact key n hn m hm

/-- An even number of lower-case digits is the dump of its bytes. -/
theorem hexStr_parseHexGo {k : Nat} {h : Str} (hlen : h.length = 2 * k)
    (hlower : ∀ c ∈ h, isLowerHex c = true) : hexStr (parseHexGo none h) = h := by
  induction k generalizing h with
  | zero =>
    obtain rfl : h = [] := List.eq_nil_of_length_eq_zero hlen
    rfl
  | succ k ih =>
    obtain ⟨c, h, rfl⟩ := List.exists_cons_of_length_eq_add_one hlen
    rw [List.length_cons] at hlen
    have hlen' : h.length = 2 * k + 1 := by omega
    obtain ⟨d, h, rfl⟩ := List.exists_cons_of_length_eq_add_one hlen'
    obtain ⟨n, hn, hc⟩ := hexmap_of_isLowerHex (hlower c (by simp))
    obtain ⟨m, hm, hd⟩ := hexmap_of_isLowerHex (hlower d (by simp))
    have hrest := ih (by simpa using hlen') fun e he => hlower e (by simp [he])
    obtain ⟨hhigh, hlow⟩ := nibbles_of_or (hexDigit_spec hn).1 (hexDigit_spec hm).1
    rw [parseHexGo_pair hn hm, hexStr_cons, hhigh, hlow, hrest, hc, hd]

/-- Among the texts of a 20-byte hash, the dump is the one in lower-case digits. -/
theorem hexStr_parseHex_iff {h : Str} (hlen : (parseHex h).length = 20) :
    hexStr (parseHex h) = h ↔ LowerHash h := by
  constructor
  · intro heq
    rw [← heq]
    exact ⟨by rw [length_hexStr, hlen], isLowerHex_hexStr _⟩
  · intro hlowerHash
    obtain ⟨hcount, hlower⟩ := hlowerHash
    have hzero : ∀ c ∈ h, c ≠ 0 := by
      intro c hc
      obtain ⟨n, hn, _⟩ := hexmap_of_isLowerHex (hlower c hc)
      exact (hexDigit_spec hn).2.2
    rw [parseHex, cStr_eq_self hzero]
    exact hexStr_parseHexGo hcount hlower

/-! ## Extraction and the spelling -/

section

variable (ssl : OpenSSL) {small : UInt8 × Bytes → Str} {env : Env} {w : World}
  {tx : CTransaction} (conf : RpcConf) (txid : Str)

/-- On the transaction that reveals `s`, extraction succeeds for one text of its hash. -/
theorem reportsSecret_iff (hsmall : ∀ i, (0x20 : UInt8) ∉ small i)
    (hnode : NodeDecodes small env w.calls.length tx) {input : CTxIn} (hvin : tx.vin = [input])
    {i₁ i₂ : UInt8 × Bytes} {op : UInt8} {s : Bytes} {is : List (UInt8 × Bytes)}
    (hs : s.length = 32) (hscript : (CScript.instrs input.scriptSig).1 = i₁ :: i₂ :: (op, s) :: is)
    (h : Str) :
    ReportsSecret ssl conf env w txid h s ↔ hexStr (ssl.ripemd160 s).bytes = h := by
  obtain ⟨w₁, _, hrun⟩ := extractSecret_single ssl conf txid h hnode hvin
    (asm_third hsmall (by omega) hscript)
  rw [parseHex_hexStr, (hashedSecret_eq_self_iff env s).mpr hs] at hrun
  rw [ReportsSecret, hrun]
  constructor
  · intro hreports
    obtain ⟨w', hok, _⟩ := hreports
    split at hok
    · assumption
    · exact absurd hok atoError_ne_ok
  · intro heq
    rw [if_pos heq]
    exact ⟨_, rfl, Object.lookup_set_self _ _ _⟩

end

/-- The secret whose hash `Participate` reads from `h` is reported for `h` exactly when `h`
    is 40 lower-case digits. -/
theorem spelling_reported_iff (ssl : OpenSSL) (small : UInt8 × Bytes → Str)
    (hsmall : ∀ i, (0x20 : UInt8) ∉ small i) (h : Str) (s : Bytes) (hs : s.length = 32)
    (hhash : (ssl.ripemd160 s).bytes = parseHex h) (tx : CTransaction) (input : CTxIn)
    (hvin : tx.vin = [input]) (i₁ i₂ : UInt8 × Bytes) (op : UInt8) (is : List (UInt8 × Bytes))
    (hscript : (CScript.instrs input.scriptSig).1 = i₁ :: i₂ :: (op, s) :: is) (env : Env)
    (w : World) (hnode : NodeDecodes small env w.calls.length tx) (conf : RpcConf) (txid : Str) :
    ReportsSecret ssl conf env w txid h s ↔ LowerHash h := by
  have hlen : (parseHex h).length = 20 := by rw [← hhash, BaseUint.length_bytes]
  rw [reportsSecret_iff ssl conf txid hsmall hnode hvin hs hscript, hhash,
    hexStr_parseHex_iff hlen]

/-- The hash of the sample secret, as `Initiate` prints it and in upper case. -/
def sampleHashText : Str := str "e5a0500d3009d803632658b21646518eb42b8433"
def upperHashText : Str := str "E5A0500D3009D803632658B21646518EB42B8433"

theorem ripemd160_sampleSecret :
    (sampleSSL.ripemd160 sampleSecret).bytes = parseHex sampleHashText := by
  decide +kernel

/-- The lower-case text is accepted. -/
theorem spelling_reported_sample :
    ReportsSecret sampleSSL (RpcConf.localNode "bitcoin")
      (Env.decoding noSmall (samplePreimageSpend sampleSig32 sampleSecret)) World.initial sampleTxid
      sampleHashText sampleSecret := by
  obtain ⟨input, o₁, o₂, pubKey, o₃, o₅, hvin, hscript⟩ :=
    samplePreimageSpend_reads length_samplePreimageScript
  have hiff := spelling_reported_iff sampleSSL noSmall space_not_mem_noSmall sampleHashText
    sampleSecret rfl ripemd160_sampleSecret _ input hvin _ _ o₃ _ (congrArg Prod.fst hscript)
    (Env.decoding noSmall (samplePreimageSpend sampleSig32 sampleSecret)) World.initial
    (nodeDecodes_decoding _ _) (RpcConf.localNode "bitcoin") sampleTxid
  exact hiff.mpr ⟨rfl, by decide +kernel⟩

/-- The upper-case text, which denotes the same hash, is not. -/
theorem upper_hash_not_reported :
    ∃ tx input i₁ i₂ op is, tx.vin = [input] ∧
      (CScript.instrs input.scriptSig).1 = i₁ :: i₂ :: (op, sampleSecret) :: is ∧
      NodeDecodes noSmall (Env.decoding noSmall tx) 0 tx ∧
      (sampleSSL.ripemd160 sampleSecret).bytes = parseHex upperHashText ∧
      ¬ ReportsSecret sampleSSL (RpcConf.localNode "bitcoin") (Env.decoding noSmall tx)
        World.initial sampleTxid upperHashText sampleSecret := by
  obtain ⟨input, o₁, o₂, pubKey, o₃, o₅, hvin, hscript⟩ :=
    samplePreimageSpend_reads length_samplePreimageScript
  have hnode := nodeDecodes_decoding noSmall (samplePreimageSpend sampleSig32 sampleSecret)
  have hupper : parseHex sampleHashText = parseHex upperHashText := by decide +kernel
  refine ⟨_, input, _, _, o₃, _, hvin, congrArg Prod.fst hscript, hnode,
    ripemd160_sampleSecret.trans hupper, ?_⟩
  have hiff := reportsSecret_iff sampleSSL (RpcConf.localNode "bitcoin") (w := World.initial)
    sampleTxid space_not_mem_noSmall hnode hvin rfl (congrArg Prod.fst hscript) upperHashText
  rw [hiff, ripemd160_sampleSecret]
  decide +kernel

end CrossChain
