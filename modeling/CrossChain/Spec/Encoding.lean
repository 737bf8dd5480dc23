import CrossChain.ForStd.PrefixCode
import CrossChain.Native.Transaction

/-!
# The encoding of transactions

`Serialize` writes as many bytes as `GetSerializeSize` says, and what it writes
can be read off the front of any string: no encoding is a proper prefix of
another (`encoding_exact`).
-/

namespace CrossChain

open PrefixCode

/-! ## Transactions of one coin type -/

/-- The transaction and all its outputs are tagged with the coin type. -/
structure CTransaction.OfType (coinType : Str) (tx : CTransaction) : Prop where
  type_eq : tx.type = coinType
  vout_eq : ∀ o ∈ tx.vout, o.coinType = coinType

/-- The size of every vector is a `size_t`. -/
structure CTransaction.Sized (tx : CTransaction) : Prop where
  vin : tx.vin.length < 2 ^ 64
  vout : tx.vout.length < 2 ^ 64
  scriptSig : ∀ i ∈ tx.vin, i.scriptSig.length < 2 ^ 64
  scriptPubKey : ∀ o ∈ tx.vout, o.scriptPubKey.length < 2 ^ 64

/-- The two agree in everything an encoding of the coin type carries. -/
structure CTransaction.Agrees (coinType : Str) (tx tx' : CTransaction) : Prop where
  nVersion : tx.nVersion = tx'.nVersion
  nTime : coinType = str "blackcoin" → tx.nTime = tx'.nTime
  vin : tx.vin = tx'.vin
  vout : tx.vout = tx'.vout
  nLockTime : tx.nLockTime = tx'.nLockTime

/-! ## Fields -/

@[simp] theorem length_writeUInt32 (x : UInt32) : (writeUInt32 x).length = 4 :=
  Bytes.length_toLE 4 _

@[simp] theorem length_writeInt64 (x : Int64) : (writeInt64 x).length = 8 :=
  Bytes.length_toLE 8 _

theorem writeUInt32_inj {x y : UInt32} (h : writeUInt32 x = writeUInt32 y) : x = y := by
  have hx : Bytes.ofLE (writeUInt32 x) = x.toNat := Bytes.ofLE_toLE_of_lt x.toNat_lt
  have hy : Bytes.ofLE (writeUInt32 y) = y.toNat := Bytes.ofLE_toLE_of_lt y.toNat_lt
  apply UInt32.toNat_inj.mp
  rw [← hx, ← hy, h]

theorem writeInt64_inj {x y : Int64} (h : writeInt64 x = writeInt64 y) : x = y := by
  have hx : Bytes.ofLE (writeInt64 x) = x.toUInt64.toNat :=
    Bytes.ofLE_toLE_of_lt x.toUInt64.toNat_lt
  have hy : Bytes.ofLE (writeInt64 y) = y.toUInt64.toNat :=
    Bytes.ofLE_toLE_of_lt y.toUInt64.toNat_lt
  have huint : x.toUInt64 = y.toUInt64 := by
    apply UInt64.toNat_inj.mp
    rw [← hx, ← hy, h]
  rw [← Int64.toInt64_toUInt64 x, huint, Int64.toInt64_toUInt64]

theorem decodes_writeUInt32 : Decodes (fun _ => True) writeUInt32 id :=
  decodes_of_length (fun x _ => length_writeUInt32 x) fun _ _ _ _ h => writeUInt32_inj h

theorem decodes_writeInt64 : Decodes (fun _ => True) writeInt64 id :=
  decodes_of_length (fun x _ => length_writeInt64 x) fun _ _ _ _ h => writeInt64_inj h

/-! ## Compact sizes -/

/-- The number a compact size at the front denotes, and what follows it. -/
def compactSizeAt : Bytes → Nat × Bytes
  | [] => (0, [])
  | c :: r =>
    if c < 253 then (c.toNat, r)
    else if c = 253 then (Bytes.ofLE (r.take 2), r.drop 2)
    else if c = 254 then (Bytes.ofLE (r.take 4), r.drop 4)
    else (Bytes.ofLE (r.take 8), r.drop 8)

theorem compactSizeAt_write {n : Nat} (hn : n < 2 ^ 64) (r : Bytes) :
    compactSizeAt (writeCompactSize n ++ r) = (n, r) := by
  -- the first byte tells the four classes apart
  unfold writeCompactSize
  by_cases h1 : n < 253
  · have hbyte : (UInt8.ofNat n).toNat = n := by
      rw [UInt8.toNat_ofNat']
      omega
    have hlt : UInt8.ofNat n < 253 := by
      rw [UInt8.lt_iff_toNat_lt, hbyte]
      exact h1
    rw [if_pos h1, List.singleton_append, compactSizeAt, if_pos hlt, hbyte]
  · by_cases h2 : n ≤ 0xffff
    · have hval : Bytes.ofLE (Bytes.toLE 2 n) = n := Bytes.ofLE_toLE_of_lt (by omega)
      simp [h1, h2, compactSizeAt, List.take_left', List.drop_left', hval]
    · by_cases h3 : n ≤ 0xffffffff
      · have hval : Bytes.ofLE (Bytes.toLE 4 n) = n := Bytes.ofLE_toLE_of_lt (by omega)
        simp [h1, h2, h3, compactSizeAt, List.take_left', List.drop_left', hval]
      · have hval : Bytes.ofLE (Bytes.toLE 8 n) = n := Bytes.ofLE_toLE_of_lt (by omega)
        simp [h1, h2, h3, compactSizeAt, List.take_left', List.drop_left', hval]

theorem decodes_writeCompactSize : Decodes (· < 2 ^ 64) writeCompactSize id :=
  decodes_of_read fun _ hn r => compactSizeAt_write hn r

/-- Bytes behind their count. -/
theorem decodes_serializeBytes : Decodes (·.length < 2 ^ 64) serializeBytes id := by
  have hbytes (n : Nat) : Decodes (fun v : Bytes => v.length < 2 ^ 64 ∧ v.length = n) id id :=
    decodes_of_length (fun _ hv => hv.2) fun _ _ _ _ h => h
  have hlen := decodes_writeCompactSize.comp fun v : Bytes => v.length
  exact (hlen.append hbytes).map Prod.snd

/-- Values behind their count. -/
theorem decodes_serializeVector {α : Type} {P : α → Prop} {f : α → Bytes}
    (h : Decodes P f id) :
    Decodes (fun v : List α => v.length < 2 ^ 64 ∧ ∀ a ∈ v, P a) (serializeVector f) id := by
  have hvector := decodes_writeCompactSize.counted h
  simp only [List.map_id] at hvector
  exact hvector

/-! ## Transactions -/

theorem decodes_outPoint : Decodes (fun _ => True) COutPoint.serialize id := by
  have hhash : Decodes (fun _ : COutPoint => True) (fun o => o.hash.bytes) COutPoint.hash :=
    decodes_of_length (fun o _ => BaseUint.length_bytes o.hash)
      fun _ _ _ _ h => BaseUint.ext h
  have hn := decodes_writeUInt32.comp COutPoint.n
  exact (hhash.append' hn).map fun c => (⟨c.1, c.2⟩ : COutPoint)

theorem decodes_txIn : Decodes (·.scriptSig.length < 2 ^ 64) CTxIn.serialize id := by
  have hprevout := (decodes_outPoint.comp CTxIn.prevout).mono
    fun (i : CTxIn) (_ : i.scriptSig.length < 2 ^ 64) => trivial
  have hscript := decodes_serializeBytes.comp CTxIn.scriptSig
  have hsequence := (decodes_writeUInt32.comp CTxIn.nSequence).mono
    fun (i : CTxIn) (_ : i.scriptSig.length < 2 ^ 64) => trivial
  exact ((hprevout.append' hscript).append' hsequence).map
    fun c => (⟨c.1.1, c.1.2, c.2⟩ : CTxIn)

/-- An output of known coin type: the type says whether the trailing `int` is there. -/
theorem decodes_txOut (coinType : Str) :
    Decodes (fun o : CTxOut => o.coinType = coinType ∧ o.scriptPubKey.length < 2 ^ 64)
      CTxOut.serialize id := by
  have hvalue := (decodes_writeInt64.comp CTxOut.nValue).mono
    fun (o : CTxOut) (_ : o.coinType = coinType ∧ o.scriptPubKey.length < 2 ^ 64) => trivial
  have hscript := (decodes_serializeBytes.comp CTxOut.scriptPubKey).mono
    fun (o : CTxOut) (h : o.coinType = coinType ∧ o.scriptPubKey.length < 2 ^ 64) => h.2
  have htail : Decodes (fun o : CTxOut => o.coinType = coinType ∧ o.scriptPubKey.length < 2 ^ 64)
      (fun o => if o.coinType = str "cfos" then writeUInt32 0 else []) fun _ => () := by
    apply decodes_of_length (k := if coinType = str "cfos" then 4 else 0)
    · intro o ho
      rw [ho.1]
      split <;> simp
    · intros
      rfl
  have hfields := ((hvalue.append' hscript).append' htail).map
    fun c => (⟨c.1.1, c.1.2, coinType⟩ : CTxOut)
  apply hfields.congr_view
  intro o ho
  simp only [id, ← ho.1]

/-- What an encoding carries: `nTime` for blackcoin only. -/
def CTransaction.content (tx : CTransaction) :
    UInt32 × Option UInt32 × List CTxIn × List CTxOut × UInt32 :=
  (tx.nVersion, if tx.type = str "blackcoin" then some tx.nTime else none, tx.vin, tx.vout,
    tx.nLockTime)

theorem decodes_transaction (coinType : Str) :
    Decodes (fun tx : CTransaction => tx.OfType coinType ∧ tx.Sized) CTransaction.serialize
      CTransaction.content := by
  have hversion := (decodes_writeUInt32.comp CTransaction.nVersion).mono
    fun (tx : CTransaction) (_ : tx.OfType coinType ∧ tx.Sized) => trivial
  have htime : Decodes (fun tx : CTransaction => tx.OfType coinType ∧ tx.Sized)
      (fun tx => if tx.type = str "blackcoin" then writeUInt32 tx.nTime else [])
      fun tx => if tx.type = str "blackcoin" then some tx.nTime else none := by
    apply decodes_of_length (k := if coinType = str "blackcoin" then 4 else 0)
    · intro tx htx
      rw [htx.1.type_eq]
      split <;> simp
    · intro tx tx' htx htx' h
      rw [htx.1.type_eq, htx'.1.type_eq] at h ⊢
      by_cases hblack : coinType = str "blackcoin"
      · simp only [hblack, if_true] at h ⊢
        rw [writeUInt32_inj h]
      · simp only [hblack, if_false]
  have hvin := ((decodes_serializeVector decodes_txIn).comp CTransaction.vin).mono
    fun (tx : CTransaction) (h : tx.OfType coinType ∧ tx.Sized) => ⟨h.2.vin, h.2.scriptSig⟩
  have hvout := ((decodes_serializeVector (decodes_txOut coinType)).comp CTransaction.vout).mono
    fun (tx : CTransaction) (h : tx.OfType coinType ∧ tx.Sized) =>
      ⟨h.2.vout, fun o ho => ⟨h.1.vout_eq o ho, h.2.scriptPubKey o ho⟩⟩
  have hlockTime := (decodes_writeUInt32.comp CTransaction.nLockTime).mono
    fun (tx : CTransaction) (_ : tx.OfType coinType ∧ tx.Sized) => trivial
  exact ((((hversion.append' htime).append' hvin).append' hvout).append' hlockTime).map
    fun c => (c.1.1.1.1, c.1.1.1.2, c.1.1.2, c.1.2, c.2)

/-- Transactions of one coin type with one content agree. -/
theorem agrees_of_content {coinType : Str} {tx tx' : CTransaction} (h : tx.OfType coinType)
    (h' : tx'.OfType coinType) (heq : tx.content = tx'.content) : tx.Agrees coinType tx' := by
  simp only [CTransaction.content, h.type_eq, h'.type_eq, Prod.mk.injEq] at heq
  obtain ⟨hversion, htime, hvin, hvout, hlockTime⟩ := heq
  have htime' : coinType = str "blackcoin" → tx.nTime = tx'.nTime := by
    intro hblack
    simpa [hblack] using htime
  exact ⟨hversion, htime', hvin, hvout, hlockTime⟩

/-! ## Sizes -/

@[simp] theorem length_writeCompactSize (n : Nat) :
    (writeCompactSize n).length = (getSizeOfCompactSize n).toNat := by
  unfold writeCompactSize getSizeOfCompactSize
  split
  · rfl
  · split
    · simp
    · split <;> simp

theorem bytesSerializeSize_eq (v : Bytes) :
    bytesSerializeSize v = UInt32.ofNat (serializeBytes v).length := by
  simp [bytesSerializeSize, serializeBytes]

/-- The loop over the values adds up what they write. -/
theorem vectorSerializeSize_eq {α : Type} {f : α → UInt32} {g : α → Bytes} {v : List α}
    (h : ∀ a ∈ v, f a = UInt32.ofNat (g a).length) :
    vectorSerializeSize f v = UInt32.ofNat (serializeVector g v).length := by
  have hfold (start : Nat) : v.foldl (fun nSize vi => nSize + f vi) (UInt32.ofNat start) =
      UInt32.ofNat (start + (v.flatMap g).length) := by
    induction v generalizing start with
    | nil => simp
    | cons a v ih =>
      have ha := h a (by simp)
      have hv : ∀ b ∈ v, f b = UInt32.ofNat (g b).length := fun b hb => h b (by simp [hb])
      rw [List.foldl_cons, ha, ← UInt32.ofNat_add, ih hv, List.flatMap_cons, List.length_append,
        Nat.add_assoc]
  have hstart : getSizeOfCompactSize v.length =
      UInt32.ofNat (writeCompactSize v.length).length := by
    rw [length_writeCompactSize, UInt32.ofNat_toNat]
  rw [vectorSerializeSize, hstart, hfold, serializeVector, List.length_append]

theorem txIn_getSerializeSize_eq (i : CTxIn) :
    i.getSerializeSize = UInt32.ofNat i.serialize.length := by
  have hlen : i.serialize.length = 36 + (serializeBytes i.scriptSig).length + 4 := by
    simp [CTxIn.serialize, COutPoint.serialize]
    omega
  rw [hlen, UInt32.ofNat_add, UInt32.ofNat_add, ← bytesSerializeSize_eq]
  rfl

theorem txOut_getSerializeSize_eq (o : CTxOut) :
    o.getSerializeSize = UInt32.ofNat o.serialize.length := by
  unfold CTxOut.getSerializeSize CTxOut.serialize
  split
  · simp only [List.length_append, length_writeInt64, length_writeUInt32, UInt32.ofNat_add,
      ← bytesSerializeSize_eq]
    rfl
  · simp only [List.length_append, length_writeInt64, List.length_nil, UInt32.ofNat_add,
      ← bytesSerializeSize_eq]
    rfl

/-- The size is the number of bytes written, in 32 bits. -/
theorem getSerializeSize_eq (tx : CTransaction) :
    tx.getSerializeSize = UInt32.ofNat tx.serialize.length := by
  have hvin : vectorSerializeSize CTxIn.getSerializeSize tx.vin = _ :=
    vectorSerializeSize_eq fun i _ => txIn_getSerializeSize_eq i
  have hvout : vectorSerializeSize CTxOut.getSerializeSize tx.vout = _ :=
    vectorSerializeSize_eq fun o _ => txOut_getSerializeSize_eq o
  unfold CTransaction.getSerializeSize CTransaction.serialize
  rw [hvin, hvout]
  split
  · simp only [List.length_append, length_writeUInt32, UInt32.ofNat_add]
    rfl
  · simp only [List.length_append, length_writeUInt32, List.length_nil, UInt32.ofNat_add]
    rfl

/-! ## Every transaction -/

theorem length_le_serializeBytes (v : Bytes) : v.length ≤ (serializeBytes v).length := by
  simp [serializeBytes]

/-- A vector of values that each take some room, and any one of them, fit in its encoding. -/
theorem length_le_serializeVector {α : Type} {f : α → Bytes} {v : List α}
    (h : ∀ a ∈ v, 0 < (f a).length) :
    v.length ≤ (serializeVector f v).length ∧
      ∀ a ∈ v, (f a).length ≤ (serializeVector f v).length := by
  have hbody : v.length ≤ (v.flatMap f).length ∧ ∀ a ∈ v, (f a).length ≤ (v.flatMap f).length := by
    induction v with
    | nil => simp
    | cons a v ih =>
      have ha := h a (by simp)
      obtain ⟨hlen, hmem⟩ := ih fun b hb => h b (by simp [hb])
      simp only [List.length_cons, List.flatMap_cons, List.length_append, List.mem_cons,
        forall_eq_or_imp]
      refine ⟨by omega, by omega, fun b hb => ?_⟩
      have := hmem b hb
      omega
  simp only [serializeVector, List.length_append]
  refine ⟨by omega, fun a ha => ?_⟩
  have := hbody.2 a ha
  omega

/-- A short encoding has no long vector in it. -/
theorem sized_of_length {tx : CTransaction} (h : tx.serialize.length < 2 ^ 64) : tx.Sized := by
  obtain ⟨hvin, hin⟩ := length_le_serializeVector (f := CTxIn.serialize) (v := tx.vin)
    fun i _ => by simp [CTxIn.serialize, COutPoint.serialize]
  obtain ⟨hvout, hout⟩ := length_le_serializeVector (f := CTxOut.serialize) (v := tx.vout)
    fun o _ => by simp [CTxOut.serialize]
  simp only [CTransaction.serialize, List.length_append, length_writeUInt32] at h
  constructor
  · omega
  · omega
  · intro i hi
    have hscript := length_le_serializeBytes i.scriptSig
    have hle := hin i hi
    simp only [CTxIn.serialize, List.length_append] at hle
    omega
  · intro o ho
    have hscript := length_le_serializeBytes o.scriptPubKey
    have hle := hout o ho
    simp only [CTxOut.serialize, List.length_append] at hle
    omega

/-- `GetSerializeSize` is exact, and two encodings of one coin type that start one string
    are encodings of transactions that agree. -/
theorem encoding_exact (coinType : Str) (tx tx' : CTransaction) (htx : tx.OfType coinType)
    (htx' : tx'.OfType coinType) (hlen : tx.serialize.length < 2 ^ 32)
    (hlen' : tx'.serialize.length < 2 ^ 32) :
    tx.getSerializeSize.toNat = tx.serialize.length ∧
      ∀ r r' : Bytes, tx.serialize ++ r = tx'.serialize ++ r' →
        tx.Agrees coinType tx' ∧ r = r' := by
  constructor
  · rw [getSerializeSize_eq, UInt32.toNat_ofNat']
    omega
  · intro r r' heq
    have hsized : tx.Sized := sized_of_length (by omega)
    have hsized' : tx'.Sized := sized_of_length (by omega)
    obtain ⟨hcontent, hrest⟩ :=
      decodes_transaction coinType ⟨htx, hsized⟩ ⟨htx', hsized'⟩ heq
    exact ⟨agrees_of_content htx htx' hcontent, hrest⟩

/-- A cfos transaction with one input and one output, made at time `now`. -/
def cfosSample (now : UInt32) : CTransaction where
  type := str "cfos"
  nVersion := 1
  nTime := now
  vin := [⟨⟨BaseUint.zero 32, 1⟩, [0x51], uintMax⟩]
  vout := [⟨5000, [0x51, 0x52], str "cfos"⟩]
  nLockTime := 0

theorem cfosSample_ofType (now : UInt32) : (cfosSample now).OfType (str "cfos") := by
  constructor
  · rfl
  · simp [cfosSample]

/-- Two cfos transactions made at different times have one encoding. -/
theorem encoding_exact_cfosSample :
    (cfosSample 1).getSerializeSize.toNat = (cfosSample 1).serialize.length ∧
      (cfosSample 1).Agrees (str "cfos") (cfosSample 2) := by
  have hall := encoding_exact (str "cfos") (cfosSample 1) (cfosSample 2) (cfosSample_ofType 1)
    (cfosSample_ofType 2) (by decide) (by decide)
  exact ⟨hall.1, (hall.2 [] [] (by decide)).1⟩

end CrossChain
