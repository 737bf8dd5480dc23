import CrossChain.ForStd.Numerals
import CrossChain.Spec.HexText
import CrossChain.Spec.OperationRuns

/-!
# Transaction ids

`SetHex` stores the last digits of a run of hex digits backwards.  The bytes
denote, in little-endian order, the number those digits denote
(`ofLE_setHex`), so `SetHex` undoes `GetHex` and a transaction id of 64 digits
is serialised with its bytes in reverse order (`setHex_exact`).
-/

namespace CrossChain

/-- A hex digit, of either case. -/
def isHexDigit (c : UInt8) : Bool := (phexdigit c).isSome

/-- The number a run of hex digits denotes. -/
def hexValue (digits : Str) : Nat :=
  Numeral.value 16 (digits.map fun c => (uintDigit c).toNat)

/-- `0x` or `0X`. -/
def IsMark (mark : Str) : Prop := mark = [0x30, 0x78] ∨ mark = [0x30, 0x58]

/-- `s` read as white space, an optional mark, a run of digits and a rest, each part as
    long as it can be. -/
structure HexReading (s space mark digits rest : Str) : Prop where
  split : s = space ++ (mark ++ (digits ++ rest))
  blank : Blank space
  space_stops : Span.Stops isspace (mark ++ (digits ++ rest))
  mark_or_none : IsMark mark ∨ mark = [] ∧ ∀ m, IsMark m → ¬ m <+: digits ++ rest
  digits_hex : ∀ c ∈ digits, isHexDigit c = true
  digits_stop : Span.Stops isHexDigit rest

/-- A hex digit, by its value. -/
theorem isHexDigit_spec {c : UInt8} (h : isHexDigit c = true) :
    ∃ n, phexdigit c = some n ∧ n < 16 ∧ isspace c = false ∧ c ≠ 0 := by
  obtain ⟨n, hn⟩ := Option.isSome_iff_exists.mp h
  exact ⟨n, hn, hexDigit_spec hn⟩

/-- A run of hex digits is what C sees of it. -/
theorem ne_zero_of_digits {digits : Str} (h : ∀ c ∈ digits, isHexDigit c = true) :
    ∀ c ∈ digits, c ≠ 0 := by
  intro c hc
  obtain ⟨n, _, _, _, hne⟩ := isHexDigit_spec (h c hc)
  exact hne

/-! ## The backward loop -/

/-- Two digits make a byte. -/
theorem toNat_uintDigits (c d : UInt8) :
    (uintDigit c ||| (uintDigit d <<< 4)).toNat = (uintDigit c).toNat + 16 * (uintDigit d).toNat := by
  have hlt (e : UInt8) : uintDigit e < 16 := by
    rw [uintDigit]
    cases h : phexdigit e with
    | none => simp
    | some n => simpa using (hexDigit_spec h).1
  rw [UInt8.or_comm, toNat_nibbles (hlt d) (hlt c)]
  omega

/-- The loop stores the number of the digits it has room for. -/
theorem ofLE_setHexGo (room : Nat) (cs : List UInt8) :
    Bytes.ofLE (setHexGo room cs) =
      Nat.ofDigits 16 ((cs.take (2 * room)).map fun c => (uintDigit c).toNat) := by
  fun_induction setHexGo room cs with
  | case1 => simp
  | case2 => simp
  | case3 room c =>
    have htake : [c].take (2 * (room + 1)) = [c] := List.take_of_length_le (by simp; omega)
    simp [htake]
  | case4 room c d cs ih =>
    have htake : (c :: d :: cs).take (2 * (room + 1)) = c :: d :: cs.take (2 * room) := by
      rw [Nat.mul_succ, List.take_succ_cons, List.take_succ_cons]
    rw [Bytes.ofLE_cons, ih, toNat_uintDigits, htake]
    simp only [List.map_cons, Nat.ofDigits_cons]
    ring

theorem length_setHexGo_le (room : Nat) (cs : List UInt8) : (setHexGo room cs).length ≤ room := by
  fun_induction setHexGo room cs with
  | case1 => simp
  | case2 => simp
  | case3 => simp
  | case4 room c d cs ih => simpa using ih

theorem ofLE_replicate_zero (k : Nat) : Bytes.ofLE (List.replicate k 0) = 0 := by
  induction k with
  | zero => rfl
  | succ k ih => simp [List.replicate_succ, ih]

theorem ofLE_ofBytes {n : Nat} {v : Bytes} (h : v.length ≤ n) :
    Bytes.ofLE (BaseUint.ofBytes n v).bytes = Bytes.ofLE v := by
  show Bytes.ofLE ((v ++ List.replicate n 0).take n) = Bytes.ofLE v
  rw [List.take_append, List.take_of_length_le h, Bytes.ofLE_append, List.take_replicate,
    ofLE_replicate_zero]
  simp

/-! ## What SetHex reads -/

theorem cStr_append {p : Str} (hp : ∀ c ∈ p, c ≠ 0) (s : Str) : cStr (p ++ s) = p ++ cStr s := by
  rw [cStr, List.takeWhile_append_of_pos fun c hc => by simpa using hp c hc]
  rfl

/-- A mark is read, and only a mark. -/
theorem skipMark {mark t : Str} (h : IsMark mark ∨ mark = [] ∧ ∀ m, IsMark m → ¬ m <+: t) :
    (match mark ++ t with
      | 0x30 :: c :: rest => if c = 0x78 ∨ c = 0x58 then rest else mark ++ t
      | _ => mark ++ t) = t := by
  rcases h with (rfl | rfl) | ⟨rfl, hnone⟩
  · simp
  · simp
  · rw [List.nil_append]
    split
    · rename_i c rest
      rw [if_neg]
      rintro (rfl | rfl)
      · exact hnone _ (.inl rfl) (List.prefix_append [0x30, 0x78] rest)
      · exact hnone _ (.inr rfl) (List.prefix_append [0x30, 0x58] rest)
    · rfl

/-- `SetHex` stores the run of digits. -/
theorem HexReading.setHex {s space mark digits rest : Str}
    (h : HexReading s space mark digits rest) (n : Nat) :
    BaseUint.setHex n s = BaseUint.ofBytes n (setHexGo n digits.reverse) := by
  have hspace0 : ∀ c ∈ space, c ≠ 0 := by
    intro c hc heq
    have hblank := h.blank c hc
    rw [heq] at hblank
    cases hblank
  have hmark0 : ∀ c ∈ mark, c ≠ 0 := by
    rcases h.mark_or_none with (rfl | rfl) | ⟨rfl, _⟩ <;> simp
  have hdigits0 := ne_zero_of_digits h.digits_hex
  have hcstr : cStr s = space ++ (mark ++ (digits ++ cStr rest)) := by
    rw [h.split, cStr_append hspace0, cStr_append hmark0, cStr_append hdigits0]
  -- what C sees of the rest stops where the rest does
  have hdrop : (cStr s).dropWhile isspace = mark ++ (digits ++ cStr rest) := by
    rw [hcstr]
    apply Span.dropWhile_append h.blank
    have hstops := h.space_stops
    rw [← List.append_assoc] at hstops ⊢
    exact hstops.append_takeWhile
  have hmark : IsMark mark ∨ mark = [] ∧ ∀ m, IsMark m → ¬ m <+: digits ++ cStr rest := by
    rcases h.mark_or_none with hmark | ⟨hnil, hnone⟩
    · exact .inl hmark
    · refine .inr ⟨hnil, ?_⟩
      intro m hm hstart
      exact hnone m hm (hstart.trans ((List.prefix_append_right_inj _).mpr (List.takeWhile_prefix _)))
  have hrun : (digits ++ cStr rest).takeWhile (fun c => (phexdigit c).isSome) = digits :=
    Span.takeWhile_append h.digits_hex h.digits_stop.takeWhile
  have hstored := congrArg (fun u => BaseUint.ofBytes n (setHexGo n
    (u.takeWhile fun c => (phexdigit c).isSome).reverse)) (skipMark hmark)
  rw [BaseUint.setHex]
  simp only [hdrop]
  rw [hrun] at hstored
  exact hstored

/-- Every string is read in this way. -/
theorem exists_hexReading (s : Str) :
    ∃ space mark digits rest, HexReading s space mark digits rest := by
  have hblank : Blank (s.takeWhile isspace) := fun x hx => List.mem_takeWhile_imp hx
  have hstop := Span.stops_dropWhile (p := isspace) s
  have hsplit : s = s.takeWhile isspace ++ s.dropWhile isspace :=
    List.takeWhile_append_dropWhile.symm
  generalize s.takeWhile isspace = space at hblank hsplit
  generalize s.dropWhile isspace = t at hstop hsplit
  -- the digits after a mark, or at once
  have hrun (u : Str) : ∃ digits rest, u = digits ++ rest ∧ (∀ c ∈ digits, isHexDigit c = true) ∧
      Span.Stops isHexDigit rest :=
    ⟨u.takeWhile isHexDigit, u.dropWhile isHexDigit, List.takeWhile_append_dropWhile.symm,
      fun c hc => List.mem_takeWhile_imp hc, Span.stops_dropWhile u⟩
  by_cases hmark : ∃ m, IsMark m ∧ m <+: t
  · obtain ⟨mark, hmark, u, rfl⟩ := hmark
    obtain ⟨digits, rest, rfl, hdigits, hrest⟩ := hrun u
    exact ⟨space, mark, digits, rest, hsplit, hblank, hstop, .inl hmark, hdigits, hrest⟩
  · obtain ⟨digits, rest, rfl, hdigits, hrest⟩ := hrun t
    refine ⟨space, [], digits, rest, hsplit, hblank, hstop, .inr ⟨rfl, ?_⟩, hdigits, hrest⟩
    intro m hm hstart
    exact hmark ⟨m, hm, hstart⟩

/-- A run of digits alone is read as that run. -/
theorem hexReading_digits {digits : Str} (h : ∀ c ∈ digits, isHexDigit c = true) :
    HexReading digits [] [] digits [] := by
  refine ⟨by simp, by simp [Blank], ?_, .inr ⟨rfl, ?_⟩, h, Span.stops_nil⟩
  · rw [List.nil_append, List.append_nil]
    cases digits with
    | nil => exact Span.stops_nil
    | cons c digits =>
      obtain ⟨n, _, _, hspace, _⟩ := isHexDigit_spec (h c (by simp))
      exact Span.stops_cons.mpr hspace
  · -- the second character of a mark is no digit
    intro m hm hstart
    rw [List.append_nil] at hstart
    rcases hm with rfl | rfl
    · have hx := h 0x78 (hstart.subset (by simp))
      cases hx
    · have hx := h 0x58 (hstart.subset (by simp))
      cases hx

/-- The number stored is that of the last digits there is room for. -/
theorem HexReading.ofLE_setHex {s space mark digits rest : Str}
    (h : HexReading s space mark digits rest) (n : Nat) :
    Bytes.ofLE (BaseUint.setHex n s).bytes =
      hexValue (digits.rtake (min digits.length (2 * n))) := by
  have htake : (digits.rtake (min digits.length (2 * n))).reverse =
      digits.reverse.take (2 * n) := by
    rw [List.rtake_eq_reverse_take_reverse, List.reverse_reverse, Nat.min_comm,
      ← List.length_reverse, ← List.take_eq_take_min]
  rw [h.setHex, ofLE_ofBytes (length_setHexGo_le _ _), ofLE_setHexGo, hexValue, Numeral.value,
    ← List.map_reverse, htake]

/-! ## Whole runs of digits -/

/-- A run of an even number of digits denotes the number of its bytes. -/
theorem hexValue_eq_bin2bn {k : Nat} {digits : Str} (hlen : digits.length = 2 * k)
    (h : ∀ c ∈ digits, isHexDigit c = true) :
    hexValue digits = CBigNum.bin2bn (parseHexGo none digits) ∧
      (parseHexGo none digits).length = k := by
  induction k generalizing digits with
  | zero =>
    obtain rfl : digits = [] := List.eq_nil_of_length_eq_zero hlen
    exact ⟨by simp [hexValue, CBigNum.bin2bn, parseHexGo], rfl⟩
  | succ k ih =>
    obtain ⟨c, digits, rfl⟩ := List.exists_cons_of_length_eq_add_one hlen
    rw [List.length_cons] at hlen
    have hlen' : digits.length = 2 * k + 1 := by omega
    obtain ⟨d, digits, rfl⟩ := List.exists_cons_of_length_eq_add_one hlen'
    rw [List.length_cons] at hlen
    obtain ⟨n, hn, hn16, _⟩ := isHexDigit_spec (h c (by simp))
    obtain ⟨m, hm, hm16, _⟩ := isHexDigit_spec (h d (by simp))
    have hrest : ∀ e ∈ digits, isHexDigit e = true := fun e he => h e (by simp [he])
    obtain ⟨hvalue, hcount⟩ := ih (by omega) hrest
    have hfirst := toNat_nibbles hn16 hm16
    have hsplit : hexValue (c :: d :: digits) =
        (16 * n.toNat + m.toNat) * 16 ^ digits.length + hexValue digits := by
      have happend := Numeral.value_append 16 [n.toNat, m.toNat]
        (digits.map fun e => (uintDigit e).toNat)
      have hpair : Numeral.value 16 [n.toNat, m.toNat] = 16 * n.toNat + m.toNat := by
        simp [Numeral.value, Nat.ofDigits_cons]
        omega
      rw [hpair, List.length_map] at happend
      simpa [hexValue, uintDigit, hn, hm] using happend
    rw [parseHexGo_pair hn hm, CBigNum.bin2bn_cons, hsplit, hvalue, hcount, hfirst]
    have hpow : 16 ^ digits.length = 256 ^ k := by
      rw [show digits.length = 2 * k by omega, Nat.pow_mul]
    refine ⟨?_, by simp [hcount]⟩
    rw [hpow]
    ring

/-- Twice as many digits as there are bytes are stored whole, last byte first. -/
theorem setHex_digits {n : Nat} {digits : Str} (hlen : digits.length = 2 * n)
    (h : ∀ c ∈ digits, isHexDigit c = true) :
    (BaseUint.setHex n digits).bytes = (parseHex digits).reverse := by
  have hparse : parseHex digits = parseHexGo none digits := by
    rw [parseHex, cStr_eq_self (ne_zero_of_digits h)]
  obtain ⟨hvalue, hcount⟩ := hexValue_eq_bin2bn hlen h
  apply Bytes.ofLE_inj
  · rw [BaseUint.length_bytes, List.length_reverse, hparse, hcount]
  · have hall : digits.rtake (min digits.length (2 * n)) = digits := by
      rw [← hlen, Nat.min_self]
      simp [List.rtake]
    rw [(hexReading_digits h).ofLE_setHex, hall, hvalue, hparse]
    rfl

theorem isHexDigit_hexStr (v : Bytes) : ∀ c ∈ hexStr v, isHexDigit c = true := by
  apply forall_mem_hexStr
  intro n hn
  rw [isHexDigit, (phexdigit_hexmap hn).1]
  rfl

theorem length_hexStr (v : Bytes) : (hexStr v).length = 2 * v.length := by
  induction v with
  | nil => rfl
  | cons b v ih =>
    rw [hexStr_cons, List.length_cons, List.length_cons, ih, List.length_cons]
    omega

/-- `SetHex` undoes `GetHex`. -/
theorem setHex_getHex {n : Nat} (x : BaseUint n) : BaseUint.setHex n x.getHex = x := by
  have hlen : x.getHex.length = 2 * n := by
    rw [BaseUint.getHex, length_hexStr, List.length_reverse, x.length_bytes]
  apply BaseUint.ext
  rw [setHex_digits hlen (isHexDigit_hexStr _), BaseUint.getHex, parseHex_hexStr,
    List.reverse_reverse]

/-! ## The outpoint that is spent -/

/-- A transaction id as the nodes write it: 64 hex digits. -/
def IsTxid (txid : Str) : Prop := txid.length = 2 * 32 ∧ ∀ c ∈ txid, isHexDigit c = true

/-- The 32 bytes behind the version, the time of a blackcoin transaction and the count of
    inputs: the hash of the first input's prevout. -/
def firstPrevout (tx : CTransaction) : Bytes :=
  (tx.serialize.drop (4 + (if tx.type = str "blackcoin" then 4 else 0) + 1)).take 32

theorem firstPrevout_eq {tx : CTransaction} {input : CTxIn} {vin : List CTxIn}
    (hvin : tx.vin = input :: vin) (hcount : vin.length < 252) :
    firstPrevout tx = input.prevout.hash.bytes := by
  have hcompact : writeCompactSize (input :: vin).length = [UInt8.ofNat (vin.length + 1)] := by
    rw [writeCompactSize, List.length_cons, if_pos (by omega)]
  have hhead : (writeUInt32 tx.nVersion ++
      (if tx.type = str "blackcoin" then writeUInt32 tx.nTime else []) ++
      [UInt8.ofNat (vin.length + 1)]).length =
        4 + (if tx.type = str "blackcoin" then 4 else 0) + 1 := by
    split <;> simp [writeUInt32]
  have hserial : ∃ tail, tx.serialize = (writeUInt32 tx.nVersion ++
      (if tx.type = str "blackcoin" then writeUInt32 tx.nTime else []) ++
      [UInt8.ofNat (vin.length + 1)]) ++ (input.prevout.hash.bytes ++ tail) := by
    refine ⟨writeUInt32 input.prevout.n ++ (serializeBytes input.scriptSig ++
      (writeUInt32 input.nSequence ++ (vin.flatMap CTxIn.serialize ++
        (serializeVector CTxOut.serialize tx.vout ++ writeUInt32 tx.nLockTime)))), ?_⟩
    rw [CTransaction.serialize, serializeVector, hvin, hcompact]
    simp only [List.flatMap_cons, CTxIn.serialize, COutPoint.serialize, List.append_assoc]
  obtain ⟨tail, hserial⟩ := hserial
  rw [firstPrevout, hserial, List.drop_left' hhead,
    List.take_left' (BaseUint.length_bytes input.prevout.hash)]

theorem firstPrevout_of_txid {tx : CTransaction} {txid : Str} (htxid : IsTxid txid)
    {n nSequence : UInt32} {script : CScript} {vin : List CTxIn}
    (hvin : tx.vin = ⟨⟨BaseUint.setHex 32 txid, n⟩, script, nSequence⟩ :: vin)
    (hcount : vin.length < 252) : firstPrevout tx = (parseHex txid).reverse := by
  rw [firstPrevout_eq hvin hcount, setHex_digits htxid.1 htxid.2]

section

variable {ssl : OpenSSL} {conf : RpcConf} {env : Env} {w : World}
  {contract txid secret address : Str} {call : RpcCall}

/-- What `Redeem` broadcasts spends the given transaction first. -/
theorem redeem_firstPrevout (htxid : IsTxid txid)
    (hcall : call ∈ newCalls w (redeem ssl contract txid secret address conf env w).2)
    (hmethod : call.method = "sendrawtransaction") :
    ∃ tx, call.params = [.string (hexStr tx.serialize)] ∧
      firstPrevout tx = (parseHex txid).reverse := by
  obtain ⟨tx, wb, hbuild, rfl⟩ := sends_redeem hcall hmethod
  refine ⟨tx, rfl, ?_⟩
  obtain ⟨outIndex, amount, keyID, key, pubKey, sig, pushKey, w₁, w₂, _, _, _, _, hrest⟩ :=
    redeemTransaction_eq_ok hbuild
  split at hrest
  · -- the fee input comes after the contract's
    obtain ⟨_, _, _, _, _, _, _, _, _, _, _, rfl⟩ := addFeeInput_eq_ok hrest
    exact firstPrevout_of_txid htxid rfl (by simp)
  · cases hrest
    exact firstPrevout_of_txid htxid rfl (by simp)

/-- So does what `Refund` broadcasts. -/
theorem refund_firstPrevout (htxid : IsTxid txid)
    (hcall : call ∈ newCalls w (refund ssl contract txid address conf env w).2)
    (hmethod : call.method = "sendrawtransaction") :
    ∃ tx, call.params = [.string (hexStr tx.serialize)] ∧
      firstPrevout tx = (parseHex txid).reverse := by
  obtain ⟨tx, wb, hbuild, rfl⟩ := sends_refund hcall hmethod
  refine ⟨tx, rfl, ?_⟩
  obtain ⟨_, _, _, _, _, _, _, _, _, _, _, _, rfl⟩ := refundTransaction_eq_ok hbuild
  exact firstPrevout_of_txid htxid rfl (by simp)

end

/-- `SetHex` undoes `GetHex` and stores the number of the last digits that fit, for every
    text it is given; the transaction a swap operation spends is serialised backwards. -/
theorem setHex_exact :
    (∀ (n : Nat) (x : BaseUint n), BaseUint.setHex n x.getHex = x) ∧
    (∀ s, ∃ space mark digits rest, HexReading s space mark digits rest) ∧
    (∀ (n : Nat) s space mark digits rest, HexReading s space mark digits rest →
      Bytes.ofLE (BaseUint.setHex n s).bytes =
        hexValue (digits.rtake (min digits.length (2 * n)))) ∧
    ∀ ssl conf env w contract txid secret address, IsTxid txid →
      ∀ call, (call ∈ newCalls w (redeem ssl contract txid secret address conf env w).2 ∨
          call ∈ newCalls w (refund ssl contract txid address conf env w).2) →
        call.method = "sendrawtransaction" →
        ∃ tx, call.params = [.string (hexStr tx.serialize)] ∧
          firstPrevout tx = (parseHex txid).reverse := by
  refine ⟨fun n x => setHex_getHex x, exists_hexReading, ?_, ?_⟩
  · intro n s space mark digits rest h
    exact h.ofLE_setHex n
  · intro ssl conf env w contract txid secret address htxid call hcall hmethod
    rcases hcall with hcall | hcall
    · exact redeem_firstPrevout htxid hcall hmethod
    · exact refund_firstPrevout htxid hcall hmethod

end CrossChain
