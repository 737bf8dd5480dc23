import Mathlib.Data.List.DropRight
import CrossChain.ForStd.Numerals
import CrossChain.Native.Base58

/-!
# Base58 there and back

A base58 text is a numeral: `EncodeBase58` writes the numeral of the bytes' value
behind one `1` for each leading zero byte (`encodeBase58_eq`), `DecodeBase58` reads
the value and the leading ones back (`decodeBase58_digits`).  A numeral is
determined by these two, so encoding and decoding are inverse up to outer white
space (`base58_inverse`).
-/

namespace CrossChain

open Numeral

/-! ## The alphabet -/

/-- The character of a base58 digit. -/
def base58Char (d : Nat) : UInt8 := pszBase58.getD d 0

/-- A character of the alphabet is that of the digit found for it. -/
theorem base58Char_of_idxOf? {c : UInt8} {d : Nat} (h : pszBase58.idxOf? c = some d) :
    d < 58 ∧ base58Char d = c := by
  have hlength : pszBase58.length = 58 := by decide +kernel
  obtain ⟨hd, hchar, _⟩ := List.idxOf?_eq_some_iff.mp h
  refine ⟨hlength ▸ hd, ?_⟩
  rw [base58Char, List.getD_eq_getElem?_getD, List.getElem?_eq_getElem hd, hchar]
  rfl

/-- The digits have 58 different characters, none of them white space or NUL. -/
theorem base58Char_spec {d : Nat} (h : d < 58) :
    pszBase58.idxOf? (base58Char d) = some d ∧ isspace (base58Char d) = false ∧
      base58Char d ≠ 0 ∧ base58Char d ∈ pszBase58 := by
  have hall : ∀ m : Fin 58, pszBase58.idxOf? (base58Char m) = some m.val ∧
      isspace (base58Char m) = false ∧ base58Char m ≠ 0 ∧ base58Char m ∈ pszBase58 := by
    decide +kernel
  exact hall ⟨d, h⟩

/-- The text of a numeral. -/
def base58Text (ds : List Nat) : Str := ds.map base58Char

@[simp] theorem base58Text_cons (d : Nat) (ds : List Nat) :
    base58Text (d :: ds) = base58Char d :: base58Text ds := rfl

/-- The leading ones of a text are the leading zeros of its numeral. -/
theorem takeWhile_base58Text {ds : List Nat} (hds : ∀ d ∈ ds, d < 58) {w : Str}
    (hw : ∀ c ∈ w, isspace c = true) :
    ((base58Text ds ++ w).takeWhile (some · == pszBase58.head?)).length = zeros ds := by
  have hhead : pszBase58.head? = some (base58Char 0) := by decide
  have hchar {d : Nat} (hd : d < 58) : (base58Char d = base58Char 0) ↔ d = 0 := by
    constructor
    · intro heq
      have h0 := (base58Char_spec (d := 0) (by omega)).1
      rw [← heq, (base58Char_spec hd).1] at h0
      exact Option.some.inj h0
    · intro h0
      rw [h0]
  induction ds with
  | nil =>
    cases w with
    | nil => rfl
    | cons c w =>
      -- the character `1` is no white space
      have hc : c ≠ base58Char 0 := by
        intro heq
        have hspace := hw c (by simp)
        rw [heq, (base58Char_spec (d := 0) (by omega)).2.1] at hspace
        cases hspace
      simp [base58Text, zeros, hhead, hc]
  | cons d ds ih =>
    have hd := hchar (hds d (by simp))
    have hrest := ih fun e he => hds e (by simp [he])
    by_cases h0 : d = 0
    · subst h0
      simp only [base58Text_cons, List.cons_append, hhead] at hrest ⊢
      rw [List.takeWhile_cons_of_pos (by simp), List.length_cons, hrest]
      simp [zeros]
    · have hne : base58Char d ≠ base58Char 0 := fun heq => h0 (hd.mp heq)
      simp [zeros, hhead, hne, h0]

/-! ## Encoding -/

/-- The number of leading zero bytes. -/
def zeroBytes (v : Bytes) : Nat := (v.takeWhile (· == 0)).length

/-- The numeral `EncodeBase58` writes: the value of the bytes behind their leading zeros. -/
def base58Digits (v : Bytes) : List Nat :=
  List.replicate (zeroBytes v) 0 ++ ofNat 58 (CBigNum.bin2bn v)

/-- The zero byte at the end keeps the number positive. -/
theorem setvch_reverse {v : Bytes} (h : v.length + 5 < 2 ^ 31) :
    CBigNum.setvch (v.reverse ++ [0]) = CBigNum.bin2bn v := by
  have hrev : (v.reverse ++ [0]).reverse = 0 :: v := by simp
  have hlen : (v.reverse ++ [0]).length = (0 :: v).length := by simp
  have hfits : (0 :: v).length + 4 < 2 ^ 31 := by
    rw [List.length_cons]
    omega
  have hz : ¬ (0x80 : UInt8) ≤ 0 := by decide
  rw [CBigNum.setvch, hrev, hlen, CBigNum.mpi2bn_be32 hfits, Option.getD_some, CBigNum.mpiValue,
    if_neg hz, CBigNum.bin2bn_cons]
  simp

theorem encodeBase58_eq {v : Bytes} (h : v.length + 5 < 2 ^ 31) :
    encodeBase58 v = base58Text (base58Digits v) := by
  rw [encodeBase58, setvch_reverse h]
  simp only [base58Text, base58Digits, zeroBytes, ofNat, List.reverse_append, List.map_append,
    List.map_replicate, List.map_const', List.reverse_replicate, List.map_reverse, Int.toNat_natCast]
  rfl

theorem base58Digits_lt (v : Bytes) : ∀ d ∈ base58Digits v, d < 58 := by
  intro d hd
  rcases List.mem_append.mp hd with hd | hd
  · rw [List.eq_of_mem_replicate hd]
    omega
  · exact ofNat_lt (by omega) _ d hd

/-! ## Decoding -/

theorem decodeBase58Go_space {w : Str} (hw : ∀ c ∈ w, isspace c = true) (bn : Int) :
    decodeBase58Go w bn = some bn := by
  cases w with
  | nil => rfl
  | cons c w =>
    have hnone : pszBase58.idxOf? c = none := by
      cases hidx : pszBase58.idxOf? c with
      | none => rfl
      | some d =>
        obtain ⟨hd, hchar⟩ := base58Char_of_idxOf? hidx
        have hspace := hw c (by simp)
        rw [← hchar, (base58Char_spec hd).2.1] at hspace
        cases hspace
    have hdrop : (c :: w).dropWhile isspace = [] := List.dropWhile_eq_nil_iff.mpr hw
    rw [decodeBase58Go, hnone]
    simp only [hdrop, if_true]

/-- The loop reads the digits of a text, and white space behind it. -/
theorem decodeBase58Go_text {ds : List Nat} (hds : ∀ d ∈ ds, d < 58) {w : Str}
    (hw : ∀ c ∈ w, isspace c = true) (n : Nat) :
    decodeBase58Go (base58Text ds ++ w) n =
      some ((ds.foldl (fun n d => n * 58 + d) n : Nat) : Int) := by
  induction ds generalizing n with
  | nil => exact decodeBase58Go_space hw n
  | cons d ds ih =>
    have hidx := (base58Char_spec (hds d (by simp))).1
    have hrest := ih (fun e he => hds e (by simp [he])) (n * 58 + d)
    push_cast at hrest
    show decodeBase58Go (base58Char d :: (base58Text ds ++ w)) n = _
    rw [decodeBase58Go, hidx]
    exact hrest

/-- What the loop accepts is the text of a numeral and white space. -/
theorem text_of_decodeBase58Go {p : Str} {bn r : Int} (h : decodeBase58Go p bn = some r) :
    ∃ ds w, p = base58Text ds ++ w ∧ (∀ d ∈ ds, d < 58) ∧ ∀ c ∈ w, isspace c = true := by
  induction p generalizing bn with
  | nil => exact ⟨[], [], rfl, by simp, by simp⟩
  | cons c p ih =>
    rw [decodeBase58Go] at h
    cases hidx : pszBase58.idxOf? c with
    | none =>
      rw [hidx] at h
      simp only at h
      split at h
      · rename_i hdrop
        exact ⟨[], c :: p, rfl, by simp, List.dropWhile_eq_nil_iff.mp hdrop⟩
      · cases h
    | some d =>
      rw [hidx] at h
      obtain ⟨hd, hchar⟩ := base58Char_of_idxOf? hidx
      obtain ⟨ds, w, rfl, hds, hw⟩ := ih h
      refine ⟨d :: ds, w, by rw [base58Text_cons, hchar]; rfl, ?_, hw⟩
      simp only [List.mem_cons, forall_eq_or_imp]
      exact ⟨hd, hds⟩

/-- The bytes of a numeral: its leading zeros, then its value without any. -/
def numeralBytes (ds : List Nat) : Bytes :=
  List.replicate (zeros ds) 0 ++ (Bytes.minLE (value 58 ds)).reverse

/-- `getvch` of a nonnegative number, less the sign byte `DecodeBase58` trims off. -/
theorem getvch_natCast (n : Nat) :
    (∃ b rest, (CBigNum.getvch n).reverse = 0 :: b :: rest ∧ 0x80 ≤ b ∧
        (b :: rest).reverse = Bytes.minLE n) ∨
      CBigNum.getvch n = Bytes.minLE n ∧ ∀ rest, (CBigNum.getvch n).reverse ≠ 0 :: rest := by
  have hneg : decide ((n : Int) < 0) = false := decide_eq_false (by omega)
  have hvch := CBigNum.getvch_eq n
  rw [hneg, Int.natAbs_natCast] at hvch
  cases hm : (Bytes.minLE n).reverse with
  | nil =>
    right
    have hnil : Bytes.minLE n = [] := by simpa using hm
    rw [hvch, hm, hnil]
    exact ⟨rfl, by simp [CBigNum.mpiBody]⟩
  | cons b rest =>
    have hmin : Bytes.minLE n = (b :: rest).reverse := by rw [← hm, List.reverse_reverse]
    rw [hm, CBigNum.mpiBody] at hvch
    by_cases htop : 0x80 ≤ b
    · left
      rw [if_pos htop] at hvch
      exact ⟨b, rest, by rw [hvch]; simp, htop, hmin.symm⟩
    · right
      rw [if_neg htop] at hvch
      have hne : Bytes.minLE n ≠ [] := by
        rw [hmin]
        simp
      -- the top byte of the number is not zero
      have hlast := Bytes.minLE_getLast_ne_zero hne
      simp only [hmin, List.getLast_reverse, List.head_cons] at hlast
      refine ⟨by rw [hvch, hmin]; rfl, fun rest' heq => ?_⟩
      rw [hvch] at heq
      simp only [Bool.false_eq_true, if_false, List.reverse_reverse] at heq
      exact hlast (List.cons.inj heq).1

theorem isspace_ne_zero {c : UInt8} (h : isspace c = true) : c ≠ 0 := by
  intro h0
  rw [h0] at h
  exact absurd h (by decide)

/-- A text between white space decodes to the bytes of its numeral. -/
theorem decodeBase58_digits {ds : List Nat} (hds : ∀ d ∈ ds, d < 58) {u w : Str}
    (hu : ∀ c ∈ u, isspace c = true) (hw : ∀ c ∈ w, isspace c = true) :
    decodeBase58 (u ++ (base58Text ds ++ w)) = some (numeralBytes ds) := by
  have hchar {c : UInt8} (hc : c ∈ base58Text ds) : isspace c = false ∧ c ≠ 0 := by
    obtain ⟨d, hd, rfl⟩ := List.mem_map.mp hc
    have hspec := base58Char_spec (hds d hd)
    exact ⟨hspec.2.1, hspec.2.2.1⟩
  have hcstr : cStr (u ++ (base58Text ds ++ w)) = u ++ (base58Text ds ++ w) := by
    apply cStr_eq_self
    intro c hc
    simp only [List.mem_append] at hc
    rcases hc with hc | hc | hc
    · exact isspace_ne_zero (hu c hc)
    · exact (hchar hc).2
    · exact isspace_ne_zero (hw c hc)
  -- what is left without leading white space: the text and what follows it, if there is a text
  obtain ⟨w', hw', hpsz⟩ : ∃ w', (∀ c ∈ w', isspace c = true) ∧
      (u ++ (base58Text ds ++ w)).dropWhile isspace = base58Text ds ++ w' := by
    rw [List.dropWhile_append_of_pos hu]
    cases ds with
    | nil => exact ⟨[], by simp, List.dropWhile_eq_nil_iff.mpr hw⟩
    | cons d ds =>
      refine ⟨w, hw, ?_⟩
      have hd := (hchar (c := base58Char d) (by simp)).1
      rw [base58Text_cons, List.cons_append, List.dropWhile_cons_of_neg (by simp [hd])]
  have hgo := decodeBase58Go_text hds hw' 0
  rw [foldl_eq_value] at hgo
  rw [decodeBase58, hcstr]
  simp only [hpsz, takeWhile_base58Text hds hw']
  show (decodeBase58Go (base58Text ds ++ w') ((0 : Nat) : Int) >>= _) = _
  rw [hgo]
  rcases getvch_natCast (value 58 ds) with ⟨b, rest, hrev, htop, hmin⟩ | ⟨hvch, hne⟩
  · -- the sign byte is trimmed off
    simp only [Option.bind_eq_bind, Option.bind_some, hrev, htop, if_true, hmin]
    rfl
  · simp only [Option.bind_eq_bind, Option.bind_some]
    split
    · rename_i b rest hrev
      exact absurd hrev (hne _)
    · rw [hvch]
      rfl

/-! ## There and back -/

/-- `s` without its leading and trailing white space. -/
def trim (s : Str) : Str := (s.dropWhile isspace).rdropWhile isspace

theorem trim_text {ds : List Nat} (hds : ∀ d ∈ ds, d < 58) {u w : Str}
    (hu : ∀ c ∈ u, isspace c = true) (hw : ∀ c ∈ w, isspace c = true) :
    trim (u ++ (base58Text ds ++ w)) = base58Text ds := by
  have hspace : ∀ c ∈ base58Text ds, isspace c = false := by
    intro c hc
    obtain ⟨d, hd, rfl⟩ := List.mem_map.mp hc
    exact (base58Char_spec (hds d hd)).2.1
  have hself {t : Str} (ht : ∀ c ∈ t, isspace c = false) : t.dropWhile isspace = t := by
    cases t with
    | nil => rfl
    | cons c t => rw [List.dropWhile_cons_of_neg (by simp [ht c (by simp)])]
  rw [trim, List.dropWhile_append_of_pos hu]
  by_cases hnil : base58Text ds = []
  · rw [hnil, List.nil_append, List.dropWhile_eq_nil_iff.mpr hw]
    rfl
  · have hfront : (base58Text ds ++ w).dropWhile isspace = base58Text ds ++ w := by
      obtain ⟨c, t, hct⟩ := List.exists_cons_of_ne_nil hnil
      have hc := hspace c (by simp [hct])
      rw [hct, List.cons_append, List.dropWhile_cons_of_neg (by simp [hc])]
    have hback : ∀ c ∈ w.reverse, isspace c = true := fun c hc => hw c (List.mem_reverse.mp hc)
    have hback' : ∀ c ∈ (base58Text ds).reverse, isspace c = false := fun c hc =>
      hspace c (List.mem_reverse.mp hc)
    rw [hfront, List.rdropWhile, List.reverse_append, List.dropWhile_append_of_pos hback,
      hself hback', List.reverse_reverse]

/-- The bytes of the numeral written for `v` are `v`. -/
theorem numeralBytes_base58Digits (v : Bytes) : numeralBytes (base58Digits v) = v := by
  have hzeros : zeros (base58Digits v) = zeroBytes v := zeros_replicate_ofNat 58 _ _
  have hvalue : value 58 (base58Digits v) = CBigNum.bin2bn v := by
    rw [base58Digits, value_replicate_append, value_ofNat]
  rw [numeralBytes, hzeros, hvalue, CBigNum.minLE_bin2bn, List.reverse_reverse]
  exact replicate_append_dropWhile 0 v

/-- The numeral written for the bytes of a numeral is that numeral. -/
theorem base58Digits_numeralBytes {ds : List Nat} (hds : ∀ d ∈ ds, d < 58) :
    base58Digits (numeralBytes ds) = ds := by
  have hzeros : zeroBytes (numeralBytes ds) = zeros ds := by
    apply length_takeWhile_replicate
    intro hne
    have hne' : Bytes.minLE (value 58 ds) ≠ [] := by simpa using hne
    rw [List.head_reverse]
    exact Bytes.minLE_getLast_ne_zero hne'
  have hvalue : CBigNum.bin2bn (numeralBytes ds) = value 58 ds := by
    rw [numeralBytes, CBigNum.bin2bn_replicate_append, CBigNum.bin2bn, List.reverse_reverse,
      Bytes.ofLE_minLE]
  rw [base58Digits, hzeros, hvalue]
  exact eq_replicate_ofNat (by omega) hds

/-- A numeral has at least as many digits as bytes. -/
theorem length_numeralBytes_le {ds : List Nat} (hds : ∀ d ∈ ds, d < 58) :
    (numeralBytes ds).length ≤ ds.length := by
  have hsplit := replicate_append_dropWhile 0 ds
  have hrest : ∀ d ∈ ds.dropWhile (· == 0), d < 58 := fun d hd =>
    hds d ((List.dropWhile_sublist _).subset hd)
  have hvalue : value 58 ds = value 58 (ds.dropWhile (· == 0)) := by
    conv => lhs; rw [← hsplit, value_replicate_append]
  have hlt := value_lt (by omega) hrest
  have hpow : 58 ^ (ds.dropWhile (· == 0)).length ≤ 256 ^ (ds.dropWhile (· == 0)).length :=
    Nat.pow_le_pow_left (by omega) _
  have hmin := (Bytes.length_minLE_le_iff (value 58 ds) (ds.dropWhile (· == 0)).length).mpr
    (by omega)
  have hlen := congrArg List.length hsplit
  simp only [List.length_append, List.length_replicate] at hlen
  simp only [numeralBytes, zeros, List.length_append, List.length_replicate, List.length_reverse]
  omega

/-- Encoding then decoding. -/
theorem decodeBase58_encodeBase58 {v : Bytes} (h : v.length + 5 < 2 ^ 31) :
    decodeBase58 (encodeBase58 v) = some v := by
  have hdecode := decodeBase58_digits (base58Digits_lt v) (u := []) (w := []) (by simp) (by simp)
  rw [List.nil_append, List.append_nil, numeralBytes_base58Digits] at hdecode
  rw [encodeBase58_eq h]
  exact hdecode

/-- What is accepted is the text of a numeral between white space. -/
theorem text_of_decodeBase58 {s : Str} {v : Bytes} (hs : ∀ c ∈ s, c ≠ 0)
    (h : decodeBase58 s = some v) :
    ∃ u ds w, s = u ++ (base58Text ds ++ w) ∧ (∀ d ∈ ds, d < 58) ∧
      (∀ c ∈ u, isspace c = true) ∧ (∀ c ∈ w, isspace c = true) ∧ v = numeralBytes ds := by
  have hgo : ∃ r, decodeBase58Go (s.dropWhile isspace) 0 = some r := by
    rw [decodeBase58, cStr_eq_self hs] at h
    cases hgo : decodeBase58Go (s.dropWhile isspace) 0 with
    | none =>
      simp only [hgo] at h
      cases h
    | some r => exact ⟨r, rfl⟩
  obtain ⟨r, hr⟩ := hgo
  obtain ⟨ds, w, htext, hds, hw⟩ := text_of_decodeBase58Go hr
  have hu : ∀ c ∈ s.takeWhile isspace, isspace c = true := fun c hc => List.mem_takeWhile_imp hc
  have hsplit : s = s.takeWhile isspace ++ (base58Text ds ++ w) := by
    rw [← htext, List.takeWhile_append_dropWhile]
  refine ⟨s.takeWhile isspace, ds, w, hsplit, hds, hu, hw, ?_⟩
  rw [hsplit, decodeBase58_digits hds hu hw] at h
  exact (Option.some.inj h).symm

/-- Decoding then encoding. -/
theorem encodeBase58_of_decodeBase58 {s : Str} {v : Bytes} (hs : ∀ c ∈ s, c ≠ 0)
    (hlen : s.length + 5 < 2 ^ 31) (h : decodeBase58 s = some v) : encodeBase58 v = trim s := by
  obtain ⟨u, ds, w, rfl, hds, hu, hw, rfl⟩ := text_of_decodeBase58 hs h
  have hbytes := length_numeralBytes_le hds
  simp only [List.length_append, base58Text, List.length_map] at hlen
  rw [encodeBase58_eq (by omega), base58Digits_numeralBytes hds, trim_text hds hu hw]

/-- Between outer white space only characters of the alphabet are accepted. -/
theorem mem_alphabet_of_decodeBase58 {s : Str} {v : Bytes} (hs : ∀ c ∈ s, c ≠ 0)
    (h : decodeBase58 s = some v) : ∀ c ∈ trim s, c ∈ pszBase58 := by
  obtain ⟨u, ds, w, rfl, hds, hu, hw, _⟩ := text_of_decodeBase58 hs h
  rw [trim_text hds hu hw]
  intro c hc
  obtain ⟨d, hd, rfl⟩ := List.mem_map.mp hc
  exact (base58Char_spec (hds d hd)).2.2.2

theorem ofString_of_check {ssl : OpenSSL} {s : Str} {version : UInt8} {data : Bytes}
    (h : decodeBase58Check ssl s = some (version :: data)) :
    CBitcoinAddress.ofString ssl s = ⟨[version], data⟩ := by
  rw [CBitcoinAddress.ofString, CBase58Data.setString, h]
  rfl

/-- An address is read back from its text. -/
theorem ofString_toString (ssl : OpenSSL) (version : UInt8) (id : Uint160) :
    CBitcoinAddress.ofString ssl (CBitcoinAddress.toString ssl ⟨[version], id.bytes⟩) =
      ⟨[version], id.bytes⟩ := by
  have hlen : (version :: id.bytes).length = 21 := by simp
  have hsum : ((hash ssl (version :: id.bytes)).bytes.take 4).length = 4 := by simp
  have hdecode : decodeBase58 (encodeBase58Check ssl (version :: id.bytes)) =
      some (version :: id.bytes ++ (hash ssl (version :: id.bytes)).bytes.take 4) := by
    apply decodeBase58_encodeBase58
    rw [List.length_append]
    omega
  have hcheck : decodeBase58Check ssl (encodeBase58Check ssl (version :: id.bytes)) =
      some (version :: id.bytes) := by
    have hfour : (version :: id.bytes ++
        (hash ssl (version :: id.bytes)).bytes.take 4).length - 4 =
          (version :: id.bytes).length := by
      rw [List.length_append]
      omega
    have hlong : ¬ (version :: id.bytes ++
        (hash ssl (version :: id.bytes)).bytes.take 4).length < 4 := by
      rw [List.length_append]
      omega
    rw [decodeBase58Check, hdecode]
    simp only [Option.bind_eq_bind, Option.bind_some, if_neg hlong, hfour, List.take_left,
      List.drop_left, if_true]
  have htext : CBitcoinAddress.toString ssl ⟨[version], id.bytes⟩ =
      encodeBase58Check ssl (version :: id.bytes) := rfl
  rw [htext]
  exact ofString_of_check hcheck

end CrossChain
