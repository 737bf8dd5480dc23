import CrossChain.ForStd.Bytes

/-!
# Base64

The standard encoding: three bytes are 24 bits, written as four symbols of six
bits each; one or two bytes at the end are filled up with zero bits, and their
missing symbols written as padding.
-/

namespace Base64

/-- The symbol of a number below 64. -/
def symbol (n : Nat) : UInt8 :=
  if n < 26 then UInt8.ofNat (0x41 + n)
  else if n < 52 then UInt8.ofNat (0x61 + (n - 26))
  else if n < 62 then UInt8.ofNat (0x30 + (n - 52))
  else if n = 62 then 0x2b
  else 0x2f

/-- The number of a symbol. -/
def value? (c : UInt8) : Option Nat :=
  if 0x41 ≤ c ∧ c ≤ 0x5a then some (c.toNat - 0x41)
  else if 0x61 ≤ c ∧ c ≤ 0x7a then some (c.toNat - 0x61 + 26)
  else if 0x30 ≤ c ∧ c ≤ 0x39 then some (c.toNat - 0x30 + 52)
  else if c = 0x2b then some 62
  else if c = 0x2f then some 63
  else none

/-- The padding character. -/
def pad : UInt8 := 0x3d

/-- The `i`-th six of 24 bits. -/
def six (n i : Nat) : Nat := n / 2 ^ (18 - 6 * i) % 64

/-- Their symbol. -/
def sextet (n i : Nat) : UInt8 := symbol (six n i)

/-- The encoding of a byte string. -/
def encode : Bytes → Bytes
  | [] => []
  | [a] =>
    let n := a.toNat * 2 ^ 16
    [sextet n 0, sextet n 1, pad, pad]
  | [a, b] =>
    let n := a.toNat * 2 ^ 16 + b.toNat * 2 ^ 8
    [sextet n 0, sextet n 1, sextet n 2, pad]
  | a :: b :: c :: bs =>
    let n := a.toNat * 2 ^ 16 + b.toNat * 2 ^ 8 + c.toNat
    sextet n 0 :: sextet n 1 :: sextet n 2 :: sextet n 3 :: encode bs

/-- The three bytes that two neighbouring sixes hold. -/
def byte₀ (v₀ v₁ : Nat) : UInt8 := UInt8.ofNat (v₀ * 4 + v₁ / 16)
def byte₁ (v₁ v₂ : Nat) : UInt8 := UInt8.ofNat (v₁ % 16 * 16 + v₂ / 4)
def byte₂ (v₂ v₃ : Nat) : UInt8 := UInt8.ofNat (v₂ % 4 * 64 + v₃)

/-- The bytes of a text, if it is an encoding.  The bits that fill up the last symbol must
    be zero. -/
def decode : Bytes → Option Bytes
  | [] => some []
  | c₀ :: c₁ :: c₂ :: c₃ :: cs => do
    let v₀ ← value? c₀
    let v₁ ← value? c₁
    if c₂ = pad then
      if c₃ = pad ∧ cs = [] ∧ v₁ % 16 = 0 then some [byte₀ v₀ v₁] else none
    else do
      let v₂ ← value? c₂
      if c₃ = pad then
        if cs = [] ∧ v₂ % 4 = 0 then some [byte₀ v₀ v₁, byte₁ v₁ v₂] else none
      else do
        let v₃ ← value? c₃
        let bs ← decode cs
        return byte₀ v₀ v₁ :: byte₁ v₁ v₂ :: byte₂ v₂ v₃ :: bs
  | _ => none

/-! ## Symbols -/

theorem value?_of_toNat {c : UInt8} {k : Nat} (hc : c.toNat = k) :
    value? c = if 0x41 ≤ k ∧ k ≤ 0x5a then some (k - 0x41)
      else if 0x61 ≤ k ∧ k ≤ 0x7a then some (k - 0x61 + 26)
      else if 0x30 ≤ k ∧ k ≤ 0x39 then some (k - 0x30 + 52)
      else if k = 0x2b then some 62
      else if k = 0x2f then some 63
      else none := by
  subst hc
  simp only [value?, UInt8.le_iff_toNat_le, ← UInt8.toNat_inj]
  rfl

theorem value?_symbol {n : Nat} (h : n < 64) : value? (symbol n) = some n := by
  have htoNat (k : Nat) (hk : k < 256) : (UInt8.ofNat k).toNat = k := by
    rw [UInt8.toNat_ofNat']
    omega
  -- one case for each range of the alphabet
  unfold symbol
  split
  · rw [value?_of_toNat (htoNat _ (by omega)), if_pos (by omega)]
    congr 1
    omega
  split
  · rw [value?_of_toNat (htoNat _ (by omega)), if_neg (by omega), if_pos (by omega)]
    congr 1
    omega
  split
  · rw [value?_of_toNat (htoNat _ (by omega)), if_neg (by omega), if_neg (by omega),
      if_pos (by omega)]
    congr 1
    omega
  split
  · rename_i hplus
    rw [hplus]
    rfl
  · obtain rfl : n = 63 := by omega
    rfl

theorem symbol_ne_pad {n : Nat} (h : n < 64) : symbol n ≠ pad := by
  intro heq
  have hvalue := value?_symbol h
  rw [heq] at hvalue
  cases hvalue

theorem six_lt (n i : Nat) : six n i < 64 := Nat.mod_lt _ (by decide)

theorem value?_sextet (n i : Nat) : value? (sextet n i) = some (six n i) :=
  value?_symbol (six_lt n i)

theorem sextet_ne_pad (n i : Nat) : sextet n i ≠ pad := symbol_ne_pad (six_lt n i)

/-! ## The encoding is undone -/

/-- The sixes of three bytes put together again. -/
theorem bytes_of_sixes {a b c n : Nat} (ha : a < 256) (hb : b < 256) (hc : c < 256)
    (hn : n = a * 2 ^ 16 + b * 2 ^ 8 + c) :
    byte₀ (six n 0) (six n 1) = UInt8.ofNat a ∧ byte₁ (six n 1) (six n 2) = UInt8.ofNat b ∧
      byte₂ (six n 2) (six n 3) = UInt8.ofNat c := by
  have h₀ : six n 0 = n / 2 ^ 18 % 64 := rfl
  have h₁ : six n 1 = n / 2 ^ 12 % 64 := rfl
  have h₂ : six n 2 = n / 2 ^ 6 % 64 := rfl
  have h₃ : six n 3 = n / 2 ^ 0 % 64 := rfl
  rw [byte₀, byte₁, byte₂, h₀, h₁, h₂, h₃]
  refine ⟨congrArg _ ?_, congrArg _ ?_, congrArg _ ?_⟩ <;> omega

theorem decode_one {n : Nat} (hfill : six n 1 % 16 = 0) :
    decode [sextet n 0, sextet n 1, pad, pad] = some [byte₀ (six n 0) (six n 1)] := by
  rw [decode.eq_2, value?_sextet, value?_sextet]
  simp only [Option.bind_eq_bind, Option.bind_some, if_true, hfill, and_self]

theorem decode_two {n : Nat} (hfill : six n 2 % 4 = 0) :
    decode [sextet n 0, sextet n 1, sextet n 2, pad] =
      some [byte₀ (six n 0) (six n 1), byte₁ (six n 1) (six n 2)] := by
  rw [decode.eq_2, value?_sextet, value?_sextet, value?_sextet]
  simp only [Option.bind_eq_bind, Option.bind_some, sextet_ne_pad, if_false, if_true, hfill,
    and_self]

theorem decode_three (n : Nat) (cs : Bytes) :
    decode (sextet n 0 :: sextet n 1 :: sextet n 2 :: sextet n 3 :: cs) =
      (decode cs).map fun bs => byte₀ (six n 0) (six n 1) :: byte₁ (six n 1) (six n 2) ::
        byte₂ (six n 2) (six n 3) :: bs := by
  rw [decode.eq_2, value?_sextet, value?_sextet, value?_sextet, value?_sextet]
  simp only [Option.bind_eq_bind, Option.bind_some, sextet_ne_pad, if_false]
  cases decode cs with
  | none => rfl
  | some bs => rfl

theorem decode_encode (bs : Bytes) : decode (encode bs) = some bs := by
  fun_induction encode bs with
  | case1 => rfl
  | case2 a n =>
    have hbytes := bytes_of_sixes (n := n) a.toNat_lt (Nat.zero_lt_succ 255)
      (Nat.zero_lt_succ 255) (by omega)
    have hfill : six n 1 % 16 = 0 := by
      have h₁ : six n 1 = n / 2 ^ 12 % 64 := rfl
      omega
    rw [decode_one hfill, hbytes.1, UInt8.ofNat_toNat]
  | case3 a b n =>
    have hbytes := bytes_of_sixes (n := n) a.toNat_lt b.toNat_lt (Nat.zero_lt_succ 255) (by omega)
    have hfill : six n 2 % 4 = 0 := by
      have h₂ : six n 2 = n / 2 ^ 6 % 64 := rfl
      omega
    rw [decode_two hfill, hbytes.1, hbytes.2.1, UInt8.ofNat_toNat, UInt8.ofNat_toNat]
  | case4 a b c bs n ih =>
    have hbytes := bytes_of_sixes (n := n) a.toNat_lt b.toNat_lt c.toNat_lt rfl
    rw [decode_three, ih, hbytes.1, hbytes.2.1, hbytes.2.2]
    simp only [UInt8.ofNat_toNat, Option.map_some]

theorem encode_injective : Function.Injective encode := by
  intro xs ys h
  have hdecode := congrArg decode h
  rw [decode_encode, decode_encode] at hdecode
  exact Option.some.inj hdecode

/-! ## The shape of an encoding -/

theorem length_encode (bs : Bytes) : (encode bs).length = 4 * ((bs.length + 2) / 3) := by
  fun_induction encode bs with
  | case1 => rfl
  | case2 => simp
  | case3 => simp
  | case4 a b c bs n ih =>
    simp only [List.length_cons, ih]
    omega

/-- Symbols, then at most two padding characters. -/
theorem encode_eq_symbols (bs : Bytes) :
    ∃ body k, encode bs = body ++ List.replicate k pad ∧ k ≤ 2 ∧
      ∀ c ∈ body, ∃ n < 64, c = symbol n := by
  have hsextet (n i : Nat) : ∃ m < 64, sextet n i = symbol m := ⟨_, six_lt n i, rfl⟩
  fun_induction encode bs with
  | case1 => exact ⟨[], 0, rfl, by decide, by simp⟩
  | case2 a n =>
    refine ⟨[sextet n 0, sextet n 1], 2, rfl, by decide, ?_⟩
    simp only [List.forall_mem_cons, hsextet, true_and]
    simp
  | case3 a b n =>
    refine ⟨[sextet n 0, sextet n 1, sextet n 2], 1, rfl, by decide, ?_⟩
    simp only [List.forall_mem_cons, hsextet, true_and]
    simp
  | case4 a b c bs n ih =>
    obtain ⟨body, k, hbody, hk, hsymbols⟩ := ih
    refine ⟨sextet n 0 :: sextet n 1 :: sextet n 2 :: sextet n 3 :: body, k, ?_, hk, ?_⟩
    · rw [hbody]
      rfl
    · simp only [List.forall_mem_cons, hsextet, true_and]
      exact hsymbols

end Base64
