import CrossChain.ForStd.Base64
import CrossChain.Native.Http

/-!
# The Authorization header

`EncodeBase64` carries the bits of a byte that are not written yet in `left`;
`mode` says how many there are.  Three bytes bring it back to mode 0, so it is
compared with the standard encoding group by group.
-/

namespace CrossChain

/-! ## The alphabet -/

theorem pbase64At_eq_symbol {n : Nat} (h : n < 64) : pbase64At n = Base64.symbol n := by
  have key : ∀ m : Fin 64, pbase64At m = Base64.symbol m := by decide +kernel
  exact key ⟨n, h⟩

theorem symbol_mem_pbase64 {n : Nat} (h : n < 64) : Base64.symbol n ∈ pbase64 := by
  have key : ∀ m : Fin 64, Base64.symbol m ∈ pbase64 := by decide +kernel
  exact key ⟨n, h⟩

theorem pbase64_no_line_end : ∀ c ∈ pbase64, c ≠ 0x0d ∧ c ≠ 0x0a := by
  apply Bytes.forall_mem
  decide +kernel

/-- `pbase64[i]` is the six of `n` that `i` is. -/
theorem pbase64At_eq_sextet {i n k : Nat} (h : i = Base64.six n k) :
    pbase64At i = Base64.sextet n k := by
  rw [h, Base64.sextet, pbase64At_eq_symbol (Base64.six_lt n k)]

/-! ## The sixes of three bytes -/

section Sixes

variable {a b c n : Nat}

theorem six_zero (ha : a < 256) (hb : b < 256) (hc : c < 256)
    (hn : n = a * 2 ^ 16 + b * 2 ^ 8 + c) : a >>> 2 = Base64.six n 0 := by
  show a >>> 2 = n / 2 ^ 18 % 64
  rw [Nat.shiftRight_eq_div_pow]
  omega

theorem six_one (hb : b < 256) (hc : c < 256) (hn : n = a * 2 ^ 16 + b * 2 ^ 8 + c) :
    (a &&& 3) <<< 4 ||| b >>> 4 = Base64.six n 1 := by
  have hand : a &&& 3 = a % 4 := Nat.and_two_pow_sub_one_eq_mod a 2
  have hshift : b >>> 4 = b / 16 := Nat.shiftRight_eq_div_pow b 4
  show (a &&& 3) <<< 4 ||| b >>> 4 = n / 2 ^ 12 % 64
  rw [← Nat.shiftLeft_add_eq_or_of_lt (by omega), Nat.shiftLeft_eq, hand, hshift]
  omega

theorem six_two (hc : c < 256) (hn : n = a * 2 ^ 16 + b * 2 ^ 8 + c) :
    (b &&& 15) <<< 2 ||| c >>> 6 = Base64.six n 2 := by
  have hand : b &&& 15 = b % 16 := Nat.and_two_pow_sub_one_eq_mod b 4
  have hshift : c >>> 6 = c / 64 := Nat.shiftRight_eq_div_pow c 6
  show (b &&& 15) <<< 2 ||| c >>> 6 = n / 2 ^ 6 % 64
  rw [← Nat.shiftLeft_add_eq_or_of_lt (by omega), Nat.shiftLeft_eq, hand, hshift]
  omega

theorem six_three (hn : n = a * 2 ^ 16 + b * 2 ^ 8 + c) : c &&& 63 = Base64.six n 3 := by
  have hand : c &&& 63 = c % 64 := Nat.and_two_pow_sub_one_eq_mod c 6
  show c &&& 63 = n / 2 ^ 0 % 64
  omega

/-- With no second byte the two bits left are filled up with zeros. -/
theorem six_one_end (hn : n = a * 2 ^ 16) : (a &&& 3) <<< 4 = Base64.six n 1 := by
  have hone := six_one (a := a) (b := 0) (c := 0) (n := n) (by omega) (by omega) (by simp [hn])
  rwa [Nat.zero_shiftRight, Nat.or_zero] at hone

/-- With no third byte the four bits left are filled up with zeros. -/
theorem six_two_end (hn : n = a * 2 ^ 16 + b * 2 ^ 8) : (b &&& 15) <<< 2 = Base64.six n 2 := by
  have htwo := six_two (a := a) (b := b) (c := 0) (n := n) (by omega) (by simp [hn])
  rwa [Nat.zero_shiftRight, Nat.or_zero] at htwo

end Sixes

/-! ## The loop -/

/-- From mode 0 the loop writes the encoding of the bytes that follow. -/
theorem encodeBase64Go_eq_encode (left : Nat) (pch : Bytes) :
    encodeBase64Go 0 left pch = Base64.encode pch := by
  fun_induction Base64.encode pch generalizing left with
  | case1 => rfl
  | case2 a n =>
    -- the end is met in mode 1
    have hzero := six_zero (b := 0) (c := 0) (n := n) a.toNat_lt (Nat.zero_lt_succ 255)
      (Nat.zero_lt_succ 255) (by omega)
    rw [← pbase64At_eq_sextet hzero, ← pbase64At_eq_sextet (six_one_end (n := n) rfl)]
    rfl
  | case3 a b n =>
    -- the end is met in mode 2
    have hzero := six_zero (c := 0) (n := n) a.toNat_lt b.toNat_lt (Nat.zero_lt_succ 255) (by omega)
    have hone := six_one (a := a.toNat) (c := 0) (n := n) b.toNat_lt (Nat.zero_lt_succ 255)
      (by omega)
    rw [← pbase64At_eq_sextet hzero, ← pbase64At_eq_sextet hone,
      ← pbase64At_eq_sextet (six_two_end (n := n) rfl)]
    rfl
  | case4 a b c pch n ih =>
    have hzero := six_zero (n := n) a.toNat_lt b.toNat_lt c.toNat_lt rfl
    have hone := six_one (n := n) b.toNat_lt c.toNat_lt rfl
    have htwo := six_two (n := n) c.toNat_lt rfl
    rw [← pbase64At_eq_sextet hzero, ← pbase64At_eq_sextet hone, ← pbase64At_eq_sextet htwo,
      ← pbase64At_eq_sextet (six_three (n := n) rfl), ← ih ((b.toNat &&& 15) <<< 2)]
    rfl

theorem encodeBase64_eq_encode (pch : Bytes) : encodeBase64 pch = Base64.encode pch :=
  encodeBase64Go_eq_encode 0 pch

/-- The text is symbols of the alphabet, then at most two padding characters. -/
theorem encodeBase64_eq_symbols (pch : Bytes) :
    ∃ body k, encodeBase64 pch = body ++ List.replicate k 0x3d ∧ k ≤ 2 ∧
      ∀ c ∈ body, c ∈ pbase64 := by
  obtain ⟨body, k, heq, hk, hsymbols⟩ := Base64.encode_eq_symbols pch
  refine ⟨body, k, (encodeBase64_eq_encode pch).trans heq, hk, ?_⟩
  intro c hc
  obtain ⟨n, hn, hcn⟩ := hsymbols c hc
  rw [hcn]
  exact symbol_mem_pbase64 hn

theorem encodeBase64_injective : Function.Injective encodeBase64 := by
  intro xs ys h
  rw [encodeBase64_eq_encode, encodeBase64_eq_encode] at h
  exact Base64.encode_injective h

/-! ## The header -/

/-- Neither CR nor LF. -/
def NoLineEnd (s : Str) : Prop := ∀ c ∈ s, c ≠ 0x0d ∧ c ≠ 0x0a

theorem NoLineEnd.append {s t : Str} (hs : NoLineEnd s) (ht : NoLineEnd t) :
    NoLineEnd (s ++ t) := by
  intro c hc
  cases List.mem_append.mp hc with
  | inl h => exact hs c h
  | inr h => exact ht c h

theorem noLineEnd_encodeBase64 (pch : Bytes) : NoLineEnd (encodeBase64 pch) := by
  obtain ⟨body, k, heq, _, hbody⟩ := encodeBase64_eq_symbols pch
  rw [heq]
  apply NoLineEnd.append
  · intro c hc
    exact pbase64_no_line_end c (hbody c hc)
  · intro c hc
    rw [List.eq_of_mem_replicate hc]
    decide

theorem noLineEnd_mapRequestHeaders (rpc : RpcConf) :
    ∀ item ∈ mapRequestHeaders rpc, NoLineEnd item.1 ∧ NoLineEnd item.2 := by
  intro item hitem
  have hfixed : NoLineEnd (str "Authorization") ∧ NoLineEnd (str "Basic ") := by
    unfold NoLineEnd
    constructor
    · apply Bytes.forall_mem
      decide +kernel
    · apply Bytes.forall_mem
      decide +kernel
  rw [mapRequestHeaders, Assoc.set, List.filter_nil, List.mem_singleton] at hitem
  rw [hitem]
  exact ⟨hfixed.1, hfixed.2.append (noLineEnd_encodeBase64 _)⟩

/-- `EncodeBase64` is the standard encoding: of the right length, symbols of the alphabet
    and at most two `=`, undone by decoding, injective.  The header that `CallRPC` builds of
    it is one line, whatever bytes the user name and the password hold. -/
theorem encodeBase64_exact :
    (∀ pch : Bytes,
      encodeBase64 pch = Base64.encode pch ∧
      (encodeBase64 pch).length = 4 * ((pch.length + 2) / 3) ∧
      (∃ body k, encodeBase64 pch = body ++ List.replicate k 0x3d ∧ k ≤ 2 ∧
        ∀ c ∈ body, c ∈ pbase64) ∧
      Base64.decode (encodeBase64 pch) = some pch) ∧
    Function.Injective encodeBase64 ∧
    ∀ rpc : RpcConf, ∀ item ∈ mapRequestHeaders rpc, NoLineEnd item.1 ∧ NoLineEnd item.2 := by
  refine ⟨?_, encodeBase64_injective, noLineEnd_mapRequestHeaders⟩
  intro pch
  have heq := encodeBase64_eq_encode pch
  refine ⟨heq, ?_, encodeBase64_eq_symbols pch, ?_⟩
  · rw [heq, Base64.length_encode]
  · rw [heq, Base64.decode_encode]

end CrossChain
