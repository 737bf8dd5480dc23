import CrossChain.Native.Basic

/-!
# Hex text

`HexStr` of key.h, `ParseHex` of script.cpp and `GetHex` / `SetHex` of
uint256.h.  The two readers differ: `ParseHex` stops at the first bad digit
pair, `SetHex` takes the whole run of digits and reads it backwards.
-/

namespace CrossChain

/-- `hexmap` of `HexStr`: the lower-case digit of a nibble. -/
def hexmap (n : UInt8) : UInt8 :=
  if n < 10 then 0x30 + n else 0x57 + n

/-- The `phexdigit` table of script.cpp, `none` for its `-1` entries. -/
def phexdigit (c : UInt8) : Option UInt8 :=
  if 0x30 ≤ c && c ≤ 0x39 then some (c - 0x30)
  else if 0x41 ≤ c && c ≤ 0x46 then some (c - 0x37)
  else if 0x61 ≤ c && c ≤ 0x66 then some (c - 0x57)
  else none

/-- The loop of `HexStr`; `first` is `it == itbegin`. -/
def hexStrGo (fSpaces : Bool) : Bool → Bytes → Str
  | _, [] => []
  | first, val :: vch =>
    (if fSpaces && !first then [0x20] else [] : Str) ++
      hexmap (val >>> 4) :: hexmap (val &&& 15) :: hexStrGo fSpaces false vch

/-- `HexStr(vch, fSpaces)`. -/
def hexStrWith (fSpaces : Bool) (vch : Bytes) : Str :=
  hexStrGo fSpaces true vch

/-- `HexStr(vch)`, with `fSpaces` at its default `false`. -/
def hexStr (vch : Bytes) : Str :=
  hexStrWith false vch

/-- The loop of `ParseHex`, one character a step: `none` before a first digit
    (where white space is skipped), `some n` with `n` the high nibble read. -/
def parseHexGo : Option UInt8 → Str → Bytes
  | _, [] => []
  | none, c :: psz =>
    if isspace c then parseHexGo none psz
    else match phexdigit c with
      | none => []
      | some n => parseHexGo (some n) psz
  | some n, c :: psz =>
    match phexdigit c with
    | none => []
    | some d => ((n <<< 4) ||| d) :: parseHexGo none psz

/-- `ParseHex(str)`. -/
def parseHex (s : Str) : Bytes :=
  parseHexGo none (cStr s)

/-- `while (isspace(*psz)) psz++`.  A pointer is what is left of its buffer, and a read
    past the end an error. -/
def skipSpaces : Bytes → Except Exn Bytes
  | [] => .error .badIndex
  | c :: psz => if isspace c then skipSpaces psz else .ok (c :: psz)

/-- `phexdigit[(unsigned char)*psz++]`. -/
def nextHexDigit : Bytes → Except Exn (Option UInt8 × Bytes)
  | [] => .error .badIndex
  | c :: psz => .ok (phexdigit c, psz)

/-- One turn of the loop of `ParseHex`: the byte to push, `none` for a `break`. -/
def parseHexTurn (psz : Bytes) : Except Exn (Option UInt8 × Bytes) := do
  let psz ← skipSpaces psz
  let (c, psz) ← nextHexDigit psz
  match c with
  | none => return (none, psz)
  | some c => do
    let n := c <<< 4
    let (c, psz) ← nextHexDigit psz
    match c with
    | none => return (none, psz)
    | some c => return (some (n ||| c), psz)

theorem skipSpaces_suffix {psz psz' : Bytes} (h : skipSpaces psz = .ok psz') :
    psz' <:+ psz := by
  induction psz with
  | nil => cases h
  | cons c psz ih =>
    rw [skipSpaces] at h
    split at h
    · exact (ih h).trans (List.suffix_cons c psz)
    · cases h
      exact List.suffix_rfl

/-- A turn that pushes a byte has read characters. -/
theorem length_parseHexTurn_lt {psz psz' : Bytes} {n : UInt8}
    (h : parseHexTurn psz = .ok (some n, psz')) : psz'.length < psz.length := by
  rw [parseHexTurn] at h
  cases hskip : skipSpaces psz with
  | error e =>
    rw [hskip] at h
    cases h
  | ok t =>
    have hle := (skipSpaces_suffix hskip).length_le
    rcases t with _ | ⟨c, _ | ⟨d, t⟩⟩
    · simp [hskip, nextHexDigit, bind, Except.bind] at h
    · cases hc : phexdigit c <;>
        simp [hskip, nextHexDigit, bind, Except.bind, pure, Except.pure, hc] at h
    · cases hc : phexdigit c <;> cases hd : phexdigit d <;>
        simp [hskip, nextHexDigit, bind, Except.bind, pure, Except.pure, hc, hd] at h
      obtain ⟨_, rfl⟩ := h
      simp only [List.length_cons] at hle
      omega

/-- `ParseHex(psz)` on a buffer: the bytes and where the pointer stops. -/
def parseHexAt (psz : Bytes) : Except Exn (Bytes × Bytes) :=
  match _ : parseHexTurn psz with
  | .error e => .error e
  | .ok (none, psz) => .ok ([], psz)
  | .ok (some n, psz) => (parseHexAt psz).map fun (vch, psz) => (n :: vch, psz)
termination_by psz.length
decreasing_by exact length_parseHexTurn_lt ‹parseHexTurn _ = _›

/-- The bytes a hex literal denotes. -/
def hexBytes (s : String) : Bytes := parseHex (str s)

/-! ## `base_uint` -/

/-- `GetHex`: two digits a byte, most significant byte first. -/
def BaseUint.getHex {n : Nat} (x : BaseUint n) : Str :=
  hexStr x.bytes.reverse

/-- The digits `SetHex` accepts; its table has 0 for every other character. -/
def uintDigit (c : UInt8) : UInt8 :=
  (phexdigit c).getD 0

/-- The backward loop of `SetHex`: `room` bytes are left, the digits come last first. -/
def setHexGo : Nat → List UInt8 → Bytes
  | 0, _ => []
  | _ + 1, [] => []
  | _ + 1, [c] => [uintDigit c]
  | room + 1, c :: d :: cs => (uintDigit c ||| (uintDigit d <<< 4)) :: setHexGo room cs

/-- `SetHex`: skip white space and `0x`, take the run of digits, store it from its end. -/
def BaseUint.setHex (n : Nat) (s : Str) : BaseUint n :=
  -- skip leading spaces
  let psz := (cStr s).dropWhile isspace
  -- skip 0x
  let psz := match psz with
    | 0x30 :: c :: rest => if c = 0x78 ∨ c = 0x58 then rest else psz
    | _ => psz
  -- hex string to uint
  let digits := psz.takeWhile fun c => (phexdigit c).isSome
  BaseUint.ofBytes n (setHexGo n digits.reverse)

/-! ## Reading back what was written -/

theorem hexStr_nil : hexStr [] = [] := rfl

private theorem hexStrGo_false (first : Bool) (vch : Bytes) :
    hexStrGo false first vch = hexStr vch := by
  cases vch <;> simp [hexStr, hexStrWith, hexStrGo]

theorem hexStr_cons (b : UInt8) (bs : Bytes) :
    hexStr (b :: bs) = hexmap (b >>> 4) :: hexmap (b &&& 15) :: hexStr bs := by
  rw [hexStr, hexStrWith, hexStrGo, hexStrGo_false]
  rfl

/-- A digit of `HexStr` is a hex digit with the nibble as its value, and no white space. -/
theorem phexdigit_hexmap {n : UInt8} (h : n < 16) :
    phexdigit (hexmap n) = some n ∧ isspace (hexmap n) = false ∧ hexmap n ≠ 0 := by
  revert n
  apply Bytes.forall_nibble
  decide +kernel

theorem shiftRight_four_lt (b : UInt8) : b >>> 4 < 16 := by
  rw [UInt8.lt_iff_toNat_lt, UInt8.toNat_shiftRight, Nat.shiftRight_eq_div_pow]
  have hb : b.toNat < 256 := b.toNat_lt
  change b.toNat / 16 < 16
  omega

theorem and_fifteen_lt (b : UInt8) : b &&& 15 < 16 := by
  rw [UInt8.lt_iff_toNat_lt]
  simp only [UInt8.toNat_and, show (15 : UInt8).toNat = 15 from rfl,
    show (16 : UInt8).toNat = 16 from rfl]
  have := @Nat.and_le_right b.toNat 15
  omega

/-- The two nibbles of a byte put back together. -/
theorem nibbles_or (b : UInt8) : ((b >>> 4) <<< 4) ||| (b &&& 15) = b := by
  revert b
  apply Bytes.forall_byte
  decide +kernel

/-- The characters of `HexStr` are separators, where these are asked for, and digits. -/
theorem forall_mem_hexStrGo {P : UInt8 → Prop} {fSpaces : Bool} (hspace : fSpaces = true → P 0x20)
    (hdigit : ∀ n < 16, P (hexmap n)) (first : Bool) (bs : Bytes) :
    ∀ c ∈ hexStrGo fSpaces first bs, P c := by
  induction bs generalizing first with
  | nil => simp [hexStrGo]
  | cons b bs ih =>
    intro c hc
    rw [hexStrGo, List.mem_append, List.mem_cons, List.mem_cons] at hc
    rcases hc with hc | rfl | rfl | hc
    · split at hc
      · rename_i hsep
        rw [List.mem_singleton.mp hc]
        exact hspace (Bool.and_eq_true_iff.mp hsep).1
      · cases hc
    · exact hdigit _ (shiftRight_four_lt b)
    · exact hdigit _ (and_fifteen_lt b)
    · exact ih false c hc

theorem forall_mem_hexStr {P : UInt8 → Prop} (hdigit : ∀ n < 16, P (hexmap n)) (bs : Bytes) :
    ∀ c ∈ hexStr bs, P c :=
  forall_mem_hexStrGo nofun hdigit true bs

theorem hexStrGo_ne_zero (fSpaces first : Bool) (bs : Bytes) :
    ∀ c ∈ hexStrGo fSpaces first bs, c ≠ 0 :=
  forall_mem_hexStrGo (fun _ => by decide) (fun _ hn => (phexdigit_hexmap hn).2.2) first bs

theorem parseHexGo_hexStrGo (fSpaces first : Bool) (bs : Bytes) :
    parseHexGo none (hexStrGo fSpaces first bs) = bs := by
  induction bs generalizing first with
  | nil => rfl
  | cons b bs ih =>
    -- a digit is no white space, so the high nibble starts at once
    obtain ⟨hhi, hspace, _⟩ := phexdigit_hexmap (shiftRight_four_lt b)
    obtain ⟨hlo, _, _⟩ := phexdigit_hexmap (and_fifteen_lt b)
    have hdigits : parseHexGo none (hexmap (b >>> 4) :: hexmap (b &&& 15) ::
        hexStrGo fSpaces false bs) = b :: bs := by
      simp only [parseHexGo, hspace, Bool.false_eq_true, ↓reduceIte, hhi, hlo, ih, nibbles_or]
    rw [hexStrGo]
    split
    · -- the separator is skipped
      exact hdigits
    · exact hdigits

/-- `ParseHex` undoes `HexStr`, with spaces or without. -/
theorem parseHex_hexStrWith (fSpaces : Bool) (bs : Bytes) :
    parseHex (hexStrWith fSpaces bs) = bs := by
  rw [parseHex, hexStrWith, cStr_eq_self (hexStrGo_ne_zero fSpaces true bs), parseHexGo_hexStrGo]

theorem parseHex_hexStr (bs : Bytes) : parseHex (hexStr bs) = bs :=
  parseHex_hexStrWith false bs

/-- `HexStr` is injective: the text determines the bytes. -/
theorem hexStr_injective : Function.Injective hexStr := by
  intro xs ys h
  rw [← parseHex_hexStr xs, ← parseHex_hexStr ys, h]

end CrossChain
