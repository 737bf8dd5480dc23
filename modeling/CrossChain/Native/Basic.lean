import Mathlib.Data.List.TakeWhile
import CrossChain.ForStd.Bytes

/-!
# C++ strings and fixed-width blobs

`std::string` and `vector<unsigned char>` are both byte strings here.  A
`base_uint<8 * n>` is the `n` bytes its words occupy in memory on a
little-endian host; `uint160` and `uint256` are the instances with 20 and 32
bytes.
-/

namespace CrossChain

/-- `std::string`: any bytes, NUL included. -/
abbrev Str := Bytes

/-- The bytes of a string literal of the source. -/
def str (s : String) : Str :=
  s.toList.map fun c => UInt8.ofNat c.toNat

/-- What a C function sees of `s.c_str()`: the bytes before the first NUL. -/
def cStr (s : Str) : Str :=
  s.takeWhile (· != 0)

/-- `isspace` in the "C" locale. -/
def isspace (c : UInt8) : Bool :=
  c == 0x20 || (0x09 ≤ c && c ≤ 0x0d)

/-- What can escape a call: `std::out_of_range` of `at`, the `std::runtime_error` of a
    json getter, the `system_error` of a failed name lookup, a failed `assert`, the read
    of a vector element past the end (undefined behaviour). -/
inductive Exn where
  | outOfRange
  | runtimeError
  | systemError
  | assertFailed
  | badIndex
  deriving DecidableEq, Repr

/-- `std::numeric_limits<unsigned int>::max()`. -/
def uintMax : UInt32 := 0xffffffff

/-- A `base_uint` of `n` bytes, by its bytes in memory. -/
structure BaseUint (n : Nat) where
  bytes : Bytes
  size_eq : bytes.length = n
  deriving DecidableEq

/-- `uint160`, and `CKeyID` and `CScriptID`, which only derive from it. -/
abbrev Uint160 := BaseUint 20

/-- `uint256`. -/
abbrev Uint256 := BaseUint 32

namespace BaseUint

@[simp] theorem length_bytes {n : Nat} (x : BaseUint n) : x.bytes.length = n := x.size_eq

@[ext] theorem ext {n : Nat} {x y : BaseUint n} (h : x.bytes = y.bytes) : x = y := by
  cases x; cases y; simp_all

/-- The value 0, as the default constructors set it. -/
def zero (n : Nat) : BaseUint n := ⟨List.replicate n 0, List.length_replicate⟩

/-- `uint256(1)`, the value `SignatureHash` returns for a bad index. -/
def one (n : Nat) (h : 0 < n) : BaseUint n :=
  ⟨1 :: List.replicate (n - 1) 0, by simp; omega⟩

/-- `memcpy(&id, &v[0], n)`.  Every call in the source copies from at least `n` bytes;
    a shorter `v` is padded with zeros here. -/
def ofBytes (n : Nat) (v : Bytes) : BaseUint n :=
  ⟨(v ++ List.replicate n 0).take n, by simp⟩

@[simp] theorem bytes_ofBytes {n : Nat} {v : Bytes} (h : v.length = n) :
    (ofBytes n v).bytes = v := by
  simp [ofBytes, ← h]

end BaseUint

/-- A string without NUL is what C sees of it. -/
theorem cStr_eq_self {s : Str} (h : ∀ c ∈ s, c ≠ 0) : cStr s = s := by
  rw [cStr, List.takeWhile_eq_self_iff]
  intro c hc
  simpa using h c hc

end CrossChain
