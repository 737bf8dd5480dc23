import CrossChain.Native.Http

/-!
# Netstrings

netstring.cpp.  `unsigned long` and `size_t` have 64 bits.
-/

namespace CrossChain

namespace Netstring

/-- `encode`. -/
def encode (s : Str) : Str := decimal s.length ++ str ":" ++ s ++ str ","

/-- The texts of `NetstringException`. -/
inductive NetstringException where
  | missingColon
  | missingComma
  | parsingError
  | sizeMismatch
  deriving DecidableEq, Repr

def NetstringException.what : NetstringException → String
  | missingColon => "netstring: missing ':' character"
  | missingComma => "netstring: missing ',' character"
  | parsingError => "netstring: parsing error"
  | sizeMismatch => "netstring: size mismatch"

/-- The loop over the digits. -/
def decodeLen : Nat → Str → Option Nat
  | len, [] => some len
  | len, c :: data =>
    -- `unsigned long` wraps: a length may be written with any number of digits
    if isdigit c then decodeLen ((len * 10 + (c.toNat - 0x30)) % 2 ^ 64) data else none

/-- `decode`.  The comma is only looked for, anywhere in the text. -/
def decode (s : Str) : Except NetstringException Str :=
  match s.idxOf? 0x3a with
  | none => .error .missingColon
  | some index =>
    if 0x2c ∉ s then .error .missingComma
    else
      match decodeLen 0 (s.take index) with
      | none => .error .parsingError
      | some len =>
        -- `size_t` arithmetic: below zero it wraps
        if (len : Int) ≠ ((s.length : Int) - index - 2) % 2 ^ 64 then .error .sizeMismatch
        else .ok ((s.drop (index + 1)).take len)

end Netstring

end CrossChain
