import CrossChain.ForStd.OrdMap
import CrossChain.Native.Http

/-!
# Writing json

The two writers of the program: `FastWriter` of jsoncpp for its own replies and
the `Generator` of json_spirit, without options, for the requests to a node.
They lay a value out alike and differ in how they spell a string and a double
(`JsonSpelling`).  What `printf` and a stream make of a double is a parameter.
-/

namespace CrossChain

/-- The order of member names in either library's map: byte by byte. -/
def nameRank (name : String) : List Nat := (str name).map UInt8.toNat

/-- The member name of these bytes. -/
def nameOf (s : Str) : String := String.ofList (s.map fun c => Char.ofNat c.toNat)

theorem str_nameOf (s : Str) : str (nameOf s) = s := by
  have hbyte (c : UInt8) : UInt8.ofNat (Char.ofNat c.toNat).toNat = c := by
    have hvalid : c.toNat.isValidChar := .inl (by have := c.toNat_lt; omega)
    rw [Char.ofNat, dif_pos hvalid]
    exact UInt8.ofNat_toNat
  simp [str, nameOf, Function.comp_def, hbyte]

/-- What `sprintf("%#.16g")` of jsoncpp and `setprecision(17)` of json_spirit make of a
    double, and what `sscanf("%lf")` reads in a text. -/
structure DoubleText where
  valueToString : ℚ → Str
  appendDouble : ℚ → Str
  scan : Str → Option ℚ

/-- How a writer spells strings and doubles. -/
structure JsonSpelling where
  string : Str → Str
  real : ℚ → Str

/-! ## Strings -/

/-- `to_hex_char`, and a digit under `std::hex` and `std::uppercase`. -/
def toHexChar (c : Nat) : UInt8 := UInt8.ofNat (if c < 10 then 0x30 + c else 0x41 - 10 + c)

/-- `non_printable_to_string`, which is also the `\u` escape of `valueToQuotedString`. -/
def nonPrintableToString (c : Nat) : Str :=
  [0x5c, 0x75, toHexChar (c / 0x1000 % 0x10), toHexChar (c / 0x100 % 0x10),
    toHexChar (c / 0x10 % 0x10), toHexChar (c % 0x10)]

/-- `add_esc_char`, the escapes with a letter of their own. -/
def addEscChar (c : UInt8) : Option Str :=
  if c = 0x22 then some (str "\\\"")
  else if c = 0x5c then some (str "\\\\")
  else if c = 0x08 then some (str "\\b")
  else if c = 0x0c then some (str "\\f")
  else if c = 0x0a then some (str "\\n")
  else if c = 0x0d then some (str "\\r")
  else if c = 0x09 then some (str "\\t")
  else none

/-- `iswprint` in the "C" locale, for the code of a byte. -/
def iswprint (c : UInt8) : Bool := 0x20 ≤ c && c ≤ 0x7e

/-- One turn of `add_esc_chars` without `raw_utf8`. -/
def escCharSpirit (c : UInt8) : Str :=
  match addEscChar c with
  | some s => s
  | none => if iswprint c then [c] else nonPrintableToString c.toNat

/-- A string under json_spirit's `output`. -/
def outputString (s : Str) : Str := 0x22 :: (s.flatMap escCharSpirit ++ [0x22])

/-- `isControlCharacter`; a `char` above 0x7f is negative. -/
def isControlCharacter (ch : UInt8) : Bool := 0 < ch && ch ≤ 0x1f

/-- One turn of `valueToQuotedString`. -/
def escCharFast (c : UInt8) : Str :=
  match addEscChar c with
  | some s => s
  | none => if isControlCharacter c then nonPrintableToString c.toNat else [c]

/-- `valueToQuotedString`, of a C string. -/
def valueToQuotedString (value : Str) : Str :=
  let value := cStr value
  if value.all fun c => (addEscChar c).isNone && !isControlCharacter c then
    0x22 :: (value ++ [0x22])
  else 0x22 :: (value.flatMap escCharFast ++ [0x22])

/-- The short cut for strings without special characters changes nothing. -/
theorem valueToQuotedString_eq (value : Str) :
    valueToQuotedString value = 0x22 :: ((cStr value).flatMap escCharFast ++ [0x22]) := by
  unfold valueToQuotedString
  simp only
  split
  · rename_i hplain
    have hesc : ∀ c ∈ cStr value, escCharFast c = [c] := by
      intro c hc
      have h := List.all_eq_true.mp hplain c hc
      simp only [Bool.and_eq_true, Option.isNone_iff_eq_none, Bool.not_eq_true'] at h
      simp [escCharFast, h.1, h.2]
    rw [List.flatMap_congr hesc, List.flatMap_singleton']
  · rfl

/-! ## Values -/

/-- `valueToString` of an integer, and `operator<<`. -/
def valueToString (value : Int) : Str :=
  if value < 0 then 0x2d :: decimal value.natAbs else decimal value.natAbs

mutual

/-- `writeValue` of `FastWriter`, and `output` of the `Generator`. -/
def writeValue (spelling : JsonSpelling) : Json → Str
  | .null => str "null"
  | .int i => valueToString i
  | .real q => spelling.real q
  | .string s => spelling.string s
  | .bool b => str (if b then "true" else "false")
  | .array elems => 0x5b :: ((str ",").intercalate (writeElems spelling elems) ++ [0x5d])
  | .object members =>
    0x7b :: ((str ",").intercalate ((OrdMap.sort nameRank (writeMembers spelling members)).map
      fun m => spelling.string (str m.1) ++ 0x3a :: m.2) ++ [0x7d])
termination_by structural value => value

def writeElems (spelling : JsonSpelling) : List Json → List Str
  | [] => []
  | value :: values => writeValue spelling value :: writeElems spelling values
termination_by structural values => values

/-- The members with the texts of their values. -/
def writeMembers (spelling : JsonSpelling) : List (String × Json) → List (String × Str)
  | [] => []
  | (name, value) :: members => (name, writeValue spelling value) :: writeMembers spelling members
termination_by structural members => members

end

/-- The spelling of jsoncpp. -/
def jsoncppSpelling (d : DoubleText) : JsonSpelling := ⟨valueToQuotedString, d.valueToString⟩

/-- The spelling of json_spirit. -/
def spiritSpelling (d : DoubleText) : JsonSpelling := ⟨outputString, d.appendDouble⟩

/-- `FastWriter::write`. -/
def fastWrite (d : DoubleText) (root : Json) : Str := writeValue (jsoncppSpelling d) root ++ str "\n"

/-- `write_string` without options. -/
def writeString (d : DoubleText) (value : Json) : Str := writeValue (spiritSpelling d) value

theorem writeElems_eq_map (spelling : JsonSpelling) (values : List Json) :
    writeElems spelling values = values.map (writeValue spelling) := by
  induction values with
  | nil => rfl
  | cons value values ih => rw [writeElems, ih, List.map_cons]

theorem writeMembers_eq_map (spelling : JsonSpelling) (members : Object) :
    writeMembers spelling members = members.map fun m => (m.1, writeValue spelling m.2) := by
  induction members with
  | nil => rfl
  | cons m members ih => rw [writeMembers, ih, List.map_cons]

end CrossChain
