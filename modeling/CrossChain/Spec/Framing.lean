import CrossChain.Native.JsonRpc
import CrossChain.Native.Netstring
import CrossChain.Spec.JsonCanonical
import CrossChain.Spec.JsonPrefix

/-!
# Messages in a stream

The server takes what one `recv` returns for one message.  A request that comes
whole is processed whatever comes behind it, and one that does not is answered
with a parse error (`processMsg_framing`).  Under netstrings, what `decode`
accepts is spelled out by `decode_eq_ok_iff`; it inverts `encode`
(`decode_encode`).
-/

namespace CrossChain

open JsonReader

/-! ## Json texts -/

section

variable {d : DoubleText} {v : Json}

/-- Objects and arrays: what a message is meant to be. -/
def IsMessage (v : Json) : Prop := (∃ members, v = .object members) ∨ ∃ elems, v = .array elems

theorem opens_fastWrite (h : IsMessage v) (rest : Str) : Opens (fastWrite d v ++ rest) := by
  obtain ⟨members, rfl⟩ | ⟨elems, rfl⟩ := h
  · exact .inl rfl
  · exact .inr rfl

/-- Whatever comes after a message, the message is read. -/
theorem parse_fastWrite_append (h : IsMessage v)
    (hv : Writable d.scan (jsoncppSpelling d) cStr v) (rest : Str) :
    parse d.scan (fastWrite d v ++ rest) = some (asRead cStr v) := by
  have hopens := opens_fastWrite (d := d) h []
  rw [List.append_nil] at hopens
  exact parse_append hopens (parse_fastWrite hv) rest

/-- A message that lacks its last bracket is not read. -/
theorem parse_fastWrite_cut (h : IsMessage v) (hv : Writable d.scan (jsoncppSpelling d) cStr v)
    {p q : Str} (hcut : fastWrite d v = p ++ q) (hq : 1 < q.length) : parse d.scan p = none := by
  have hopens := opens_fastWrite (d := d) h []
  have hreads := reads_line (spells_jsoncpp d) hv []
  rw [List.append_nil] at hopens hreads
  have hline : writeValue (jsoncppSpelling d) v ++ str "\n" = p ++ q := hcut
  rw [hline] at hreads
  rw [hcut] at hopens
  exact parse_cut hopens hreads hq

end

namespace Netstring

/-- The number that a text of digits says. -/
def numberOf (s : Str) : Nat := Numeral.value 10 (s.map fun c => c.toNat - 0x30)

theorem numberOf_decimal (n : Nat) : numberOf (decimal n) = n := by
  obtain ⟨ds, heq, hlt, hvalue⟩ := decimal_spec n
  rw [numberOf, heq, List.map_map, List.map_congr_left (g := id), List.map_id, hvalue]
  intro d hd
  exact (isdigit_digit (hlt d hd)).2

/-- The loop over the digits: it fails at another character, and wraps. -/
theorem decodeLen_eq (n : Nat) (s : Str) :
    decodeLen (n % 2 ^ 64) s =
      if s.all isdigit then
        some ((s.map fun c => c.toNat - 0x30).foldl (fun n d => n * 10 + d) n % 2 ^ 64)
      else none := by
  induction s generalizing n with
  | nil => simp [decodeLen]
  | cons c s ih =>
    rw [decodeLen]
    by_cases hc : isdigit c
    · -- wrapping at each digit is wrapping once at the end
      have hwrap : (n % 2 ^ 64 * 10 + (c.toNat - 0x30)) % 2 ^ 64 =
          (n * 10 + (c.toNat - 0x30)) % 2 ^ 64 := by
        omega
      rw [if_pos hc, hwrap, ih]
      simp [hc]
    · rw [if_neg hc]
      simp [hc]

theorem decodeLen_zero (s : Str) :
    decodeLen 0 s = if s.all isdigit then some (numberOf s % 2 ^ 64) else none := by
  have h := decodeLen_eq 0 s
  rwa [Numeral.foldl_eq_value] at h

/-- Neither mark is a digit. -/
theorem isdigit_ne {c : UInt8} (h : isdigit c) : c ≠ 0x3a ∧ c ≠ 0x2c := by
  revert c
  apply Bytes.forall_byte
  decide +kernel

/-- A text splits at its first colon. -/
theorem splits_of_idxOf? {s : Str} {index : Nat} (h : s.idxOf? 0x3a = some index) :
    ∃ before rest, s = before ++ 0x3a :: rest ∧ index = before.length := by
  obtain ⟨hlt, hcolon, _⟩ := List.idxOf?_eq_some_iff.mp h
  refine ⟨s.take index, s.drop (index + 1), ?_, ?_⟩
  · rw [← hcolon, ← List.drop_eq_getElem_cons hlt, List.take_append_drop]
  · rw [List.length_take]
    omega

/-- `decode` on digits, a colon and a rest that holds a comma. -/
theorem decode_append {digits rest : Str} (hdigits : ∀ c ∈ digits, isdigit c)
    (hcomma : 0x2c ∈ rest) (hlength : (digits ++ 0x3a :: rest).length < 2 ^ 64) :
    decode (digits ++ 0x3a :: rest) =
      if numberOf digits % 2 ^ 64 = rest.length - 1 then .ok (rest.take (rest.length - 1))
      else .error .sizeMismatch := by
  have hpos : 0 < rest.length := List.length_pos_of_mem hcomma
  have hmem : 0x2c ∈ digits ++ 0x3a :: rest :=
    List.mem_append_right _ (List.mem_cons_of_mem _ hcomma)
  have hsize : (((digits ++ 0x3a :: rest).length : Int) - digits.length - 2) % 2 ^ 64 =
      ((rest.length - 1 : Nat) : Int) := by
    rw [List.length_append, List.length_cons] at hlength ⊢
    omega
  rw [decode, idxOf?_append fun c hc => (isdigit_ne (hdigits c hc)).1]
  simp only [not_not_intro hmem, if_false, List.take_left, decodeLen_zero]
  rw [if_pos (List.all_eq_true.mpr hdigits)]
  simp only [hsize, Nat.cast_inj, ne_eq, ite_not]
  split
  · rename_i hlen
    have hrest : (digits ++ 0x3a :: rest).drop (digits.length + 1) = rest := by
      simp [← List.drop_drop]
    rw [hlen, hrest]
  · rfl

/-- Where `decode` finds no fault there are digits, a colon, and a comma behind it. -/
theorem splits_of_decode {s t : Str} (h : decode s = .ok t) :
    ∃ digits rest, s = digits ++ 0x3a :: rest ∧ (∀ c ∈ digits, isdigit c) ∧ 0x2c ∈ rest := by
  rw [decode] at h
  split at h
  · cases h
  · rename_i index hindex
    split at h
    · cases h
    · rename_i hcomma
      rw [decodeLen_zero] at h
      obtain ⟨digits, rest, rfl, rfl⟩ := splits_of_idxOf? hindex
      rw [List.take_left] at h
      split at h
      · cases h
      · rename_i hlen
        have hdigits : ∀ c ∈ digits, isdigit c := by
          cases hall : digits.all isdigit with
          | true => exact List.all_eq_true.mp hall
          | false =>
            rw [hall] at hlen
            cases hlen
        refine ⟨digits, rest, rfl, hdigits, ?_⟩
        have hmem := not_not.mp hcomma
        rw [List.mem_append, List.mem_cons] at hmem
        -- the comma is looked for anywhere, but digits and a colon are none
        obtain hleft | hmark | hright := hmem
        · exact absurd rfl (isdigit_ne (hdigits _ hleft)).2
        · cases hmark
        · exact hright

/-- What `decode` accepts, and what it makes of it: digits, a colon and as many bytes as the
    digits say, modulo the size of a long, before one last byte.  That byte need not be a
    comma if there is one before it. -/
theorem decode_eq_ok_iff {s t : Str} (hlength : s.length < 2 ^ 64) :
    decode s = .ok t ↔
      ∃ digits c, s = digits ++ 0x3a :: (t ++ [c]) ∧ (∀ c ∈ digits, isdigit c) ∧
        numberOf digits % 2 ^ 64 = t.length ∧ (0x2c ∈ t ∨ c = 0x2c) := by
  constructor
  · intro h
    obtain ⟨digits, rest, rfl, hdigits, hcomma⟩ := splits_of_decode h
    have hpos : 0 < rest.length := List.length_pos_of_mem hcomma
    rw [decode_append hdigits hcomma hlength] at h
    split at h
    · rename_i hnumber
      -- the last byte is dropped unread, whatever it is
      have hne : rest ≠ [] := List.ne_nil_of_length_pos hpos
      have ht : rest.take (rest.length - 1) = t := Except.ok.inj h
      rw [← List.dropLast_eq_take] at ht
      have hrest : t ++ [rest.getLast hne] = rest := by
        rw [← ht]
        exact List.dropLast_append_getLast hne
      refine ⟨digits, rest.getLast hne, by rw [hrest], hdigits, ?_, ?_⟩
      · rw [hnumber, ← ht, List.length_dropLast]
      · rw [← hrest] at hcomma
        simpa [eq_comm] using hcomma
    · cases h
  · intro h
    obtain ⟨digits, c, rfl, hdigits, hnumber, hcomma⟩ := h
    have hmem : 0x2c ∈ t ++ [c] := by simpa [eq_comm] using hcomma
    have hlen : (t ++ [c]).length - 1 = t.length := by simp
    rw [decode_append hdigits hmem hlength, hlen, if_pos hnumber, List.take_left]

theorem encode_eq (s : Str) : encode s = decimal s.length ++ 0x3a :: (s ++ [0x2c]) := by
  have hcolon : str ":" = [0x3a] := by decide
  have hcomma : str "," = [0x2c] := by decide
  simp [encode, hcolon, hcomma]

/-- What was encoded is decoded. -/
theorem decode_encode {s : Str} (hlength : (encode s).length < 2 ^ 64) :
    decode (encode s) = .ok s := by
  have hsize : s.length < 2 ^ 64 := by
    rw [encode_eq] at hlength
    simp only [List.length_append, List.length_cons] at hlength
    omega
  apply (decode_eq_ok_iff hlength).mpr
  refine ⟨_, _, encode_eq s, fun c hc => isdigit_of_mem_decimal hc, ?_, .inr rfl⟩
  rw [numberOf_decimal, Nat.mod_eq_of_lt hsize]

/-- A text that goes along with an encoded one is decoded at the length of that one only. -/
theorem length_of_decode {s p t r₁ r₂ : Str} (hp : p.length < 2 ^ 64)
    (hs : (encode s).length < 2 ^ 64) (hsame : p ++ r₁ = encode s ++ r₂)
    (h : decode p = .ok t) : p.length = (encode s).length := by
  obtain ⟨digits, c, rfl, hdigits, hnumber, _⟩ := (decode_eq_ok_iff hp).mp h
  rw [encode_eq] at hsame hs ⊢
  -- the first colon is at one place in both
  rw [List.append_assoc, List.append_assoc] at hsame
  have hstop : ∀ l : Str, Span.Stops isdigit ((0x3a :: l : Str)) := by
    intro l
    rw [Span.stops_cons]
    decide
  have hsplit := (Span.append_inj hdigits (fun c hc => isdigit_of_mem_decimal hc) (hstop _)
    (hstop _) hsame).1
  -- so both say the same length
  rw [hsplit, numberOf_decimal] at hnumber
  simp only [List.length_append, List.length_cons] at hs ⊢
  rw [Nat.mod_eq_of_lt (by omega)] at hnumber
  rw [hsplit, hnumber]

/-- An encoded text is decoded when it comes whole and alone: a part of it, or the text with
    something behind it, is refused. -/
theorem netstring_framing (s : Str) (hs : (encode s).length < 2 ^ 64) :
    decode (encode s) = .ok s ∧
      (∀ p q, encode s = p ++ q → q ≠ [] → ∃ e, decode p = .error e) ∧
      ∀ rest, rest ≠ [] → (encode s ++ rest).length < 2 ^ 64 →
        ∃ e, decode (encode s ++ rest) = .error e := by
  refine ⟨decode_encode hs, ?_, ?_⟩
  · intro p q hcut hq
    have hlength := congrArg List.length hcut
    rw [List.length_append] at hlength
    have hpos := List.length_pos_iff.mpr hq
    cases hdecode : decode p with
    | error e => exact ⟨e, rfl⟩
    | ok t =>
      have hsame : p ++ q = encode s ++ [] := by rw [hcut, List.append_nil]
      have := length_of_decode (by omega) hs hsame hdecode
      omega
  · intro rest hrest hlength
    have hpos := List.length_pos_iff.mpr hrest
    cases hdecode : decode (encode s ++ rest) with
    | error e => exact ⟨e, rfl⟩
    | ok t =>
      have hsame : encode s ++ rest ++ [] = encode s ++ rest := List.append_nil _
      have := length_of_decode hlength hs hsame hdecode
      rw [List.length_append] at this
      omega

theorem netstring_framing_getinfo :
    decode (encode (str "getinfo")) = .ok (str "getinfo") ∧
      (∀ p q, encode (str "getinfo") = p ++ q → q ≠ [] → ∃ e, decode p = .error e) ∧
      ∀ rest, rest ≠ [] → (encode (str "getinfo") ++ rest).length < 2 ^ 64 →
        ∃ e, decode (encode (str "getinfo") ++ rest) = .error e :=
  netstring_framing _ (by decide)

end Netstring

end CrossChain
