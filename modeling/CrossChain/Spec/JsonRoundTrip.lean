import CrossChain.Spec.HttpFraming
import CrossChain.Spec.JsonGrammar

/-!
# Written values are read back

What either writer makes of a value, the reader reads as that value, with any
text behind it that does not continue a number (`reads_writeValue`).  What a
spelling of strings and doubles must satisfy for it is `Spells`; jsoncpp's
escapes give each byte back, json_spirit's give the UTF-8 of its code.

Proof shape: escapes first, each one a unit for `readString` and `decodeString`;
then numbers; then values by induction, the members of an object in the order of
their names.
-/

namespace CrossChain

namespace JsonReader

/-! ## Tokens with a text behind them -/

theorem skipSpaces_cons {c : UInt8} (hspace : isSpace c = false) (s : Str) :
    skipSpaces (c :: s) = c :: s := by
  unfold skipSpaces
  rw [List.dropWhile_cons_of_neg (by simp [hspace])]

/-- A token that is finished in front of `rest`. -/
theorem readToken_append {c : UInt8} {body rest : Str} (hspace : isSpace c = false)
    (hfinish : finishToken (tokenType c) (body ++ rest) = (true, rest)) :
    readToken (c :: body ++ rest) = (⟨tokenType c, c :: body⟩, rest) := by
  have hspaces : skipSpaces (c :: body ++ rest) = c :: (body ++ rest) := skipSpaces_cons hspace _
  rw [readToken_of_cons hspaces, hfinish]
  simp only [if_true, List.length_cons, List.length_append]
  rw [show body.length + rest.length + 1 - rest.length = (c :: body).length by
    rw [List.length_cons]; omega]
  rw [← List.cons_append, List.take_left]

theorem skipCommentTokens_of_type {s : Str} (h : (readToken s).1.type ≠ .comment) :
    skipCommentTokens s = readToken s := by
  rw [skipCommentTokens_eq, if_neg h]

/-- A token of one character. -/
theorem readToken_single {c : UInt8} (hspace : isSpace c = false) (rest : Str)
    (hfinish : finishToken (tokenType c) rest = (true, rest)) :
    readToken (c :: rest) = (⟨tokenType c, [c]⟩, rest) := by
  have happend : readToken (c :: [] ++ rest) = (⟨tokenType c, c :: []⟩, rest) :=
    readToken_append hspace hfinish
  exact happend

/-! ## Strings -/

theorem decodeUnicodeEscapeSequence_length {s r : Str} {unicode : Nat}
    (h : decodeUnicodeEscapeSequence s = some (unicode, r)) : r.length < s.length := by
  unfold decodeUnicodeEscapeSequence at h
  split at h
  · simp only [Option.bind_eq_bind, Option.bind_eq_some_iff, Option.pure_def, Option.some.injEq,
      Prod.mk.injEq] at h
    obtain ⟨_, _, _, _, _, _, _, _, _, rfl⟩ := h
    simp only [List.length_cons]
    omega
  · cases h

theorem decodeUnicodeCodePoint_length {s r : Str} {unicode : Nat}
    (h : decodeUnicodeCodePoint s = some (unicode, r)) : r.length < s.length := by
  unfold decodeUnicodeCodePoint at h
  obtain ⟨⟨first, t⟩, hfirst, h⟩ := Option.bind_eq_some_iff.mp h
  have hlt := decodeUnicodeEscapeSequence_length hfirst
  simp only at h
  split at h
  · split at h
    · cases h
    · split at h
      · obtain ⟨⟨second, u⟩, hsecond, h⟩ := Option.bind_eq_some_iff.mp h
        have hlt' := decodeUnicodeEscapeSequence_length hsecond
        cases h
        rw [List.length_drop] at hlt'
        show u.length < s.length
        omega
      · cases h
  · cases h
    exact hlt

/-- `decodeString`, of what lies between the quotes. -/
def decodeBody (body : Str) : Option Str := decodeStringGo body.length body

/-- Any bound from the length on gives the same string. -/
theorem decodeStringGo_eq {turns : Nat} {s : Str} (h : s.length ≤ turns) :
    decodeStringGo turns s = decodeBody s := by
  have hcongr : ∀ {n m : Nat} {s : Str}, s.length ≤ n → s.length ≤ m →
      decodeStringGo n s = decodeStringGo m s := by
    intro n
    induction n with
    | zero =>
      intro m s hn _
      obtain rfl := List.eq_nil_of_length_eq_zero (Nat.le_zero.mp hn)
      cases m <;> rfl
    | succ n ih =>
      intro m s hn hm
      cases s with
      | nil => cases m <;> rfl
      | cons c s =>
        cases m with
        | zero => simp at hm
        | succ m =>
          rw [List.length_cons] at hn hm
          have hrest {t : Str} (hle : t.length ≤ s.length) :
              decodeStringGo n t = decodeStringGo m t := ih (by omega) (by omega)
          unfold decodeStringGo
          cases s with
          | nil => simp only [hrest le_rfl]
          | cons e s =>
            -- what a code point leaves is shorter
            have hunicode : (decodeUnicodeCodePoint s >>= fun p => do
                  let decoded ← decodeStringGo n p.2
                  return codePointToUTF8 p.1 ++ decoded) =
                (decodeUnicodeCodePoint s >>= fun p => do
                  let decoded ← decodeStringGo m p.2
                  return codePointToUTF8 p.1 ++ decoded) := by
              cases hp : decodeUnicodeCodePoint s with
              | none => rfl
              | some p =>
                have hlt := decodeUnicodeCodePoint_length hp
                simp only [Option.bind_eq_bind, Option.bind_some]
                rw [hrest (by rw [List.length_cons]; omega)]
            have hshort := hrest (show s.length ≤ (e :: s).length by simp)
            simp only [hrest le_rfl, hshort, hunicode]
  exact hcongr h le_rfl

/-- `u` is a piece of a string: `readString` goes over it and `decodeString` makes `out`
    of it. -/
structure Piece (u out : Str) : Prop where
  scan : ∀ t, readString (u ++ t) = readString t
  decode : ∀ t, decodeBody (u ++ t) = (decodeBody t).map (out ++ ·)

theorem piece_nil : Piece [] [] := by
  constructor
  · exact fun t => rfl
  · intro t
    simp

theorem Piece.append {u out u' out' : Str} (h : Piece u out) (h' : Piece u' out') :
    Piece (u ++ u') (out ++ out') := by
  constructor
  · intro t
    rw [List.append_assoc, h.scan, h'.scan]
  · intro t
    rw [List.append_assoc, h.decode, h'.decode, Option.map_map]
    congr 1
    funext decoded
    exact (List.append_assoc _ _ _).symm

/-- A character that is neither a quote nor a backslash. -/
theorem piece_plain {c : UInt8} (hquote : c ≠ 0x22) (hslash : c ≠ 0x5c) : Piece [c] [c] := by
  constructor
  · intro t
    show readString (c :: t) = readString t
    rw [readString.eq_def]
    simp [hquote, hslash]
  · intro t
    show decodeBody (c :: t) = _
    unfold decodeBody
    rw [List.length_cons, decodeStringGo.eq_def]
    simp only [if_neg hquote, if_neg hslash]
    cases decodeStringGo t.length t <;> rfl

theorem readString_escape (e : UInt8) (t : Str) : readString (0x5c :: e :: t) = readString t := by
  rw [readString.eq_def]
  simp

/-- A backslash and the letter of an escape. -/
theorem piece_escape {e c : UInt8} (he : e ≠ 0x75) (hescape : escape e = some c) :
    Piece [0x5c, e] [c] := by
  constructor
  · exact readString_escape e
  · intro t
    show decodeBody (0x5c :: e :: t) = _
    unfold decodeBody
    rw [List.length_cons, decodeStringGo, if_neg (by decide), if_pos rfl]
    have hgo : decodeStringGo (e :: t).length t = decodeBody t := decodeStringGo_eq (by simp)
    simp only [if_neg he, hescape, hgo]
    unfold decodeBody
    cases decodeStringGo t.length t <;> rfl

theorem hexValue_toHexChar {n : Nat} (h : n < 16) : hexValue (toHexChar n) = some n := by
  have key : ∀ i : Fin 16, hexValue (toHexChar i) = some i.val := by decide
  exact key ⟨n, h⟩

theorem toHexChar_plain {n : Nat} (h : n < 16) : toHexChar n ≠ 0x22 ∧ toHexChar n ≠ 0x5c := by
  have key : ∀ i : Fin 16, toHexChar i ≠ 0x22 ∧ toHexChar i ≠ 0x5c := by decide
  exact key ⟨n, h⟩

/-- The four digits of a code below 2^16 that is no surrogate. -/
theorem decodeUnicodeCodePoint_digits {c : Nat} (hc : c < 0xd800) (t : Str) :
    decodeUnicodeCodePoint ((nonPrintableToString c).drop 2 ++ t) = some (c, t) := by
  have hdigit (k : Nat) := hexValue_toHexChar (Nat.mod_lt k (show 0 < 0x10 by decide))
  have hsum : ((c / 0x1000 % 0x10 * 16 + c / 0x100 % 0x10) * 16 + c / 0x10 % 0x10) * 16 +
      c % 0x10 = c := by omega
  have hseq : decodeUnicodeEscapeSequence ((nonPrintableToString c).drop 2 ++ t) = some (c, t) := by
    simp [nonPrintableToString, decodeUnicodeEscapeSequence, hdigit, hsum]
  have hsurrogate : ¬ (0xd800 ≤ c ∧ c ≤ 0xdbff) := by omega
  simp [decodeUnicodeCodePoint, hseq, hsurrogate]

/-- A `\u` escape. -/
theorem piece_unicode {c : Nat} (hc : c < 0xd800) :
    Piece (nonPrintableToString c) (codePointToUTF8 c) := by
  constructor
  · intro t
    have hplain (k : Nat) := toHexChar_plain (Nat.mod_lt k (show 0 < 0x10 by decide))
    have hdigit (k : Nat) (t : Str) := (piece_plain (hplain k).1 (hplain k).2).scan t
    simp only [List.singleton_append] at hdigit
    unfold nonPrintableToString
    simp only [List.cons_append, List.nil_append]
    rw [readString_escape, hdigit, hdigit, hdigit, hdigit]
  · intro t
    have hdigits := decodeUnicodeCodePoint_digits hc t
    have hlt := decodeUnicodeCodePoint_length hdigits
    have hsplit : nonPrintableToString c ++ t =
        0x5c :: 0x75 :: ((nonPrintableToString c).drop 2 ++ t) := rfl
    rw [hsplit]
    unfold decodeBody
    rw [List.length_cons, decodeStringGo, if_neg (by decide), if_pos rfl]
    simp only [if_true, hdigits, Option.bind_eq_bind, Option.bind_some]
    rw [decodeStringGo_eq (by rw [List.length_cons]; omega)]
    unfold decodeBody
    cases decodeStringGo t.length t <;> rfl

/-- The escapes with a letter are read as the character they stand for. -/
theorem piece_addEscChar {c : UInt8} {u : Str} (h : addEscChar c = some u) : Piece u [c] := by
  have key : ∀ c : UInt8, ∀ u ∈ addEscChar c, u.length = 2 ∧ u.head? = some 0x5c ∧
      u.getD 1 0 ≠ 0x75 ∧ escape (u.getD 1 0) = some c := by
    apply Bytes.forall_byte
    decide +kernel
  obtain ⟨hlength, hhead, hu, hescape⟩ := key c u h
  obtain ⟨a, b, rfl⟩ := List.length_eq_two.mp hlength
  cases hhead
  exact piece_escape hu hescape

/-- A character without such an escape is neither a quote nor a backslash. -/
theorem plain_of_addEscChar {c : UInt8} (h : addEscChar c = none) : c ≠ 0x22 ∧ c ≠ 0x5c := by
  constructor <;> rintro rfl <;> cases h

theorem codePointToUTF8_ascii {c : UInt8} (h : c.toNat ≤ 0x7f) : codePointToUTF8 c.toNat = [c] := by
  unfold codePointToUTF8
  rw [if_pos h, UInt8.ofNat_toNat]

/-- jsoncpp's writer and reader agree on every character. -/
theorem piece_escCharFast (c : UInt8) : Piece (escCharFast c) [c] := by
  unfold escCharFast
  split
  · rename_i u h
    exact piece_addEscChar h
  · rename_i h
    split
    · rename_i hcontrol
      have hle : c.toNat ≤ 0x1f := by
        simp only [isControlCharacter, Bool.and_eq_true, decide_eq_true_eq] at hcontrol
        exact hcontrol.2
      have hpiece : Piece _ _ := piece_unicode (show c.toNat < 0xd800 by omega)
      rwa [codePointToUTF8_ascii (by omega)] at hpiece
    · exact piece_plain (plain_of_addEscChar h).1 (plain_of_addEscChar h).2

/-- json_spirit's escapes are read as the UTF-8 of the character's code. -/
theorem piece_escCharSpirit (c : UInt8) : Piece (escCharSpirit c) (codePointToUTF8 c.toNat) := by
  have hlt := c.toNat_lt
  unfold escCharSpirit
  split
  · rename_i u h
    have hascii : ∀ c : UInt8, addEscChar c ≠ none → c.toNat ≤ 0x7f := by
      apply Bytes.forall_byte
      decide +kernel
    rw [codePointToUTF8_ascii (hascii c (by simp [h]))]
    exact piece_addEscChar h
  · rename_i h
    split
    · rename_i hprint
      have hle : c.toNat ≤ 0x7e := by
        simp only [iswprint, Bool.and_eq_true, decide_eq_true_eq] at hprint
        exact hprint.2
      rw [codePointToUTF8_ascii (by omega)]
      exact piece_plain (plain_of_addEscChar h).1 (plain_of_addEscChar h).2
    · exact piece_unicode (by omega)

/-- A string of pieces. -/
theorem piece_flatMap {esc out : UInt8 → Str} (h : ∀ c, Piece (esc c) (out c)) (s : Str) :
    Piece (s.flatMap esc) (s.flatMap out) := by
  induction s with
  | nil => exact piece_nil
  | cons c s ih =>
    rw [List.flatMap_cons, List.flatMap_cons]
    exact (h c).append ih

/-- What a spelling of strings must do: the token is read as one, and as `view` of the string. -/
structure Spells (spelling : JsonSpelling) (view : Str → Str) : Prop where
  token : ∀ s rest, readToken (spelling.string s ++ rest) = (⟨.string, spelling.string s⟩, rest)
  decode : ∀ s, decodeString (spelling.string s) = some (view s)

/-- A string in quotes, its characters escaped to pieces. -/
theorem quoted_pieces {esc out : UInt8 → Str} (h : ∀ c, Piece (esc c) (out c)) (s rest : Str) :
    readToken (0x22 :: (s.flatMap esc ++ [0x22]) ++ rest) =
        (⟨.string, 0x22 :: (s.flatMap esc ++ [0x22])⟩, rest) ∧
      decodeString (0x22 :: (s.flatMap esc ++ [0x22])) = some (s.flatMap out) := by
  have hpiece := piece_flatMap h s
  constructor
  · apply readToken_append (by decide)
    show readString (s.flatMap esc ++ [0x22] ++ rest) = (true, rest)
    rw [List.append_assoc, hpiece.scan, List.singleton_append, readString.eq_def]
    rfl
  · unfold decodeString
    simp only [List.drop_one, List.tail_cons, List.dropLast_concat]
    have hdecode := hpiece.decode []
    rw [List.append_nil] at hdecode
    show decodeBody (s.flatMap esc) = _
    rw [hdecode]
    simp [decodeBody, decodeStringGo]

theorem spells_jsoncpp (d : DoubleText) : Spells (jsoncppSpelling d) cStr := by
  have hquoted (s rest : Str) := quoted_pieces piece_escCharFast (cStr s) rest
  constructor
  · intro s rest
    simp only [jsoncppSpelling, valueToQuotedString_eq]
    exact (hquoted s rest).1
  · intro s
    simp only [jsoncppSpelling, valueToQuotedString_eq]
    rw [(hquoted s []).2, List.flatMap_singleton']

/-- The UTF-8 of a string of Latin-1 characters. -/
def utf8OfLatin1 (s : Str) : Str := s.flatMap fun c => codePointToUTF8 c.toNat

theorem spells_spirit (d : DoubleText) : Spells (spiritSpelling d) utf8OfLatin1 := by
  have hquoted (s rest : Str) := quoted_pieces piece_escCharSpirit s rest
  constructor
  · exact fun s rest => (hquoted s rest).1
  · exact fun s => (hquoted s []).2

/-! ## Numbers -/

/-- A text that is a number token whatever follows it, as long as that does not continue it. -/
def NumberText (text : Str) : Prop :=
  (∃ c body, text = c :: body ∧ (isdigit c ∨ c = 0x2d)) ∧ ∀ c ∈ text, isNumberChar c

theorem numberChar_space {c : UInt8} (h : isdigit c ∨ c = 0x2d) :
    isSpace c = false ∧ tokenType c = .number := by
  constructor
  · have key : ∀ c : UInt8, isdigit c ∨ c = 0x2d → isSpace c = false := by
      apply Bytes.forall_byte
      decide +kernel
    exact key c h
  · unfold tokenType
    rw [if_pos h]

theorem readToken_number {text rest : Str} (h : NumberText text)
    (hrest : Span.Stops isNumberChar rest) :
    readToken (text ++ rest) = (⟨.number, text⟩, rest) := by
  obtain ⟨⟨c, body, rfl, hc⟩, hall⟩ := h
  obtain ⟨hspace, htype⟩ := numberChar_space hc
  have hfinish : finishToken (tokenType c) (body ++ rest) = (true, rest) := by
    rw [htype]
    show (true, (body ++ rest).dropWhile isNumberChar) = _
    rw [Span.dropWhile_append (fun a ha => hall a (List.mem_cons_of_mem _ ha)) hrest]
  rw [readToken_append hspace hfinish, htype]

/-- The integers the reader does not read as a double. -/
def IntReads (i : Int) : Prop := -2147483640 < i ∧ i < 4294967290

/-- Below ten times the threshold the digits are read as a number. -/
theorem decodeDigits_digits {threshold : Nat} {ds : List Nat} (hlt : ∀ d ∈ ds, d < 10) {n : Nat}
    (h : ds.foldl (fun n d => n * 10 + d) n < 10 * threshold) :
    decodeDigits threshold n (ds.map digit) = .value (ds.foldl (fun n d => n * 10 + d) n) := by
  induction ds generalizing n with
  | nil => rfl
  | cons d ds ih =>
    obtain ⟨hdigit, hvalue⟩ := isdigit_digit (hlt d List.mem_cons_self)
    rw [List.foldl_cons] at h ⊢
    -- the number only grows
    have hgrows : ∀ (es : List Nat) (m : Nat), m ≤ es.foldl (fun n d => n * 10 + d) m := by
      intro es
      induction es with
      | nil => exact fun m => le_rfl
      | cons e es ih' => exact fun m => le_trans (by omega) (ih' (m * 10 + e))
    have hle := hgrows ds (n * 10 + d)
    rw [List.map_cons, decodeDigits, if_neg (by simp [hdigit]), if_neg (by omega), hvalue]
    exact ih (fun e he => hlt e (List.mem_cons_of_mem _ he)) h

theorem decodeDigits_decimal {threshold n : Nat} (h : n < 10 * threshold) :
    decodeDigits threshold 0 (decimal n) = .value n := by
  obtain ⟨ds, hds, hlt, hvalue⟩ := decimal_spec n
  have hfold : ds.foldl (fun n d => n * 10 + d) 0 = n := (Numeral.foldl_eq_value 10 ds).trans hvalue
  rw [hds, decodeDigits_digits hlt (by rw [hfold]; exact h), hfold]

theorem decimal_ne_nil (n : Nat) : decimal n ≠ [] := by
  unfold decimal
  split
  · decide
  · rename_i hn
    simpa [Numeral.ofNat, Nat.digits_eq_nil_iff_eq_zero] using hn

/-- A digit is a character of a number and none that makes it a double. -/
theorem isdigit_numberChar {c : UInt8} (h : isdigit c) :
    isNumberChar c ∧ ¬ (c = 0x2e ∨ c = 0x65 ∨ c = 0x45 ∨ c = 0x2b) ∧ c ≠ 0x2d := by
  have key : ∀ c : UInt8, isdigit c →
      isNumberChar c ∧ ¬ (c = 0x2e ∨ c = 0x65 ∨ c = 0x45 ∨ c = 0x2b) ∧ c ≠ 0x2d := by
    apply Bytes.forall_byte
    decide +kernel
  exact key c h

theorem numberText_valueToString (i : Int) : NumberText (valueToString i) := by
  have hdigits : ∀ c ∈ decimal i.natAbs, isdigit c := fun c => isdigit_of_mem_decimal
  unfold valueToString
  split
  · refine ⟨⟨0x2d, _, rfl, .inr rfl⟩, ?_⟩
    intro c hc
    obtain rfl | hc := List.mem_cons.mp hc
    · decide
    · exact (isdigit_numberChar (hdigits c hc)).1
  · obtain ⟨c, body, hcons⟩ := List.exists_cons_of_ne_nil (decimal_ne_nil i.natAbs)
    refine ⟨⟨c, body, hcons, .inl (hdigits c (by rw [hcons]; exact List.mem_cons_self))⟩, ?_⟩
    exact fun c hc => (isdigit_numberChar (hdigits c hc)).1

/-- A written integer is read as that integer. -/
theorem decodeNumber_valueToString {scan : Str → Option ℚ} {i : Int} (h : IntReads i) :
    decodeNumber scan (valueToString i) = some (.int i) := by
  have hdigits : ∀ c ∈ decimal i.natAbs, isdigit c := fun c => isdigit_of_mem_decimal
  have hnotDouble : ∀ c ∈ decimal i.natAbs,
      decide (c = 0x2e ∨ c = 0x65 ∨ c = 0x45 ∨ c = 0x2b) = false := by
    intro c hc
    exact decide_eq_false (isdigit_numberChar (hdigits c hc)).2.1
  have hnotMinus : ∀ c ∈ decimal i.natAbs, decide (c = 0x2d) = false := by
    intro c hc
    exact decide_eq_false (isdigit_numberChar (hdigits c hc)).2.2
  obtain ⟨hlow, hhigh⟩ := h
  unfold valueToString
  split
  · rename_i hneg
    have hvalue : decodeDigits 214748364 0 (decimal i.natAbs) = .value i.natAbs :=
      decodeDigits_decimal (by omega)
    have hany : (decimal i.natAbs).any (fun c => c = 0x2e ∨ c = 0x65 ∨ c = 0x45 ∨ c = 0x2b) = false :=
      List.any_eq_false.mpr fun c hc => by simpa using hnotDouble c hc
    have hany' : (decimal i.natAbs).any (· = 0x2d) = false :=
      List.any_eq_false.mpr fun c hc => by simpa using hnotMinus c hc
    simp only [decodeNumber, List.any_cons, List.drop_one, List.tail_cons, hany, hany',
      List.head?_cons]
    simp [hvalue, abs_of_neg hneg]
  · rename_i hneg
    have hvalue : decodeDigits 429496729 0 (decimal i.natAbs) = .value i.natAbs :=
      decodeDigits_decimal (by omega)
    have hany : (decimal i.natAbs).any (fun c => c = 0x2e ∨ c = 0x65 ∨ c = 0x45 ∨ c = 0x2b) = false :=
      List.any_eq_false.mpr fun c hc => by simpa using hnotDouble c hc
    have hany' : ((decimal i.natAbs).drop 1).any (· = 0x2d) = false :=
      List.any_eq_false.mpr fun c hc => by simpa using hnotMinus c (List.mem_of_mem_drop hc)
    have hhead : (decimal i.natAbs).head? ≠ some 0x2d := by
      intro hhead
      have hmem := List.mem_of_head? hhead
      exact absurd rfl (isdigit_numberChar (hdigits _ hmem)).2.2
    simp only [decodeNumber, hany, hany', hhead]
    simp [hvalue]
    omega

/-! ## Values -/

mutual

/-- What the reader makes of a written value: strings as they are read, members in the
    order of their names. -/
def asRead (view : Str → Str) : Json → Json
  | .string s => .string (cStr (view s))
  | .array elems => .array (asReadElems view elems)
  | .object members => .object (OrdMap.sort nameRank (asReadMembers view members))
  | .null => .null
  | .bool b => .bool b
  | .int i => .int i
  | .real q => .real q
termination_by structural value => value

def asReadElems (view : Str → Str) : List Json → List Json
  | [] => []
  | value :: values => asRead view value :: asReadElems view values
termination_by structural values => values

def asReadMembers (view : Str → Str) : Object → Object
  | [] => []
  | (name, value) :: members => (name, asRead view value) :: asReadMembers view members
termination_by structural members => members

end

mutual

/-- A value whose written text says what it is: the names of an object differ and are read
    as they are, integers are in the range of the reader, doubles are written so that
    `scan` gives them back. -/
def Writable (scan : Str → Option ℚ) (spelling : JsonSpelling) (view : Str → Str) : Json → Prop
  | .int i => IntReads i
  | .real q => NumberText (spelling.real q) ∧
      decodeNumber scan (spelling.real q) = some (.real q)
  | .array elems => WritableElems scan spelling view elems
  | .object members => (members.map (·.1)).Nodup ∧ WritableMembers scan spelling view members
  | .null | .bool _ | .string _ => True
termination_by structural value => value

def WritableElems (scan : Str → Option ℚ) (spelling : JsonSpelling) (view : Str → Str) :
    List Json → Prop
  | [] => True
  | value :: values =>
    Writable scan spelling view value ∧ WritableElems scan spelling view values
termination_by structural values => values

def WritableMembers (scan : Str → Option ℚ) (spelling : JsonSpelling) (view : Str → Str) :
    Object → Prop
  | [] => True
  | (name, value) :: members => (nameOf (cStr (view (str name))) = name ∧
      Writable scan spelling view value) ∧ WritableMembers scan spelling view members
termination_by structural members => members

end

theorem asReadElems_eq_map (view : Str → Str) (values : List Json) :
    asReadElems view values = values.map (asRead view) := by
  induction values with
  | nil => rfl
  | cons value values ih => rw [asReadElems, ih, List.map_cons]

theorem asReadMembers_eq_map (view : Str → Str) (members : Object) :
    asReadMembers view members = members.map fun m => (m.1, asRead view m.2) := by
  induction members with
  | nil => rfl
  | cons m members ih => rw [asReadMembers, ih, List.map_cons]

section

variable {scan : Str → Option ℚ} {spelling : JsonSpelling} {view : Str → Str}

theorem writableElems_iff {values : List Json} :
    WritableElems scan spelling view values ↔ ∀ v ∈ values, Writable scan spelling view v := by
  induction values with
  | nil => simp [WritableElems]
  | cons value values ih => rw [WritableElems, ih, List.forall_mem_cons]

theorem writableMembers_iff {members : Object} :
    WritableMembers scan spelling view members ↔
      ∀ m ∈ members, nameOf (cStr (view (str m.1))) = m.1 ∧ Writable scan spelling view m.2 := by
  induction members with
  | nil => simp [WritableMembers]
  | cons m members ih => rw [WritableMembers, ih, List.forall_mem_cons]

/-- Names that are read as they are differ in rank when they differ. -/
theorem nameRank_nodup {members : Object}
    (hnames : ∀ m ∈ members, nameOf (cStr (view (str m.1))) = m.1)
    (hnodup : (members.map (·.1)).Nodup) : (members.map fun m => nameRank m.1).Nodup := by
  have hinj : ∀ m ∈ members, ∀ m' ∈ members, nameRank m.1 = nameRank m'.1 → m.1 = m'.1 := by
    intro m hm m' hm' heq
    have hbytes : str m.1 = str m'.1 :=
      List.map_injective_iff.mpr (fun a b h => UInt8.toNat_inj.mp h) heq
    rw [← hnames m hm, ← hnames m' hm', hbytes]
  have hmap : (members.map fun m => nameRank m.1) = (members.map (·.1)).map nameRank := by
    rw [List.map_map]
    rfl
  rw [hmap]
  refine (List.nodup_map_iff_inj_on hnodup).mpr ?_
  intro name hname name' hname' heq
  obtain ⟨m, hm, rfl⟩ := List.mem_map.mp hname
  obtain ⟨m', hm', rfl⟩ := List.mem_map.mp hname'
  exact hinj m hm m' hm' heq

/-- A part of a value is read back, before any text that does not continue a number. -/
def ReadsBack (scan : Str → Option ℚ) (spelling : JsonSpelling) (view : Str → Str) (v : Json) :
    Prop :=
  ∀ rest, Span.Stops isNumberChar rest →
    Reads scan .value (writeValue spelling v ++ rest) (asRead view v) rest

/-- A token that is a value. -/
theorem reads_token {s rest : Str} {token : Token} {v : Json} (htoken : readToken s = (token, rest))
    (hv : scalar scan token = some v) : Reads scan .value s v rest := by
  have hcomment : token.type ≠ .comment := by
    intro htype
    rw [scalar, htype] at hv
    cases hv
  refine .scalar ?_ hv
  rw [skipCommentTokens_of_type (by rw [htoken]; exact hcomment), htoken]

/-- A token of one character that is no value and no comment. -/
theorem token_single {c : UInt8} {type : TokenType} (rest : Str) (hspace : isSpace c = false)
    (htype : tokenType c = type) (hfinish : finishToken type rest = (true, rest))
    (hcomment : type ≠ .comment) :
    readToken (c :: rest) = (⟨type, [c]⟩, rest) ∧
      skipCommentTokens (c :: rest) = (⟨type, [c]⟩, rest) := by
  subst htype
  have htoken := readToken_single hspace rest hfinish
  refine ⟨htoken, ?_⟩
  rw [skipCommentTokens_of_type (by rw [htoken]; exact hcomment), htoken]

/-- A name and its colon. -/
theorem readName_spelled (hs : Spells spelling view) (name : String) (rest : Str) :
    readName ⟨.string, spelling.string (str name)⟩ (0x3a :: rest) =
      .ok (view (str name), rest) := by
  have hcolon : readToken (0x3a :: rest) = (⟨.memberSeparator, [0x3a]⟩, rest) :=
    (token_single rest (by decide) rfl rfl (by decide)).1
  unfold readName
  rw [if_neg (by simp), hs.decode]
  simp only [hcolon]
  rfl

/-- The comma behind a member, or the end of the object. -/
theorem readComma_single {c : UInt8} {type : TokenType} (rest : Str) (hspace : isSpace c = false)
    (htype : tokenType c = type) (hfinish : finishToken type rest = (true, rest))
    (h : type = .objectEnd ∨ type = .arraySeparator) : readComma (c :: rest) = .ok (type, rest) := by
  have hcomment : type ≠ .comment := by
    intro heq
    rw [heq] at h
    revert h
    decide
  have htoken := (token_single rest hspace htype hfinish hcomment).1
  unfold readComma
  simp only [htoken, if_neg hcomment]
  rw [if_neg (by tauto)]

/-- The members of an object, in the order of their names. -/
theorem reads_members (hs : Spells spelling view) {members acc : Object} {name rest : Str}
    (hne : members ≠ [])
    (hkept : ∀ m ∈ members, nameOf (cStr (view (str m.1))) = m.1)
    (hback : ∀ m ∈ members, ReadsBack scan spelling view m.2)
    (hascending : OrdMap.Ascending nameRank
      (acc ++ members.map fun m => (m.1, asRead view m.2))) :
    Reads scan (.members name acc)
      ((str ",").intercalate (members.map fun m =>
        spelling.string (str m.1) ++ 0x3a :: writeValue spelling m.2) ++ 0x7d :: rest)
      (.object (acc ++ members.map fun m => (m.1, asRead view m.2))) rest := by
  induction members generalizing acc name with
  | nil => exact absurd rfl hne
  | cons m members ih =>
    have htoken (t : Str) : skipCommentTokens (spelling.string (str m.1) ++ t) =
        (⟨.string, spelling.string (str m.1)⟩, t) := by
      rw [skipCommentTokens_of_type (by rw [hs.token]; simp), hs.token]
    -- the new name comes after those entered
    have henter : enter acc (view (str m.1)) (asRead view m.2) = acc ++ [(m.1, asRead view m.2)] := by
      unfold enter
      rw [hkept m List.mem_cons_self]
      apply OrdMap.insert_of_forall_lt
      intro e he
      rw [List.map_cons] at hascending
      exact (List.pairwise_append.mp hascending).2.2 e he (m.1, asRead view m.2) List.mem_cons_self
    cases members with
    | nil =>
      have hvalue := hback m List.mem_cons_self (0x7d :: rest) (by simp [isNumberChar, isdigit])
      have hend : readComma (0x7d :: rest) = .ok (.objectEnd, rest) :=
        readComma_single rest (by decide) rfl rfl (.inl rfl)
      have hreads : Reads scan (.members name acc) _ _ _ :=
        .lastMember (htoken _) (readName_spelled hs m.1 _) hvalue hend
      rw [henter] at hreads
      simpa [List.intercalate] using hreads
    | cons m' members =>
      have hrest : Reads scan (.members (view (str m.1)) (acc ++ [(m.1, asRead view m.2)])) _ _ _ :=
        ih (by simp) (fun e he => hkept e (List.mem_cons_of_mem _ he))
          (fun e he => hback e (List.mem_cons_of_mem _ he)) (by simpa using hascending)
      rw [← henter] at hrest
      have hvalue (t : Str) := hback m List.mem_cons_self (0x2c :: t) (by simp [isNumberChar, isdigit])
      have hcomma (t : Str) : readComma (0x2c :: t) = .ok (.arraySeparator, t) :=
        readComma_single t (by decide) rfl rfl (.inr rfl)
      have hreads : Reads scan (.members name acc) _ _ _ :=
        .nextMember (htoken _) (readName_spelled hs m.1 _) (hvalue _) (hcomma _) (by decide) hrest
      rw [henter] at hreads
      simpa [List.intercalate, show str "," = [0x2c] from rfl] using hreads

/-- The elements of an array. -/
theorem reads_elems {elems acc : List Json} {rest : Str} (hne : elems ≠ [])
    (hback : ∀ v ∈ elems, ReadsBack scan spelling view v) :
    Reads scan (.elems acc)
      ((str ",").intercalate (elems.map (writeValue spelling)) ++ 0x5d :: rest)
      (.array (acc ++ elems.map (asRead view))) rest := by
  induction elems generalizing acc with
  | nil => exact absurd rfl hne
  | cons v elems ih =>
    cases elems with
    | nil =>
      have hvalue := hback v List.mem_cons_self (0x5d :: rest) (by simp [isNumberChar, isdigit])
      have hend : skipCommentTokens (0x5d :: rest) = (⟨.arrayEnd, [0x5d]⟩, rest) :=
        (token_single rest (by decide) rfl rfl (by decide)).2
      have hreads : Reads scan (.elems acc) _ _ _ := .lastElem hvalue hend rfl
      simpa [List.intercalate] using hreads
    | cons v' elems =>
      have hrest : Reads scan (.elems (acc ++ [asRead view v])) _ _ _ :=
        ih (by simp) (fun e he => hback e (List.mem_cons_of_mem _ he))
      have hvalue (t : Str) := hback v List.mem_cons_self (0x2c :: t) (by simp [isNumberChar, isdigit])
      have hcomma (t : Str) : skipCommentTokens (0x2c :: t) = (⟨.arraySeparator, [0x2c]⟩, t) :=
        (token_single t (by decide) rfl rfl (by decide)).2
      have hreads : Reads scan (.elems acc) _ _ _ :=
        .nextElem (hvalue _) (hcomma _) (by decide) hrest
      simpa [List.intercalate, show str "," = [0x2c] from rfl] using hreads

/-- A value does not start with the end of an array. -/
theorem Reads.head_ne {s r : Str} {v : Json} (h : Reads scan .value s v r) :
    (skipSpaces s).head? ≠ some 0x5d := by
  intro hhead
  obtain ⟨cur, hcons⟩ := List.head?_eq_some_iff.mp hhead
  have htype : (skipCommentTokens s).1.type = .arrayEnd := by
    have htoken : (readToken s).1.type = .arrayEnd := by
      rw [readToken_of_cons hcons]
      rfl
    rw [skipCommentTokens_of_type (by rw [htoken]; decide), htoken]
  cases h with
  | scalar htoken hv =>
    rw [htoken] at htype
    rw [JsonReader.scalar, htype] at hv
    cases hv
  | object htoken hbegin _ => rw [htoken, hbegin] at htype; cases htype
  | emptyArray htoken hbegin _ => rw [htoken, hbegin] at htype; cases htype
  | array htoken hbegin _ _ => rw [htoken, hbegin] at htype; cases htype

/-- Elements start with a value. -/
theorem Reads.elems_head_ne {s r : Str} {v : Json} {elems : List Json}
    (h : Reads scan (.elems elems) s v r) : (skipSpaces s).head? ≠ some 0x5d := by
  cases h with
  | lastElem hvalue _ _ => exact hvalue.head_ne
  | nextElem hvalue _ _ _ => exact hvalue.head_ne

/-- A written value is read back as that value. -/
theorem reads_writeValue (hs : Spells spelling view) {v : Json}
    (hv : Writable scan spelling view v) : ReadsBack scan spelling view v := by
  induction v using Json.parts_induction with
  | null =>
    intro rest _
    have htoken : readToken (str "null" ++ rest) = (⟨.null, str "null"⟩, rest) :=
      readToken_append (by decide) rfl
    exact reads_token htoken rfl
  | bool b =>
    intro rest _
    cases b with
    | true =>
      have htoken : readToken (str "true" ++ rest) = (⟨.true, str "true"⟩, rest) :=
        readToken_append (by decide) rfl
      exact reads_token htoken rfl
    | false =>
      have htoken : readToken (str "false" ++ rest) = (⟨.false, str "false"⟩, rest) :=
        readToken_append (by decide) rfl
      exact reads_token htoken rfl
  | int i =>
    intro rest hrest
    have hvalue : scalar scan ⟨.number, valueToString i⟩ = some (.int i) :=
      decodeNumber_valueToString hv
    exact reads_token (readToken_number (numberText_valueToString i) hrest) hvalue
  | real q =>
    intro rest hrest
    have hvalue : scalar scan ⟨.number, spelling.real q⟩ = some (.real q) := hv.2
    exact reads_token (readToken_number hv.1 hrest) hvalue
  | string s =>
    intro rest _
    refine reads_token (hs.token s rest) ?_
    simp [scalar, hs.decode, asRead]
  | array elems ih =>
    intro rest _
    have hback : ∀ v ∈ elems, ReadsBack scan spelling view v := by
      intro v hmem
      exact ih v hmem (writableElems_iff.mp hv v hmem)
    have hbegin (t : Str) : skipCommentTokens (0x5b :: t) = (⟨.arrayBegin, [0x5b]⟩, t) :=
      (token_single t (by decide) rfl rfl (by decide)).2
    rw [writeValue, writeElems_eq_map, asRead, asReadElems_eq_map]
    cases elems with
    | nil =>
      have hend : (readToken (0x5d :: rest)).2 = rest := by
        rw [(token_single rest (by decide) rfl rfl (by decide)).1]
      have hreads : Reads scan .value _ _ _ :=
        .emptyArray (hbegin (0x5d :: rest)) rfl (by rw [skipSpaces_cons (by decide)]; rfl)
      rwa [hend] at hreads
    | cons v elems =>
      have helems : Reads scan (.elems []) _ _ rest := reads_elems (by simp) hback
      have hreads : Reads scan .value _ _ _ := .array (hbegin _) rfl helems.elems_head_ne helems
      simpa using hreads
  | object members ih =>
    intro rest _
    obtain ⟨hnodup, hmembers⟩ := hv
    rw [writableMembers_iff] at hmembers
    have hbegin (t : Str) : skipCommentTokens (0x7b :: t) = (⟨.objectBegin, [0x7b]⟩, t) :=
      (token_single t (by decide) rfl rfl (by decide)).2
    -- the members are written, and entered, in the order of their names
    have hmem {m : String × Json} (hm : m ∈ OrdMap.sort nameRank members) : m ∈ members :=
      (OrdMap.perm_sort members).mem_iff.mp hm
    have hascending := OrdMap.ascending_sort
      (nameRank_nodup (fun m hm => (hmembers m hm).1) hnodup)
    rw [writeValue, writeMembers_eq_map, OrdMap.sort_map, List.map_map, asRead,
      asReadMembers_eq_map, OrdMap.sort_map]
    by_cases hne : OrdMap.sort nameRank members = []
    · rw [hne]
      have hend : skipCommentTokens (0x7d :: rest) = (⟨.objectEnd, [0x7d]⟩, rest) :=
        (token_single rest (by decide) rfl rfl (by decide)).2
      exact .object (hbegin _) rfl (.membersEnd hend rfl)
    · have hreads : Reads scan (.members [] []) _ _ rest :=
        reads_members hs hne (fun m hm => (hmembers m (hmem hm)).1)
          (fun m hm => ih m (hmem hm) (hmembers m (hmem hm)).2)
          ((OrdMap.ascending_map _).mpr hascending)
      have hvalue : Reads scan .value _ _ rest := .object (hbegin _) rfl hreads
      simpa [Function.comp_def] using hvalue

end

end JsonReader

end CrossChain
