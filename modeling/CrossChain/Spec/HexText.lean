import CrossChain.ForStd.Span
import CrossChain.Native.Hex

/-!
# Hex text and the bytes it denotes

`ParseHex` reads the longest sequence of digit pairs at the front of a string,
white space allowed before each pair, and never a character behind the
terminator (`hexText_exact`).
-/

namespace CrossChain

/-- All white space. -/
def Blank (s : Str) : Prop := ∀ x ∈ s, isspace x = true

/-- A sequence of hex digit pairs, each after any white space, with the bytes it denotes. -/
inductive HexPairs : Str → Bytes → Prop where
  | nil : HexPairs [] []
  | pair {space s : Str} {c d n m b : UInt8} {v : Bytes} :
      Blank space → phexdigit c = some n → phexdigit d = some m →
      b.toNat = 16 * n.toNat + m.toNat → HexPairs s v → HexPairs (space ++ c :: d :: s) (b :: v)

/-- `v` is denoted by the longest prefix of `s` that is such a sequence. -/
def LongestPairs (s : Str) (v : Bytes) : Prop :=
  ∃ p, p <+: s ∧ HexPairs p v ∧ ∀ p' v', p' <+: s → HexPairs p' v' → p' <+: p

/-! ## Digits -/

/-- A hex digit is below 16 and neither white space nor a terminator. -/
theorem hexDigit_spec {c n : UInt8} (h : phexdigit c = some n) :
    n < 16 ∧ isspace c = false ∧ c ≠ 0 := by
  have key : ∀ c : UInt8,
      (phexdigit c).all (fun n => n < 16 ∧ isspace c = false ∧ c ≠ 0) = true := by
    apply Bytes.forall_byte
    decide +kernel
  have hall := key c
  rw [h] at hall
  exact of_decide_eq_true hall

/-- The high and the low nibble put together. -/
theorem toNat_nibbles {n m : UInt8} (hn : n < 16) (hm : m < 16) :
    ((n <<< 4) ||| m).toNat = 16 * n.toNat + m.toNat := by
  have key : ∀ i < (16 : UInt8), ∀ j < (16 : UInt8),
      ((i <<< 4) ||| j).toNat = 16 * i.toNat + j.toNat := by
    apply Bytes.forall_nibble
    intro i
    apply Bytes.forall_nibble
    revert i
    decide +kernel
  exact key n hn m hm

/-! ## The loop over pairs -/

theorem parseHexGo_space {space : Str} (hspace : Blank space) (t : Str) :
    parseHexGo none (space ++ t) = parseHexGo none t := by
  induction space with
  | nil => rfl
  | cons x space ih =>
    rw [List.cons_append, parseHexGo, if_pos (hspace x (by simp))]
    exact ih fun y hy => hspace y (by simp [hy])

theorem parseHexGo_pair {c d n m : UInt8} (hc : phexdigit c = some n) (hd : phexdigit d = some m)
    (t : Str) : parseHexGo none (c :: d :: t) = ((n <<< 4) ||| m) :: parseHexGo none t := by
  obtain ⟨_, hspace, _⟩ := hexDigit_spec hc
  simp only [parseHexGo, hspace, hc, hd, Bool.false_eq_true, ↓reduceIte]

/-! ## What stands at the front of a string -/

/-- What the loop finds at the front of a string. -/
inductive Front : Str → Prop where
  | blank {space : Str} : Blank space → Front space
  | badFirst {space t : Str} {c : UInt8} : Blank space → isspace c = false →
      phexdigit c = none → Front (space ++ c :: t)
  | single {space : Str} {c n : UInt8} : Blank space → phexdigit c = some n → Front (space ++ [c])
  | badSecond {space t : Str} {c d n : UInt8} : Blank space → phexdigit c = some n →
      phexdigit d = none → Front (space ++ c :: d :: t)
  | pair {space t : Str} {c d n m : UInt8} : Blank space → phexdigit c = some n →
      phexdigit d = some m → Front (space ++ c :: d :: t)

theorem front (s : Str) : Front s := by
  have hspace : Blank (s.takeWhile isspace) := fun x hx => List.mem_takeWhile_imp hx
  have hstop := Span.stops_dropWhile (p := isspace) s
  rw [← List.takeWhile_append_dropWhile (p := isspace) (l := s)]
  revert hstop
  rcases s.dropWhile isspace with _ | ⟨c, t⟩ <;> intro hstop
  · rw [List.append_nil]
    exact .blank hspace
  cases hc : phexdigit c with
  | none => exact .badFirst hspace (Span.stops_cons.mp hstop) hc
  | some n =>
    rcases t with _ | ⟨d, t⟩
    · exact .single hspace hc
    cases hd : phexdigit d with
    | none => exact .badSecond hspace hc hd
    | some m => exact .pair hspace hc hd

/-- A pair starts where the white space ends. -/
theorem pair_at_stop {space t space' u : Str} {c d n : UInt8}
    (hspace : Blank space) (ht : Span.Stops isspace t)
    (hspace' : Blank space') (hc : phexdigit c = some n)
    (h : space ++ t = space' ++ c :: d :: u) : space = space' ∧ t = c :: d :: u := by
  have hstop : Span.Stops isspace (c :: d :: u) := Span.stops_cons.mpr (hexDigit_spec hc).2.1
  exact Span.append_inj hspace hspace' ht hstop h

/-- Where the characters behind the white space are no pair, only the empty sequence of
    pairs is a prefix. -/
theorem longestPairs_nil {space t : Str} (hspace : Blank space) (ht : Span.Stops isspace t)
    (hpair : ∀ c d t' n, t = c :: d :: t' → phexdigit c = some n → phexdigit d = none) :
    LongestPairs (space ++ t) [] := by
  refine ⟨[], List.nil_prefix, .nil, ?_⟩
  intro p' v' hp' h'
  cases h' with
  | nil => exact List.nil_prefix
  | @pair space' s' c d n m b v hspace' hc hd hb hrest =>
    obtain ⟨r, heq⟩ := hp'
    obtain ⟨_, htail⟩ := pair_at_stop (d := d) (u := s' ++ r) hspace ht hspace' hc
      (by simpa using heq.symm)
    rw [hpair c d _ n htail hc] at hd
    cases hd

/-- A pair in front of the longest sequence makes the longest sequence. -/
theorem LongestPairs.cons {space t : Str} {c d n m b : UInt8} {v : Bytes} (hspace : Blank space)
    (hc : phexdigit c = some n) (hd : phexdigit d = some m)
    (hb : b.toNat = 16 * n.toNat + m.toNat) (h : LongestPairs t v) :
    LongestPairs (space ++ c :: d :: t) (b :: v) := by
  obtain ⟨p, ⟨r, rfl⟩, hpairs, hlongest⟩ := h
  refine ⟨space ++ c :: d :: p, ⟨r, by simp⟩, .pair hspace hc hd hb hpairs, ?_⟩
  intro p' v' hp' h'
  cases h' with
  | nil => exact List.nil_prefix
  | @pair space' s' c' d' n' m' b' v'' hspace' hc' hd' hb' hrest =>
    obtain ⟨r', heq⟩ := hp'
    have hstop : Span.Stops isspace (c :: d :: (p ++ r)) :=
      Span.stops_cons.mpr (hexDigit_spec hc).2.1
    -- the other sequence starts with the same pair
    obtain ⟨rfl, htail⟩ := pair_at_stop (d := d') (u := s' ++ r') hspace hstop hspace' hc'
      (by simpa using heq.symm)
    simp only [List.cons.injEq] at htail
    obtain ⟨rfl, rfl, htail⟩ := htail
    have hstart := hlongest s' _ ⟨r', htail.symm⟩ hrest
    simpa using hstart

/-! ## The two loops -/

/-- The list reader returns the bytes of the longest sequence of pairs. -/
theorem longestPairs_parseHexGo (s : Str) : LongestPairs s (parseHexGo none s) := by
  induction hlen : s.length using Nat.strong_induction_on generalizing s with
  | _ k ih =>
    cases front s with
    | blank hspace =>
      have hnil := parseHexGo_space hspace []
      have hlongest := longestPairs_nil hspace Span.stops_nil (by simp)
      rw [List.append_nil] at hnil hlongest
      rw [hnil]
      exact hlongest
    | badFirst hspace hc hdigit =>
      rw [parseHexGo_space hspace]
      simp only [parseHexGo, hc, hdigit, Bool.false_eq_true, ↓reduceIte]
      apply longestPairs_nil hspace (Span.stops_cons.mpr hc)
      intro c d t' n heq hn
      cases heq
      rw [hdigit] at hn
      cases hn
    | single hspace hdigit =>
      have hc := (hexDigit_spec hdigit).2.1
      rw [parseHexGo_space hspace]
      simp only [parseHexGo, hc, hdigit, Bool.false_eq_true, ↓reduceIte]
      apply longestPairs_nil hspace (Span.stops_cons.mpr hc)
      intro c d t' n heq
      cases heq
    | badSecond hspace hdigit hdigit' =>
      have hc := (hexDigit_spec hdigit).2.1
      rw [parseHexGo_space hspace]
      simp only [parseHexGo, hc, hdigit, hdigit', Bool.false_eq_true, ↓reduceIte]
      apply longestPairs_nil hspace (Span.stops_cons.mpr hc)
      intro c d t' n heq _
      cases heq
      exact hdigit'
    | @pair space t c d n m hspace hc hd =>
      rw [parseHexGo_space hspace, parseHexGo_pair hc hd]
      have hb := toNat_nibbles (hexDigit_spec hc).1 (hexDigit_spec hd).1
      apply LongestPairs.cons hspace hc hd hb
      apply ih t.length ?_ t rfl
      rw [← hlen, List.length_append, List.length_cons, List.length_cons]
      omega

theorem skipSpaces_append {space : Str} (hspace : Blank space) {c : UInt8}
    (hc : isspace c = false) (t : Bytes) : skipSpaces (space ++ c :: t) = .ok (c :: t) := by
  induction space with
  | nil => simp [skipSpaces, hc]
  | cons x space ih =>
    rw [List.cons_append, skipSpaces, if_pos (hspace x (by simp))]
    exact ih fun y hy => hspace y (by simp [hy])

section

variable {psz t : Bytes} {c d n m : UInt8}

/-- A turn that breaks ends the loop. -/
theorem parseHexAt_of_break (h : parseHexTurn psz = .ok (none, t)) : parseHexAt psz = .ok ([], t) := by
  rw [parseHexAt]
  split
  all_goals
    rename_i hturn
    rw [h] at hturn
    cases hturn
  rfl

/-- A turn that pushes a byte is followed by the next one. -/
theorem parseHexAt_of_push {b : UInt8} (h : parseHexTurn psz = .ok (some b, t)) :
    parseHexAt psz = (parseHexAt t).map fun (vch, psz) => (b :: vch, psz) := by
  rw [parseHexAt]
  split
  all_goals
    rename_i hturn
    rw [h] at hturn
    cases hturn
  rfl

/-- The loop is left at a first character that is no digit. -/
theorem parseHexAt_badFirst (h : skipSpaces psz = .ok (c :: t)) (hc : phexdigit c = none) :
    parseHexAt psz = .ok ([], t) := by
  apply parseHexAt_of_break
  simp [parseHexTurn, h, nextHexDigit, bind, Except.bind, pure, Except.pure, hc]

/-- It is left at a second one. -/
theorem parseHexAt_badSecond (h : skipSpaces psz = .ok (c :: d :: t)) (hc : phexdigit c = some n)
    (hd : phexdigit d = none) : parseHexAt psz = .ok ([], t) := by
  apply parseHexAt_of_break
  simp [parseHexTurn, h, nextHexDigit, bind, Except.bind, pure, Except.pure, hc, hd]

theorem parseHexAt_pair (h : skipSpaces psz = .ok (c :: d :: t)) (hc : phexdigit c = some n)
    (hd : phexdigit d = some m) :
    parseHexAt psz = (parseHexAt t).map fun (vch, psz) => (((n <<< 4) ||| m) :: vch, psz) := by
  apply parseHexAt_of_push
  simp [parseHexTurn, h, nextHexDigit, bind, Except.bind, pure, Except.pure, hc, hd]

end

/-- On a terminated string the pointer stops behind the terminator at the latest, with the
    bytes of the list reader. -/
theorem parseHexAt_terminated (s junk : Str) :
    ∃ read stop, s ++ 0 :: junk = read ++ stop ∧ read.length ≤ s.length + 1 ∧
      parseHexAt (s ++ 0 :: junk) = .ok (parseHexGo none s, stop) := by
  induction hlen : s.length using Nat.strong_induction_on generalizing s with
  | _ k ih =>
    have hzero : isspace 0 = false := rfl
    have hzero' : phexdigit 0 = none := rfl
    cases front s with
    | blank hspace =>
      have hskip := skipSpaces_append hspace hzero junk
      have hnil := parseHexGo_space hspace []
      rw [List.append_nil] at hnil
      rw [hnil]
      exact ⟨s ++ [0], junk, by simp, by simp [hlen], parseHexAt_badFirst hskip hzero'⟩
    | @badFirst space t c hspace hc hdigit =>
      have hskip := skipSpaces_append hspace hc (t ++ 0 :: junk)
      have hrun := parseHexAt_badFirst hskip hdigit
      rw [parseHexGo_space hspace]
      simp only [parseHexGo, hc, hdigit, Bool.false_eq_true, ↓reduceIte]
      refine ⟨space ++ [c], t ++ 0 :: junk, by simp, by simp [← hlen], ?_⟩
      simpa using hrun
    | @single space c n hspace hdigit =>
      have hc := (hexDigit_spec hdigit).2.1
      have hskip := skipSpaces_append hspace hc (0 :: junk)
      have hrun := parseHexAt_badSecond hskip hdigit hzero'
      rw [parseHexGo_space hspace]
      simp only [parseHexGo, hc, hdigit, Bool.false_eq_true, ↓reduceIte]
      refine ⟨space ++ [c, 0], junk, by simp, by simp [← hlen], ?_⟩
      simpa using hrun
    | @badSecond space t c d n hspace hdigit hdigit' =>
      have hc := (hexDigit_spec hdigit).2.1
      have hskip := skipSpaces_append hspace hc (d :: (t ++ 0 :: junk))
      have hrun := parseHexAt_badSecond hskip hdigit hdigit'
      rw [parseHexGo_space hspace]
      simp only [parseHexGo, hc, hdigit, hdigit', Bool.false_eq_true, ↓reduceIte]
      refine ⟨space ++ [c, d], t ++ 0 :: junk, by simp, by simp [← hlen], ?_⟩
      simpa using hrun
    | @pair space t c d n m hspace hc hd =>
      have hskip := skipSpaces_append hspace (hexDigit_spec hc).2.1 (d :: (t ++ 0 :: junk))
      have hrun := parseHexAt_pair hskip hc hd
      have hlt : t.length < k := by
        rw [← hlen, List.length_append, List.length_cons, List.length_cons]
        omega
      obtain ⟨read, stop, hsplit, hread, hrest⟩ := ih t.length hlt t rfl
      rw [hrest, hsplit] at hrun
      rw [parseHexGo_space hspace, parseHexGo_pair hc hd]
      refine ⟨space ++ c :: d :: read, stop, by simp [hsplit], ?_, ?_⟩
      · rw [← hlen]
        simp only [List.length_append, List.length_cons]
        omega
      · simpa [hsplit, Except.map] using hrun

/-- `ParseHex` undoes `HexStr`.  On a terminated string it reads no character behind the
    terminator and returns the bytes of the longest prefix that is a sequence of pairs. -/
theorem hexText_exact :
    (∀ v, parseHex (hexStr v) = v ∧ parseHex (hexStrWith true v) = v) ∧
    ∀ s junk : Str, (∀ c ∈ s, c ≠ 0) →
      ∃ bytes read stop, parseHexAt (s ++ 0 :: junk) = .ok (bytes, stop) ∧
        s ++ 0 :: junk = read ++ stop ∧ read.length ≤ s.length + 1 ∧
        LongestPairs s bytes ∧ parseHex s = bytes := by
  constructor
  · intro v
    exact ⟨parseHex_hexStr v, parseHex_hexStrWith true v⟩
  · intro s junk hs
    obtain ⟨read, stop, hsplit, hread, hrun⟩ := parseHexAt_terminated s junk
    refine ⟨_, read, stop, hrun, hsplit, hread, longestPairs_parseHexGo s, ?_⟩
    rw [parseHex, cStr_eq_self hs]

end CrossChain
