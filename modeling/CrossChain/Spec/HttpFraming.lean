import CrossChain.Native.Http

/-!
# HTTP framing

What `HTTPPost` writes is read back by `ReadHTTPMessage`.  A header is written
as one line, which the reader takes off the stream whole and splits at its
first colon; the empty line ends the headers, and from there `Content-Length`
alone says how much is read.

## Key results

- `readHTTPHeadersGo_lines`: written header lines are read back, one a turn
- `readHTTPHeaders_ends`: the loop ends on every stream
- `http_framing`: status, message and headers of a written request
-/

namespace CrossChain

/-! ## Decimal numbers -/

/-- The digit of a number below ten. -/
def digit (d : Nat) : UInt8 := UInt8.ofNat (0x30 + d)

theorem isdigit_digit {d : Nat} (h : d < 10) : isdigit (digit d) ∧ (digit d).toNat - 0x30 = d := by
  have key : ∀ e : Fin 10, isdigit (digit e) ∧ (digit e).toNat - 0x30 = e := by decide
  exact key ⟨d, h⟩

/-- A digit is none of the characters `strtol` treats otherwise. -/
theorem isdigit_spec {c : UInt8} (h : isdigit c) :
    isspace c = false ∧ c ≠ 0x2d ∧ c ≠ 0x2b ∧ c ≠ 0 := by
  revert c
  apply Bytes.forall_byte
  decide +kernel

theorem decimal_spec (n : Nat) :
    ∃ ds, decimal n = ds.map digit ∧ (∀ d ∈ ds, d < 10) ∧ Numeral.value 10 ds = n := by
  unfold decimal
  split
  · rename_i hzero
    exact ⟨[0], rfl, by simp, by simp [hzero]⟩
  · exact ⟨Numeral.ofNat 10 n, rfl, Numeral.ofNat_lt (by omega) n, Numeral.value_ofNat 10 n⟩

theorem isdigit_of_mem_decimal {n : Nat} {c : UInt8} (hc : c ∈ decimal n) : isdigit c := by
  obtain ⟨ds, heq, hlt, _⟩ := decimal_spec n
  rw [heq, List.mem_map] at hc
  obtain ⟨d, hd, rfl⟩ := hc
  exact (isdigit_digit (hlt d hd)).1

/-- Of a run of digits `strtol` returns the number. -/
theorem strtol10_digits {ds : List Nat} (hlt : ∀ d ∈ ds, d < 10) :
    strtol10 (ds.map digit) = min (Numeral.value 10 ds : Int) (2 ^ 63 - 1) := by
  have hdigit : ∀ c ∈ ds.map digit, isdigit c := by
    intro c hc
    obtain ⟨d, hd, rfl⟩ := List.mem_map.mp hc
    exact (isdigit_digit (hlt d hd)).1
  have hspace : (ds.map digit).dropWhile isspace = ds.map digit := by
    cases ds with
    | nil => rfl
    | cons d ds => simp [(isdigit_spec (hdigit (digit d) (by simp))).1]
  have hsign : (ds.map digit).head? ≠ some 0x2d ∧ (ds.map digit).head? ≠ some 0x2b := by
    cases ds with
    | nil => simp
    | cons d ds =>
      obtain ⟨_, hminus, hplus, _⟩ := isdigit_spec (hdigit (digit d) (by simp))
      simp [hminus, hplus]
  have hneg : ((ds.map digit).head? == some 0x2d) = false := beq_eq_false_iff_ne.mpr hsign.1
  have hrun : (ds.map digit).takeWhile isdigit = ds.map digit :=
    List.takeWhile_eq_self_iff.mpr hdigit
  have hvalues : (ds.map digit).map (fun c => c.toNat - 0x30) = ds := by
    rw [List.map_map, List.map_congr_left (g := id), List.map_id]
    intro d hd
    exact (isdigit_digit (hlt d hd)).2
  simp only [strtol10, hspace, hneg, hsign, or_self, ↓reduceIte, Bool.false_eq_true, hrun, hvalues,
    Numeral.foldl_eq_value]

/-- `atoi` reads what `operator<<` writes. -/
theorem atoi_decimal {n : Nat} (hn : n < 2 ^ 31) : atoi (decimal n) = n := by
  have hnul : cStr (decimal n) = decimal n :=
    cStr_eq_self fun c hc => (isdigit_spec (isdigit_of_mem_decimal hc)).2.2.2
  obtain ⟨ds, heq, hlt, hvalue⟩ := decimal_spec n
  rw [atoi, hnul, heq, strtol10_digits hlt, hvalue, Int.min_eq_left (by omega),
    CBigNum.toInt32_eq_self (by omega) (by omega)]

theorem boostTrim_decimal (n : Nat) : boostTrim (decimal n) = decimal n :=
  Span.trim_eq_self fun _ hc => (isdigit_spec (isdigit_of_mem_decimal hc)).1

/-! ## Lines -/

/-- A line is taken off the stream whole. -/
theorem getline_append {line : Str} (h : ∀ c ∈ line, c ≠ 0x0a) (rest : Str) :
    getline (line ++ 0x0a :: rest) = (line, rest) := by
  have hrun : ∀ c ∈ line, (c != 0x0a) = true := by
    intro c hc
    simpa using h c hc
  have hstop : Span.Stops (· != 0x0a) ((0x0a : UInt8) :: rest) := by simp
  rw [getline, Span.takeWhile_append hrun hstop, Span.dropWhile_append hrun hstop]
  rfl

/-- A line that is not empty makes the stream shorter. -/
theorem length_getline_lt {stream : Str} (h : (getline stream).1 ≠ []) :
    (getline stream).2.length < stream.length := by
  have hsplit := congrArg List.length
    (List.takeWhile_append_dropWhile (p := (· != 0x0a)) (l := stream))
  have hpos : 0 < (stream.takeWhile (· != 0x0a)).length := List.length_pos_iff.mpr h
  rw [List.length_append] at hsplit
  show ((stream.dropWhile (· != 0x0a)).drop 1).length < stream.length
  rw [List.length_drop]
  omega

/-- The line of a header. -/
def headerLine (item : Str × Str) : Str := item.1 ++ str ": " ++ item.2 ++ str "\r\n"

/-- The entry that is made of a header: its name trimmed and in lower case, its value
    trimmed. -/
def headerEntry (item : Str × Str) : Str × Str :=
  (boostToLower (boostTrim item.1), boostTrim item.2)

/-- `nLen` and `mapHeadersRet` after an entry. -/
def recordEntry (st : Int × Headers) (entry : Str × Str) : Int × Headers :=
  (if entry.1 = str "content-length" then atoi entry.2 else st.1, Assoc.set st.2 entry.1 entry.2)

/-- A header whose line can be told apart from its value and from the next line. -/
structure OneLine (item : Str × Str) : Prop where
  name : ∀ c ∈ item.1, c ≠ 0x3a ∧ c ≠ 0x0a
  value : ∀ c ∈ item.2, c ≠ 0x0a

theorem idxOf?_append {name : Str} (h : ∀ c ∈ name, c ≠ 0x3a) (rest : Str) :
    (name ++ 0x3a :: rest).idxOf? 0x3a = some name.length := by
  induction name with
  | nil => simp [List.idxOf?_cons]
  | cons c name ih =>
    have hc : (c == 0x3a) = false := beq_eq_false_iff_ne.mpr (h c (by simp))
    rw [List.cons_append, List.idxOf?_cons, hc, ih fun d hd => h d (by simp [hd])]
    rfl

/-- A written line without its end. -/
theorem headerLine_eq (item : Str × Str) :
    headerLine item = (item.1 ++ 0x3a :: 0x20 :: (item.2 ++ [0x0d])) ++ [0x0a] := by
  have hcolon : str ": " = [0x3a, 0x20] := by decide
  have hend : str "\r\n" = [0x0d, 0x0a] := by decide
  simp [headerLine, hcolon, hend]

theorem readHeader_headerLine {item : Str × Str} (h : OneLine item) (st : Int × Headers) :
    readHeader st (item.1 ++ 0x3a :: 0x20 :: (item.2 ++ [0x0d])) =
      recordEntry st (headerEntry item) := by
  have hblank : ∀ c ∈ ([0x20] : Str), isspace c := by simp [isspace]
  have hcr : ∀ c ∈ ([0x0d] : Str), isspace c := by simp [isspace]
  have hvalue : boostTrim (0x20 :: (item.2 ++ [0x0d])) = boostTrim item.2 :=
    Span.trim_append item.2 hblank hcr
  have hdrop : (item.1 ++ 0x3a :: 0x20 :: (item.2 ++ [0x0d])).drop (item.1.length + 1) =
      0x20 :: (item.2 ++ [0x0d]) := by
    simp [← List.drop_drop]
  unfold readHeader
  rw [idxOf?_append fun c hc => (h.name c hc).1]
  simp only [List.take_left, hdrop, hvalue]
  rfl

/-! ## The loop -/

theorem line_continues {item : Str × Str} :
    ¬(item.1 ++ 0x3a :: 0x20 :: (item.2 ++ [0x0d]) = [] ∨
      item.1 ++ 0x3a :: 0x20 :: (item.2 ++ [0x0d]) = str "\r") := by
  have hend : str "\r" = [0x0d] := by decide
  rw [hend]
  intro h
  cases h with
  | inl hempty => simp at hempty
  | inr hcr =>
    have hlength := congrArg List.length hcr
    simp at hlength
    omega

/-- One turn takes one written line. -/
theorem readHTTPHeadersGo_headerLine {item : Str × Str} (h : OneLine item) (turns : Nat)
    (st : Int × Headers) (rest : Str) :
    readHTTPHeadersGo (turns + 1) st (headerLine item ++ rest) =
      readHTTPHeadersGo turns (recordEntry st (headerEntry item)) rest := by
  have hline : ∀ c ∈ item.1 ++ 0x3a :: 0x20 :: (item.2 ++ [0x0d]), c ≠ 0x0a := by
    intro c hc
    simp only [List.mem_append, List.mem_cons, List.not_mem_nil, or_false] at hc
    obtain hname | rfl | rfl | hvalue | rfl := hc
    · exact (h.name c hname).2
    · decide
    · decide
    · exact h.value c hvalue
    · decide
  rw [headerLine_eq, List.append_assoc, List.singleton_append, readHTTPHeadersGo,
    getline_append hline, if_neg line_continues, readHeader_headerLine h]

/-- The empty line ends the loop. -/
theorem readHTTPHeadersGo_end (turns : Nat) (st : Int × Headers) (rest : Str) :
    readHTTPHeadersGo (turns + 1) st (str "\r\n" ++ rest) = some (st, rest) := by
  have hcr : ∀ c ∈ str "\r", c ≠ 0x0a := Bytes.forall_mem (by decide +kernel)
  have hsplit : str "\r\n" = str "\r" ++ [0x0a] := by decide
  rw [hsplit, List.append_assoc, List.singleton_append, readHTTPHeadersGo, getline_append hcr,
    if_pos (Or.inr rfl)]

/-- Written lines are read back one a turn, and what follows the empty line is left. -/
theorem readHTTPHeadersGo_lines {items : Headers} (h : ∀ item ∈ items, OneLine item)
    (st : Int × Headers) (rest : Str) {turns : Nat} (hturns : items.length < turns) :
    readHTTPHeadersGo turns st (items.flatMap headerLine ++ (str "\r\n" ++ rest)) =
      some ((items.map headerEntry).foldl recordEntry st, rest) := by
  induction items generalizing st turns with
  | nil =>
    obtain ⟨turns, rfl⟩ : ∃ t, turns = t + 1 := ⟨turns - 1, by omega⟩
    rw [List.flatMap_nil, List.nil_append, readHTTPHeadersGo_end]
    rfl
  | cons item items ih =>
    rw [List.length_cons] at hturns
    obtain ⟨turns, rfl⟩ : ∃ t, turns = t + 1 := ⟨turns - 1, by omega⟩
    rw [List.flatMap_cons, List.append_assoc, readHTTPHeadersGo_headerLine (h item (by simp)),
      ih (fun i hi => h i (by simp [hi])) _ (by omega)]
    rfl

theorem readHTTPHeadersGo_ends {turns : Nat} {stream : Str} (h : stream.length < turns)
    (st : Int × Headers) : ∃ r, readHTTPHeadersGo turns st stream = some r := by
  induction turns generalizing stream st with
  | zero => omega
  | succ turns ih =>
    rw [readHTTPHeadersGo]
    by_cases hlast : (getline stream).1 = [] ∨ (getline stream).1 = str "\r"
    · exact ⟨_, if_pos hlast⟩
    · rw [if_neg hlast]
      rw [not_or] at hlast
      have hlt := length_getline_lt hlast.1
      exact ih (by omega) _

/-- More turns change nothing once the loop has ended. -/
theorem readHTTPHeadersGo_mono {turns turns' : Nat} (hle : turns ≤ turns') {st : Int × Headers}
    {stream : Str} {r : (Int × Headers) × Str} (h : readHTTPHeadersGo turns st stream = some r) :
    readHTTPHeadersGo turns' st stream = some r := by
  induction turns generalizing turns' st stream with
  | zero => cases h
  | succ turns ih =>
    obtain ⟨turns', rfl⟩ : ∃ t, turns' = t + 1 := ⟨turns' - 1, by omega⟩
    rw [readHTTPHeadersGo] at h ⊢
    split
    · rename_i hlast
      rwa [if_pos hlast] at h
    · rename_i hlast
      rw [if_neg hlast] at h
      exact ih (by omega) h

/-- `ReadHTTPHeaders` ends on every stream, with one result however many turns it is given. -/
theorem readHTTPHeaders_ends (stream : Str) (mapHeadersRet : Headers) :
    ∃ r, ∀ turns, stream.length < turns →
      readHTTPHeaders turns stream mapHeadersRet = some r := by
  obtain ⟨r, hr⟩ := readHTTPHeadersGo_ends (Nat.lt_succ_self stream.length) (0, mapHeadersRet)
  exact ⟨r, fun turns hturns => readHTTPHeadersGo_mono hturns hr⟩

/-! ## The entries recorded -/

theorem foldl_recordEntry_snd (entries : Headers) (st : Int × Headers) :
    (entries.foldl recordEntry st).2 = Assoc.setAll st.2 entries := by
  induction entries generalizing st with
  | nil => rfl
  | cons entry entries ih =>
    rw [List.foldl_cons, ih]
    rfl

/-- `nLen` is set by a `content-length` header only. -/
theorem foldl_recordEntry_fst {entries : Headers} (h : str "content-length" ∉ entries.map (·.1))
    (st : Int × Headers) : (entries.foldl recordEntry st).1 = st.1 := by
  induction entries generalizing st with
  | nil => rfl
  | cons entry entries ih =>
    rw [List.map_cons, List.mem_cons, not_or] at h
    rw [List.foldl_cons, ih h.2]
    exact if_neg (Ne.symm h.1)

/-- Of a `content-length` that no later header repeats, `nLen` is the number. -/
theorem foldl_recordEntry_length (front : Headers) {rest : Headers} (value : Str)
    (h : str "content-length" ∉ rest.map (·.1)) (st : Int × Headers) :
    ((front ++ (str "content-length", value) :: rest).foldl recordEntry st).1 = atoi value := by
  rw [List.foldl_append, List.foldl_cons, foldl_recordEntry_fst h]
  simp [recordEntry]

/-- The headers that are written with every request. -/
def fixedHeaders (strMsg : Str) : Headers :=
  [(str "User-Agent", str "bitcoin-json-rpc/beta"), (str "Host", str "127.0.0.1"),
    (str "Content-Type", str "application/json"),
    (str "Content-Length", decimal strMsg.length), (str "Connection", str "close"),
    (str "Accept", str "application/json")]

/-- Their names as the reader enters them. -/
def fixedNames : List Str :=
  [str "user-agent", str "host", str "content-type", str "content-length", str "connection",
    str "accept"]

/-- Headers that a request can carry: each is one line, and under its trimmed lower-case
    name there is no other, given or written with every request.  Carriage returns and
    blank names do no harm. -/
structure Sendable (headers : Headers) : Prop where
  oneLine : ∀ item ∈ headers, OneLine item
  distinct : (headers.map fun item => (headerEntry item).1).Nodup
  fresh : ∀ item ∈ headers, (headerEntry item).1 ∉ fixedNames

theorem httpPost_eq (strMsg : Str) (headers : Headers) :
    httpPost strMsg headers = str "POST / HTTP/1.1\r" ++ 0x0a ::
      ((fixedHeaders strMsg ++ headers).flatMap headerLine ++ (str "\r\n" ++ strMsg)) := by
  have hfirst : str "POST / HTTP/1.1\r\n" = str "POST / HTTP/1.1\r" ++ [0x0a] := by decide +kernel
  have hagent : str "User-Agent: bitcoin-json-rpc/" ++ (str "beta" ++ str "\r\n") =
      headerLine (str "User-Agent", str "bitcoin-json-rpc/beta") := by decide +kernel
  have hhost : str "Host: 127.0.0.1\r\n" = headerLine (str "Host", str "127.0.0.1") := by
    decide +kernel
  have htype : str "Content-Type: application/json\r\n" =
      headerLine (str "Content-Type", str "application/json") := by decide +kernel
  have hlength : str "Content-Length: " = str "Content-Length" ++ str ": " := by decide +kernel
  have hconnection : str "Connection: close\r\n" =
      headerLine (str "Connection", str "close") := by decide +kernel
  have haccept : str "Accept: application/json\r\n" =
      headerLine (str "Accept", str "application/json") := by decide +kernel
  have hlines : headers.flatMap (fun item => item.1 ++ str ": " ++ item.2 ++ str "\r\n") =
      headers.flatMap headerLine := rfl
  rw [httpPost, hfirst, hhost, htype, hlength, hconnection, haccept, hlines]
  simp only [List.append_assoc, fixedHeaders, List.cons_append, List.nil_append,
    List.flatMap_cons]
  rw [← hagent]
  simp only [List.append_assoc, headerLine]

theorem oneLine_fixedHeaders (strMsg : Str) : ∀ item ∈ fixedHeaders strMsg, OneLine item := by
  have hdecimal : OneLine (str "Content-Length", decimal strMsg.length) := by
    have hname : ∀ c ∈ str "Content-Length", c ≠ 0x3a ∧ c ≠ 0x0a :=
      Bytes.forall_mem (by decide +kernel)
    refine ⟨hname, ?_⟩
    intro c hc heq
    rw [heq] at hc
    exact absurd (isdigit_of_mem_decimal hc) (by decide)
  simp only [fixedHeaders, List.forall_mem_cons, List.not_mem_nil, false_implies, implies_true,
    and_true]
  refine ⟨?_, ?_, ?_, hdecimal, ?_, ?_⟩
  all_goals exact ⟨Bytes.forall_mem (by decide +kernel), Bytes.forall_mem (by decide +kernel)⟩

theorem fixedHeaders_entries (strMsg : Str) :
    (fixedHeaders strMsg).map headerEntry =
      [(str "user-agent", str "bitcoin-json-rpc/beta"), (str "host", str "127.0.0.1"),
        (str "content-type", str "application/json"),
        (str "content-length", decimal strMsg.length), (str "connection", str "close"),
        (str "accept", str "application/json")] := by
  have hname : boostToLower (boostTrim (str "Content-Length")) = str "content-length" := by
    decide +kernel
  have hdecimal : headerEntry (str "Content-Length", decimal strMsg.length) =
      (str "content-length", decimal strMsg.length) := by
    rw [headerEntry, hname, boostTrim_decimal]
  simp only [fixedHeaders, List.map_cons, List.map_nil, hdecimal, List.cons.injEq, true_and,
    and_true]
  refine ⟨?_, ?_, ?_, ?_, ?_⟩
  all_goals decide +kernel

/-! ## The message -/

theorem streamRead_length (s : Str) : streamRead s.length s = s := by
  simp [streamRead]

/-- What the loop of `ReadHTTPHeaders` has recorded at the end of a request. -/
def sentHeaders (strMsg : Str) (headers : Headers) : Headers :=
  Assoc.setAll (Assoc.setAll [] ((fixedHeaders strMsg).map headerEntry)) (headers.map headerEntry)

variable {strMsg : Str} {headers : Headers}

theorem lookup_sentHeaders (h : Sendable headers) {item : Str × Str} (hitem : item ∈ headers) :
    (sentHeaders strMsg headers).lookup (headerEntry item).1 = some (headerEntry item).2 := by
  apply Assoc.lookup_setAll_of_mem
  · rw [List.map_map]
    exact h.distinct
  · exact List.mem_map_of_mem hitem

theorem not_mem_of_fresh (h : Sendable headers) (name : Str) (hname : name ∈ fixedNames) :
    name ∉ (headers.map headerEntry).map (·.1) := by
  intro hmem
  rw [List.map_map] at hmem
  obtain ⟨item, hitem, heq⟩ := List.mem_map.mp hmem
  have heq : (headerEntry item).1 = name := heq
  exact h.fresh item hitem (heq ▸ hname)

theorem lookup_connection (h : Sendable headers) :
    (sentHeaders strMsg headers).lookup (str "connection") = some (str "close") := by
  have hfresh := not_mem_of_fresh h (str "connection") (by decide +kernel)
  have hnodup : fixedNames.Nodup := by decide +kernel
  rw [sentHeaders, Assoc.lookup_setAll_of_not_mem hfresh, fixedHeaders_entries]
  apply Assoc.lookup_setAll_of_mem
  · exact hnodup
  · simp

theorem length_recorded (h : Sendable headers) (st : Int × Headers) :
    (((fixedHeaders strMsg ++ headers).map headerEntry).foldl recordEntry st).1 =
      atoi (decimal strMsg.length) := by
  have hfresh := not_mem_of_fresh h (str "content-length") (by decide +kernel)
  have hlater : str "content-length" ∉
      ((str "connection", str "close") :: (str "accept", str "application/json") ::
        headers.map headerEntry).map (·.1) := by
    rw [List.map_cons, List.map_cons, List.mem_cons, List.mem_cons, not_or, not_or]
    exact ⟨by decide +kernel, by decide +kernel, hfresh⟩
  rw [List.map_append, fixedHeaders_entries]
  exact foldl_recordEntry_length
    [(str "user-agent", str "bitcoin-json-rpc/beta"), (str "host", str "127.0.0.1"),
      (str "content-type", str "application/json")] _ hlater st

/-- The headers of a written request are read back, and its message is what is left. -/
theorem readHTTPHeaders_httpPost (h : Sendable headers) {turns : Nat}
    (hturns : (getline (httpPost strMsg headers)).2.length < turns) :
    readHTTPHeaders turns (getline (httpPost strMsg headers)).2 [] =
      some ((atoi (decimal strMsg.length), sentHeaders strMsg headers), strMsg) := by
  have hfirst : ∀ c ∈ str "POST / HTTP/1.1\r", c ≠ 0x0a := Bytes.forall_mem (by decide +kernel)
  have hlines : ∀ item ∈ fixedHeaders strMsg ++ headers, OneLine item := by
    intro item hitem
    cases List.mem_append.mp hitem with
    | inl hfixed => exact oneLine_fixedHeaders strMsg item hfixed
    | inr hgiven => exact h.oneLine item hgiven
  -- the loop ends with one result, which enough turns for the lines show
  obtain ⟨r, hr⟩ := readHTTPHeaders_ends (getline (httpPost strMsg headers)).2 []
  have hmany : (fixedHeaders strMsg ++ headers).length <
      (fixedHeaders strMsg ++ headers).length + turns := by omega
  have hread := readHTTPHeadersGo_lines hlines (0, []) strMsg hmany
  have hmore := hr ((fixedHeaders strMsg ++ headers).length + turns) (by omega)
  have hstate : ((fixedHeaders strMsg ++ headers).map headerEntry).foldl recordEntry (0, []) =
      (atoi (decimal strMsg.length), sentHeaders strMsg headers) := by
    refine Prod.ext (length_recorded h (0, [])) ?_
    rw [foldl_recordEntry_snd, List.map_append, Assoc.setAll_append]
    rfl
  rw [httpPost_eq, getline_append hfirst, readHTTPHeaders, hread, hstate] at hmore
  rw [hr turns hturns, ← hmore]

/-- Headers that say no other length and `Connection: close` leave the message whole. -/
theorem readHTTPBody_of_length {m : Headers} (hsize : strMsg.length ≤ maxSize)
    (hconnection : m.lookup (str "connection") = some (str "close")) (nProto : Int) :
    readHTTPBody strMsg.length m strMsg nProto = ⟨.ok, m, strMsg⟩ := by
  have hrange : ¬((strMsg.length : Int) < 0 ∨ (maxSize : Int) < strMsg.length) := by omega
  have hmessage : (if (0 : Int) < strMsg.length then streamRead (strMsg.length : Int).toNat strMsg
      else []) = strMsg := by
    split
    · rw [Int.toNat_natCast, streamRead_length]
    · rename_i hempty
      exact (List.length_eq_zero_iff.mp (by omega)).symm
  unfold readHTTPBody
  rw [if_neg hrange, hmessage]
  simp [Headers.index, hconnection]

/-- Past its first line a written request is read back: the status is `HTTP_OK`, the message
    the one given byte for byte, and each header given is found under its trimmed lower-case
    name with its trimmed value.  `ReadHTTPHeaders` ends on every stream. -/
theorem http_framing (hsize : strMsg.length ≤ maxSize) (hheaders : Sendable headers)
    (nProto : Int) :
    (∃ m : HTTPMessage,
      (∀ turns, (getline (httpPost strMsg headers)).2.length < turns →
        readHTTPMessage turns (getline (httpPost strMsg headers)).2 nProto = some m) ∧
      m.status = .ok ∧ m.strMessageRet = strMsg ∧
      ∀ item ∈ headers, m.mapHeadersRet.lookup (headerEntry item).1 = some (headerEntry item).2) ∧
    ∀ (stream : Str) (mapHeadersRet : Headers), ∃ r, ∀ turns, stream.length < turns →
      readHTTPHeaders turns stream mapHeadersRet = some r := by
  refine ⟨⟨⟨.ok, sentHeaders strMsg headers, strMsg⟩, ?_, rfl, rfl, ?_⟩, readHTTPHeaders_ends⟩
  · intro turns hturns
    have hbound : strMsg.length < 2 ^ 31 := by
      unfold maxSize at hsize
      omega
    rw [readHTTPMessage, readHTTPHeaders_httpPost hheaders hturns, atoi_decimal hbound]
    exact congrArg some (readHTTPBody_of_length hsize (lookup_connection hheaders) nProto)
  · intro item hitem
    exact lookup_sentHeaders hheaders hitem

/-- A message that looks like headers, and a header whose value has a colon. -/
def sampleMessage : Str := str "\r\nContent-Length: 9\r\n\r\n"

def sampleHeaders : Headers := [(str " X-Time ", str "12:30 ")]

theorem http_framing_sample :
    ∃ m : HTTPMessage,
      (∀ turns, (getline (httpPost sampleMessage sampleHeaders)).2.length < turns →
        readHTTPMessage turns (getline (httpPost sampleMessage sampleHeaders)).2 0 = some m) ∧
      m.status = .ok ∧ m.strMessageRet = sampleMessage ∧
      m.mapHeadersRet.lookup (str "x-time") = some (str "12:30") := by
  have hentry : headerEntry (str " X-Time ", str "12:30 ") = (str "x-time", str "12:30") := by
    decide +kernel
  have hsendable : Sendable sampleHeaders := by
    constructor
    · intro item hitem
      rw [List.mem_singleton.mp hitem]
      exact ⟨by decide +kernel, by decide +kernel⟩
    · decide +kernel
    · decide +kernel
  have hsize : sampleMessage.length ≤ maxSize := by decide +kernel
  obtain ⟨⟨m, hread, hstatus, hmessage, hlookup⟩, _⟩ := http_framing hsize hsendable 0
  have htime := hlookup (str " X-Time ", str "12:30 ") (by simp [sampleHeaders])
  rw [hentry] at htime
  exact ⟨m, hread, hstatus, hmessage, htime⟩

end CrossChain
