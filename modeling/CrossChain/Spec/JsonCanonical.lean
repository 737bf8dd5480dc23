import CrossChain.Spec.JsonRoundTrip

/-!
# What the reader returns

A value the reader returns has its members in the order of their names, each
name once, integers in its own range and no NUL in a string: it is `Intact`.  So
an intact value is what the reader makes of its own writing, and reading,
writing and reading again gives what the first reading gave.
-/

namespace CrossChain

namespace JsonReader

/-- A value as the reader leaves it. -/
inductive Intact : Json → Prop
  | null : Intact .null
  | bool (b : Bool) : Intact (.bool b)
  | int {i : Int} (h : IntReads i) : Intact (.int i)
  | real (q : ℚ) : Intact (.real q)
  | string {s : Str} (h : cStr s = s) : Intact (.string s)
  | array {elems : List Json} (h : ∀ v ∈ elems, Intact v) : Intact (.array elems)
  | object {members : Object} (hascending : OrdMap.Ascending nameRank members)
      (hnames : ∀ m ∈ members, nameOf (cStr (str m.1)) = m.1) (h : ∀ m ∈ members, Intact m.2) :
      Intact (.object members)

/-- Every double in the value has the property. -/
inductive EachReal (P : ℚ → Prop) : Json → Prop
  | null : EachReal P .null
  | bool (b : Bool) : EachReal P (.bool b)
  | int (i : Int) : EachReal P (.int i)
  | real {q : ℚ} (h : P q) : EachReal P (.real q)
  | string (s : Str) : EachReal P (.string s)
  | array {elems : List Json} (h : ∀ v ∈ elems, EachReal P v) : EachReal P (.array elems)
  | object {members : Object} (h : ∀ m ∈ members, EachReal P m.2) : EachReal P (.object members)

/-- The double is written as a number that is read as that double. -/
def WritesBack (d : DoubleText) (q : ℚ) : Prop :=
  NumberText (d.valueToString q) ∧ decodeNumber d.scan (d.valueToString q) = some (.real q)

theorem cStr_cStr (s : Str) : cStr (cStr s) = cStr s := List.takeWhile_idem

/-! ## Numbers -/

/-- What the loop over the digits returns has stayed below ten times the threshold. -/
theorem decodeDigits_lt {threshold value n : Nat} {s : Str} (hvalue : value < 10 * threshold)
    (h : decodeDigits threshold value s = .value n) : n < 10 * threshold := by
  induction s generalizing value with
  | nil =>
    cases h
    exact hvalue
  | cons c s ih =>
    unfold decodeDigits at h
    split at h
    · cases h
    · rename_i hdigit
      split at h
      · cases h
      · rename_i hbelow
        apply ih _ h
        have hc : c.toNat - 0x30 < 10 := by
          have key : ∀ c : UInt8, isdigit c = true → c.toNat - 0x30 < 10 := by
            apply Bytes.forall_byte
            decide +kernel
          exact key c (not_not.mp hdigit)
        omega

theorem intact_decodeNumber {scan : Str → Option ℚ} {text : Str} {v : Json}
    (h : decodeNumber scan text = some v) : Intact v := by
  have hreal {x : Option ℚ} (h : x.map Json.real = some v) : Intact v := by
    obtain ⟨q, _, rfl⟩ := Option.map_eq_some_iff.mp h
    exact .real q
  unfold decodeNumber at h
  dsimp only at h
  split at h
  · exact hreal h
  · split at h
    · rename_i n hn
      cases h
      have hlt := decodeDigits_lt (by split <;> omega) hn
      apply Intact.int
      unfold IntReads
      split at hlt
      · simp_all
        omega
      · simp_all
        omega
    · exact hreal h
    · cases h

/-! ## Values -/

section

variable {scan : Str → Option ℚ}

theorem intact_scalar {token : Token} {v : Json} (h : scalar scan token = some v) : Intact v := by
  unfold scalar at h
  split at h
  · exact intact_decodeNumber h
  · obtain ⟨s, _, rfl⟩ := Option.map_eq_some_iff.mp h
    exact .string (cStr_cStr s)
  · cases h
    exact .bool true
  · cases h
    exact .bool false
  · cases h
    exact .null
  · cases h

/-- What was read so far is intact. -/
def Place.Intact : Place → Prop
  | .value => True
  | .members _ entered => JsonReader.Intact (.object entered)
  | .elems entered => JsonReader.Intact (.array entered)

theorem intact_enter {members : Object} {value : Json} (name : Str)
    (h : Intact (.object members)) (hvalue : Intact value) :
    Intact (.object (enter members name value)) := by
  cases h with
  | object hascending hnames hmembers =>
    -- a name is cut at its first NUL when it is entered, so cutting it again changes nothing
    have hname : nameOf (cStr (str (nameOf (cStr name)))) = nameOf (cStr name) := by
      rw [str_nameOf, cStr_cStr]
    have hall : ∀ m ∈ enter members name value, nameOf (cStr (str m.1)) = m.1 ∧ Intact m.2 :=
      OrdMap.forall_insert (P := fun key => nameOf (cStr (str key)) = key)
        (fun m hm => ⟨hnames m hm, hmembers m hm⟩) hname hvalue
    exact .object (OrdMap.ascending_insert hascending _ _) (fun m hm => (hall m hm).1)
      fun m hm => (hall m hm).2

theorem intact_append {elems : List Json} {value : Json} (h : Intact (.array elems))
    (hvalue : Intact value) : Intact (.array (elems ++ [value])) := by
  cases h with
  | array helems =>
    apply Intact.array
    intro v hv
    obtain hv | hv := List.mem_append.mp hv
    · exact helems v hv
    · rw [List.mem_singleton.mp hv]
      exact hvalue

/-- Every value that is read is intact. -/
theorem Reads.intact {place : Place} {s r : Str} {v : Json} (h : Reads scan place s v r)
    (hplace : place.Intact) : Intact v := by
  induction h with
  | scalar _ hv => exact intact_scalar hv
  | object _ _ _ ih => exact ih (.object OrdMap.ascending_nil (List.forall_mem_nil _) (List.forall_mem_nil _))
  | emptyArray _ _ _ => exact .array (List.forall_mem_nil _)
  | array _ _ _ _ ih => exact ih (.array (List.forall_mem_nil _))
  | membersEnd _ _ => exact hplace
  | lastMember _ _ _ _ ih => exact intact_enter _ hplace (ih trivial)
  | nextMember _ _ _ _ _ _ ih ih' => exact ih' (intact_enter _ hplace (ih trivial))
  | lastElem _ _ _ ih => exact intact_append hplace (ih trivial)
  | nextElem _ _ _ _ ih ih' => exact ih' (intact_append hplace (ih trivial))

/-- An intact value is written so that it is read back, and read back as it is. -/
theorem Intact.writable {d : DoubleText} {v : Json} (h : Intact v)
    (hreal : EachReal (WritesBack d) v) :
    Writable d.scan (jsoncppSpelling d) cStr v ∧ asRead cStr v = v := by
  induction h with
  | null => exact ⟨trivial, rfl⟩
  | bool b => exact ⟨trivial, rfl⟩
  | int h => exact ⟨h, rfl⟩
  | real q =>
    cases hreal with
    | real h => exact ⟨h, rfl⟩
  | string h => exact ⟨trivial, congrArg Json.string ((cStr_cStr _).trans h)⟩
  | @array elems _ ih =>
    cases hreal with
    | array hreals =>
      have hall := fun v hv => ih v hv (hreals v hv)
      refine ⟨writableElems_iff.mpr fun v hv => (hall v hv).1, ?_⟩
      rw [asRead, asReadElems_eq_map, List.map_congr_left fun v hv => (hall v hv).2, List.map_id']
  | @object members hascending hnames _ ih =>
    cases hreal with
    | object hreals =>
      have hall := fun m hm => ih m hm (hreals m hm)
      -- members in strictly ascending order have distinct names, and are entered in that order
      have hnodup : (members.map (·.1)).Nodup :=
        List.pairwise_map.mpr (hascending.imp fun hlt heq => hlt.ne (congrArg nameRank heq))
      have hkept : ∀ m ∈ members, nameOf (cStr (cStr (str m.1))) = m.1 ∧
          Writable d.scan (jsoncppSpelling d) cStr m.2 := by
        intro m hm
        rw [cStr_cStr]
        exact ⟨hnames m hm, (hall m hm).1⟩
      refine ⟨⟨hnodup, writableMembers_iff.mpr hkept⟩, ?_⟩
      have hsame : members.map (fun m => (m.1, asRead cStr m.2)) = members := by
        rw [List.map_congr_left fun m hm => congrArg (Prod.mk m.1) (hall m hm).2, List.map_id']
      rw [asRead, asReadMembers_eq_map, hsame, OrdMap.sort_eq_self hascending]

end

/-! ## Round trips -/

section

variable {d : DoubleText} {v : Json}

/-- A line that is written is read up to its end. -/
theorem reads_line {spelling : JsonSpelling} {view : Str → Str} (hs : Spells spelling view)
    (hv : Writable d.scan spelling view v) (rest : Str) :
    Reads d.scan .value (writeValue spelling v ++ str "\n" ++ rest) (asRead view v)
      (str "\n" ++ rest) := by
  rw [List.append_assoc]
  exact reads_writeValue hs hv _ (Span.stops_cons.mpr rfl)

/-- A value survives being written by jsoncpp's `FastWriter` and read by its `Reader`, up to
    what neither can say: a NUL in a string, and the order of the members. -/
theorem parse_fastWrite (hv : Writable d.scan (jsoncppSpelling d) cStr v) :
    parse d.scan (fastWrite d v) = some (asRead cStr v) := by
  have h := reads_line (spells_jsoncpp d) hv []
  rw [List.append_nil] at h
  exact parse_eq_some_iff.mpr ⟨_, h⟩

/-- So does one written by json_spirit, its strings as the UTF-8 of their bytes. -/
theorem parse_writeString (hv : Writable d.scan (spiritSpelling d) utf8OfLatin1 v) :
    parse d.scan (writeString d v ++ str "\n") = some (asRead utf8OfLatin1 v) := by
  have h := reads_line (spells_spirit d) hv []
  rw [List.append_nil] at h
  exact parse_eq_some_iff.mpr ⟨_, h⟩

/-- Both writers and the reader: what a writer can say comes back. -/
theorem json_round_trip (d : DoubleText) (v : Json) :
    (Writable d.scan (jsoncppSpelling d) cStr v →
      parse d.scan (fastWrite d v) = some (asRead cStr v)) ∧
    (Writable d.scan (spiritSpelling d) utf8OfLatin1 v →
      parse d.scan (writeString d v ++ str "\n") = some (asRead utf8OfLatin1 v)) :=
  ⟨parse_fastWrite, parse_writeString⟩

/-- Whatever text a value was read from, it is intact, and writing it and reading that again
    gives it back. -/
theorem parse_fastWrite_of_parse {document : Str} (h : parse d.scan document = some v)
    (hreal : EachReal (WritesBack d) v) :
    Intact v ∧ parse d.scan (fastWrite d v) = some v := by
  obtain ⟨r, hreads⟩ := parse_eq_some_iff.mp h
  have hintact := hreads.intact trivial
  obtain ⟨hwritable, hsame⟩ := hintact.writable hreal
  refine ⟨hintact, ?_⟩
  rw [parse_fastWrite hwritable, hsame]

end

/-- An object with an array in it, its members not in order. -/
def sampleValue : Json :=
  .object [("b", .int 1), ("a", .array [.string (str "x\"y"), .bool true, .null])]

/-- No double is written or read. -/
def noDoubles : DoubleText := ⟨fun _ => [], fun _ => [], fun _ => none⟩

theorem json_round_trip_sample :
    parse noDoubles.scan (fastWrite noDoubles sampleValue) = some (asRead cStr sampleValue) ∧
      parse noDoubles.scan (writeString noDoubles sampleValue ++ str "\n") =
        some (asRead utf8OfLatin1 sampleValue) := by
  obtain ⟨hjsoncpp, hspirit⟩ := json_round_trip noDoubles sampleValue
  constructor
  · apply hjsoncpp
    simp only [sampleValue, Writable, WritableMembers, WritableElems, IntReads, and_true]
    decide +kernel
  · apply hspirit
    simp only [sampleValue, Writable, WritableMembers, WritableElems, IntReads, and_true]
    decide +kernel

theorem parse_fastWrite_of_parse_sample :
    Intact (.array [.int 1, .null]) ∧
      parse noDoubles.scan (fastWrite noDoubles (.array [.int 1, .null])) =
        some (.array [.int 1, .null]) := by
  have hread : parse noDoubles.scan (fastWrite noDoubles (.array [.int 1, .null])) =
      some (asRead cStr (.array [.int 1, .null])) := by
    apply parse_fastWrite
    simp only [Writable, WritableElems, IntReads, and_true]
    decide
  apply parse_fastWrite_of_parse hread
  apply EachReal.array
  intro v hv
  simp only [asReadElems, asRead, List.mem_cons, List.not_mem_nil, or_false] at hv
  obtain rfl | rfl := hv
  · exact .int 1
  · exact .null

end JsonReader

end CrossChain
