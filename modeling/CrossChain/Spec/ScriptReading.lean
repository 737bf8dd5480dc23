import CrossChain.Native.Script

/-!
# Reading scripts back

`GetOp` always moves forward (`getOp_suffix`), so the instructions of a script
are those of its first instruction and of what follows (`instrs_of_getOp`).
What `operator<<` writes is read as one instruction each.
-/

namespace CrossChain

namespace CScript

/-- The operand size is read off the front. -/
theorem getSize_suffix {op : UInt8} {pc rest : Bytes} {n : Nat}
    (h : getSize op pc = (some n, rest)) : ∃ k, rest = pc.drop k := by
  unfold getSize at h
  split at h
  · cases h
    exact ⟨0, rfl⟩
  · split at h
    · split at h
      · cases h
      · cases h
        exact ⟨1, rfl⟩
    · split at h
      · split at h
        · cases h
        · cases h
          exact ⟨2, rfl⟩
      · split at h
        · cases h
        · cases h
          exact ⟨4, rfl⟩

/-- What is left after an instruction is a proper suffix. -/
theorem getOp_suffix {pc rest : Bytes} {i : UInt8 × Bytes} (h : getOp pc = (some i, rest)) :
    rest.length < pc.length := by
  unfold getOp at h
  split at h
  · cases h
  · rename_i op pc'
    split at h
    · split at h
      · cases h
      · rename_i n pc'' hsize
        obtain ⟨k, rfl⟩ := getSize_suffix hsize
        split at h
        · cases h
        · cases h
          simp only [List.length_drop, List.length_cons]
          omega
    · cases h
      simp

/-- The fuel of `instrsGo` does not matter once it covers the script. -/
theorem instrsGo_eq {f g : Nat} {pc : Bytes} (hf : pc.length ≤ f) (hg : pc.length ≤ g) :
    instrsGo f pc = instrsGo g pc := by
  have hnil : ∀ k, instrsGo k [] = ([], []) := by
    intro k
    cases k <;> rfl
  -- both fuels drop by one with each instruction, which takes a byte at least
  induction f generalizing g pc with
  | zero =>
    obtain rfl := List.eq_nil_of_length_eq_zero (Nat.le_zero.mp hf)
    rw [hnil, hnil]
  | succ f ih =>
    cases g with
    | zero =>
      obtain rfl := List.eq_nil_of_length_eq_zero (Nat.le_zero.mp hg)
      rw [hnil, hnil]
    | succ g =>
      rw [instrsGo, instrsGo]
      split
      · rfl
      · rename_i i rest hop
        have hlt := getOp_suffix hop
        rw [ih (show rest.length ≤ f by omega) (show rest.length ≤ g by omega)]

@[simp] theorem instrs_nil : instrs [] = ([], []) := rfl

/-- The instructions of a script are its first one and those of the rest. -/
theorem instrs_of_getOp {s rest : Bytes} {i : UInt8 × Bytes} (h : getOp s = (some i, rest)) :
    instrs s = (i :: (instrs rest).1, (instrs rest).2) := by
  have hlt := getOp_suffix h
  rw [instrs, instrs]
  obtain ⟨n, hn⟩ : ∃ n, s.length = n + 1 := ⟨s.length - 1, by omega⟩
  rw [hn, instrsGo, h]
  simp only
  rw [instrsGo_eq (show rest.length ≤ n by omega) (Nat.le_refl _)]

/-! ## What was written -/

theorem getSize_direct {op : UInt8} (h : op < opPushData1) (pc : Bytes) :
    getSize op pc = (some op.toNat, pc) := by
  unfold getSize
  rw [if_pos h]

theorem getSize_pushData1 (n : UInt8) (pc : Bytes) :
    getSize opPushData1 (n :: pc) = (some n.toNat, pc) := rfl

/-- Two bytes of length, if they are there. -/
theorem getSize_pushData2_eq (pc : Bytes) : getSize opPushData2 pc =
    if pc.length < 2 then (none, pc) else (some (Bytes.ofLE (pc.take 2)), pc.drop 2) := by
  unfold getSize
  rw [if_neg (by decide), if_neg (by decide), if_pos rfl]

/-- Four bytes of length, if they are there. -/
theorem getSize_pushData4_eq (pc : Bytes) : getSize opPushData4 pc =
    if pc.length < 4 then (none, pc) else (some (Bytes.ofLE (pc.take 4)), pc.drop 4) := by
  unfold getSize
  rw [if_neg (by decide), if_neg (by decide), if_neg (by decide)]

theorem getSize_pushData2 {head : Bytes} (h : head.length = 2) (pc : Bytes) :
    getSize opPushData2 (head ++ pc) = (some (Bytes.ofLE head), pc) := by
  rw [getSize_pushData2_eq, if_neg (by simp [h]; omega), List.take_left' h, List.drop_left' h]

theorem getSize_pushData4 {head : Bytes} (h : head.length = 4) (pc : Bytes) :
    getSize opPushData4 (head ++ pc) = (some (Bytes.ofLE head), pc) := by
  rw [getSize_pushData4_eq, if_neg (by simp [h]), List.take_left' h, List.drop_left' h]

/-! ## The bytes of an instruction -/

/-- How many bytes of length follow a push opcode. -/
def lengthBytes (op : UInt8) : Nat :=
  if op = opPushData1 then 1 else if op = opPushData2 then 2 else if op = opPushData4 then 4 else 0

/-- The bytes an instruction is read from. -/
def instrBytes (i : UInt8 × Bytes) : Bytes :=
  i.1 :: (Bytes.toLE (lengthBytes i.1) i.2.length ++ i.2)

/-- The operand fits the opcode. -/
def WellFormed (i : UInt8 × Bytes) : Prop :=
  if i.1 < opPushData1 then i.2.length = i.1.toNat
  else if i.1 ≤ opPushData4 then i.2.length < 256 ^ lengthBytes i.1
  else i.2 = []

theorem lengthBytes_of_lt {op : UInt8} (h : op < opPushData1) : lengthBytes op = 0 := by
  unfold lengthBytes
  split
  · rename_i heq
    rw [heq] at h
    exact absurd h (by decide)
  · split
    · rename_i heq
      rw [heq] at h
      exact absurd h (by decide)
    · split
      · rename_i heq
        rw [heq] at h
        exact absurd h (by decide)
      · rfl

/-- No length follows an opcode above the pushes. -/
theorem lengthBytes_of_not_le {op : UInt8} (h : ¬ op ≤ opPushData4) : lengthBytes op = 0 := by
  have hne (q : UInt8) (hq : q ≤ opPushData4) : op ≠ q := by
    intro heq
    exact h (heq ▸ hq)
  simp [lengthBytes, hne opPushData1 (by decide), hne opPushData2 (by decide),
    hne opPushData4 (by decide)]

theorem wellFormed_of_not_le {op : UInt8} (h : ¬ op ≤ opPushData4) (b : Bytes) :
    WellFormed (op, b) ↔ b = [] := by
  have hlt : ¬ op < opPushData1 := by
    intro hlt
    have h76 : op.toNat < 76 := UInt8.lt_iff_toNat_lt.mp hlt
    have h78 : ¬ op.toNat ≤ 78 := fun h78 => h (UInt8.le_iff_toNat_le.mpr h78)
    omega
  rw [WellFormed, if_neg hlt, if_neg h]

/-- A push opcode from `OP_PUSHDATA1` on. -/
theorem pushData_cases {op : UInt8} (hle : op ≤ opPushData4) (h : ¬ op < opPushData1) :
    op = opPushData1 ∨ op = opPushData2 ∨ op = opPushData4 := by
  have hlo : 76 ≤ op.toNat := UInt8.le_iff_toNat_le.mp (UInt8.not_lt.mp h)
  have hhi : op.toNat ≤ 78 := UInt8.le_iff_toNat_le.mp hle
  have hcases : op.toNat = 76 ∨ op.toNat = 77 ∨ op.toNat = 78 := by omega
  rcases hcases with h76 | h77 | h78
  · left; exact UInt8.toNat_inj.mp h76
  · right; left; exact UInt8.toNat_inj.mp h77
  · right; right; exact UInt8.toNat_inj.mp h78

/-- The operand size is the one written. -/
theorem getSize_of_wellFormed {op : UInt8} {b : Bytes} (hle : op ≤ opPushData4)
    (h : WellFormed (op, b)) (rest : Bytes) :
    getSize op (Bytes.toLE (lengthBytes op) b.length ++ rest) = (some b.length, rest) := by
  by_cases hlt : op < opPushData1
  · rw [WellFormed, if_pos hlt] at h
    rw [lengthBytes_of_lt hlt, getSize_direct hlt, h]
    rfl
  · rw [WellFormed, if_neg hlt, if_pos hle] at h
    rcases pushData_cases hle hlt with rfl | rfl | rfl
    · have hval : (UInt8.ofNat b.length).toNat = b.length := by
        rw [UInt8.toNat_ofNat']
        exact Nat.mod_eq_of_lt h
      show getSize opPushData1 (UInt8.ofNat b.length :: rest) = _
      rw [getSize_pushData1, hval]
    · have hlen : b.length < 256 ^ 2 := h
      show getSize opPushData2 (Bytes.toLE 2 b.length ++ rest) = _
      rw [getSize_pushData2 (Bytes.length_toLE 2 _), Bytes.ofLE_toLE_of_lt hlen]
    · have hlen : b.length < 256 ^ 4 := h
      show getSize opPushData4 (Bytes.toLE 4 b.length ++ rest) = _
      rw [getSize_pushData4 (Bytes.length_toLE 4 _), Bytes.ofLE_toLE_of_lt hlen]

/-- The size read stands at the front. -/
theorem getSize_bytes {op : UInt8} {pc rest : Bytes} {n : Nat} (hle : op ≤ opPushData4)
    (h : getSize op pc = (some n, rest)) :
    pc = Bytes.toLE (lengthBytes op) n ++ rest ∧
      (if op < opPushData1 then n = op.toNat else n < 256 ^ lengthBytes op) := by
  by_cases hlt : op < opPushData1
  · rw [getSize_direct hlt] at h
    cases h
    rw [lengthBytes_of_lt hlt, if_pos hlt]
    exact ⟨rfl, rfl⟩
  · rw [if_neg hlt]
    -- the bytes of the size are the size written back
    have htake {k : Nat} (hk : ¬ pc.length < k) : Bytes.toLE k (Bytes.ofLE (pc.take k)) = pc.take k := by
      have hlen : (pc.take k).length = k := by
        rw [List.length_take]
        omega
      have hback := Bytes.toLE_ofLE (pc.take k)
      rwa [hlen] at hback
    have hltpow {k : Nat} (hk : ¬ pc.length < k) : Bytes.ofLE (pc.take k) < 256 ^ k := by
      have hlen : (pc.take k).length = k := by
        rw [List.length_take]
        omega
      have hval := Bytes.ofLE_lt (pc.take k)
      rwa [hlen] at hval
    rcases pushData_cases hle hlt with rfl | rfl | rfl
    · cases pc with
      | nil => cases h
      | cons c cs =>
        rw [getSize_pushData1] at h
        cases h
        refine ⟨?_, c.toNat_lt⟩
        show c :: rest = UInt8.ofNat c.toNat :: rest
        rw [UInt8.ofNat_toNat]
    · rw [getSize_pushData2_eq] at h
      split at h
      · cases h
      · rename_i hshort
        cases h
        refine ⟨?_, hltpow hshort⟩
        show pc = Bytes.toLE 2 (Bytes.ofLE (pc.take 2)) ++ pc.drop 2
        rw [htake hshort, List.take_append_drop]
    · rw [getSize_pushData4_eq] at h
      split at h
      · cases h
      · rename_i hshort
        cases h
        refine ⟨?_, hltpow hshort⟩
        show pc = Bytes.toLE 4 (Bytes.ofLE (pc.take 4)) ++ pc.drop 4
        rw [htake hshort, List.take_append_drop]

/-- The bytes of a well-formed instruction are read as that instruction, whatever follows. -/
theorem getOp_instrBytes {i : UInt8 × Bytes} {rest : Bytes} (hi : WellFormed i)
    (h : (instrBytes i ++ rest).length < 2 ^ 32) :
    getOp (instrBytes i ++ rest) = (some i, rest) := by
  obtain ⟨op, b⟩ := i
  rw [instrBytes, List.cons_append, List.append_assoc, getOp]
  by_cases hle : op ≤ opPushData4
  · simp only [instrBytes, List.length_append, List.length_cons] at h
    rw [if_pos hle, getSize_of_wellFormed hle hi]
    simp only
    -- the operand is there, also after the cast to `unsigned int`
    have hfits : ¬ (b ++ rest).length % 2 ^ 32 < b.length := by
      rw [List.length_append, Nat.mod_eq_of_lt (by omega)]
      omega
    rw [if_neg hfits, List.take_left, List.drop_left]
  · obtain rfl : b = [] := (wellFormed_of_not_le hle b).mp hi
    rw [if_neg hle, lengthBytes_of_not_le hle]
    rfl

/-- What `GetOp` reads is well formed and stands at the front. -/
theorem getOp_bytes {s rest : Bytes} {i : UInt8 × Bytes} (h : getOp s = (some i, rest)) :
    WellFormed i ∧ s = instrBytes i ++ rest := by
  cases s with
  | nil => cases h
  | cons op pc =>
    rw [getOp] at h
    by_cases hle : op ≤ opPushData4
    · rw [if_pos hle] at h
      cases hsize : getSize op pc with
      | mk size pc' =>
        rw [hsize] at h
        cases size with
        | none => cases h
        | some n =>
          simp only at h
          split at h
          · cases h
          · rename_i hfits
            cases h
            obtain ⟨hpc, hn⟩ := getSize_bytes hle hsize
            have hlen : (pc'.take n).length = n := by
              have hmod := Nat.mod_le pc'.length (2 ^ 32)
              rw [List.length_take]
              omega
            constructor
            · simp only [WellFormed, hlen, if_pos hle]
              split
              · rename_i hlt
                rwa [if_pos hlt] at hn
              · rename_i hlt
                rwa [if_neg hlt] at hn
            · simp only [instrBytes, hlen]
              rw [List.cons_append, List.append_assoc, List.take_append_drop, ← hpc]
    · rw [if_neg hle] at h
      cases h
      refine ⟨(wellFormed_of_not_le hle []).mpr rfl, ?_⟩
      rw [instrBytes, lengthBytes_of_not_le hle]
      rfl

/-- An opcode above the pushes. -/
theorem getOp_opcode {op : UInt8} (h : opPushData4 < op) (rest : Bytes) :
    getOp (op :: rest) = (some (op, []), rest) := by
  have hle : ¬ op ≤ opPushData4 := UInt8.not_le.mpr h
  rw [getOp, if_neg hle]

/-- A short push: the opcode is the number of bytes. -/
theorem getOp_short {b rest : Bytes} (hb : b.length < 76) (h : (b ++ rest).length < 2 ^ 32) :
    getOp (UInt8.ofNat b.length :: b ++ rest) = (some (UInt8.ofNat b.length, b), rest) := by
  have hn : (UInt8.ofNat b.length).toNat = b.length := by
    rw [UInt8.toNat_ofNat', Nat.mod_eq_of_lt (by omega)]
  have hlt : UInt8.ofNat b.length < opPushData1 := by
    rw [UInt8.lt_iff_toNat_lt, hn]
    exact hb
  have hle : UInt8.ofNat b.length ≤ opPushData4 := by
    rw [UInt8.le_iff_toNat_le, hn]
    change b.length ≤ 78
    omega
  rw [List.cons_append, getOp, if_pos hle, getSize_direct hlt]
  simp only [hn]
  rw [Nat.mod_eq_of_lt h, if_neg (by rw [List.length_append]; omega), List.take_left,
    List.drop_left]

/-- A `uint160` or `uint256` is a short push. -/
theorem getOp_pushUint {n : Nat} (x : BaseUint n) (hn : n < 76) {rest : Bytes}
    (h : n + rest.length < 2 ^ 32) :
    getOp (pushUint x ++ rest) = (some (UInt8.ofNat n, x.bytes), rest) := by
  have hshort : getOp (UInt8.ofNat x.bytes.length :: x.bytes ++ rest) =
      (some (UInt8.ofNat x.bytes.length, x.bytes), rest) :=
    getOp_short (by rw [x.length_bytes]; exact hn)
      (by rw [List.length_append, x.length_bytes]; exact h)
  rw [x.length_bytes] at hshort
  exact hshort

/-- A vector is written as one push instruction. -/
theorem pushVec_eq_instrBytes {b : Bytes} (h : b.length < 2 ^ 32) :
    ∃ op ≤ opPushData4, pushVec b = instrBytes (op, b) ∧ WellFormed (op, b) := by
  by_cases h1 : b.length < 76
  · -- the length is the opcode
    have hn : (UInt8.ofNat b.length).toNat = b.length := by
      rw [UInt8.toNat_ofNat', Nat.mod_eq_of_lt (by omega)]
    have hlt : UInt8.ofNat b.length < opPushData1 := by
      rw [UInt8.lt_iff_toNat_lt, hn]
      exact h1
    refine ⟨UInt8.ofNat b.length, ?_, ?_, ?_⟩
    · rw [UInt8.le_iff_toNat_le, hn]
      change b.length ≤ 78
      omega
    · rw [pushVec_of_lt h1, instrBytes, lengthBytes_of_lt hlt]
      rfl
    · rw [WellFormed, if_pos hlt, hn]
  · have h1' : ¬ b.length < opPushData1.toNat := h1
    by_cases h2 : b.length ≤ 0xff
    · -- one byte of length
      refine ⟨opPushData1, by decide, ?_, ?_⟩
      · rw [pushVec, if_neg h1', if_pos h2]
        rfl
      · show b.length < 256
        omega
    · by_cases h3 : b.length ≤ 0xffff
      · -- two bytes
        refine ⟨opPushData2, by decide, ?_, ?_⟩
        · rw [pushVec, if_neg h1', if_neg h2, if_pos h3]
          rfl
        · show b.length < 65536
          omega
      · -- four bytes
        refine ⟨opPushData4, by decide, ?_, ?_⟩
        · rw [pushVec, if_neg h1', if_neg h2, if_neg h3]
          rfl
        · show b.length < 4294967296
          omega

/-- A vector is read as one push, of its bytes. -/
theorem getOp_pushVec {b rest : Bytes} (h : (pushVec b ++ rest).length < 2 ^ 32) :
    ∃ op ≤ opPushData4, getOp (pushVec b ++ rest) = (some (op, b), rest) := by
  have hlen : b.length < 2 ^ 32 := by
    have hpush := (length_pushVec b).1
    rw [List.length_append] at h
    omega
  obtain ⟨op, hop, hbytes, hwell⟩ := pushVec_eq_instrBytes hlen
  rw [hbytes] at h ⊢
  exact ⟨op, hop, getOp_instrBytes hwell h⟩

/-- Vectors in a row are read as one push each, then comes the rest. -/
theorem instrs_pushVecs (bs : List Bytes) {rest : CScript}
    (h : (bs.flatMap pushVec ++ rest).length < 2 ^ 32) :
    ∃ pushes : List (UInt8 × Bytes), pushes.map Prod.snd = bs ∧
      (∀ i ∈ pushes, i.1 ≤ opPushData4) ∧
      instrs (bs.flatMap pushVec ++ rest) = (pushes ++ (instrs rest).1, (instrs rest).2) := by
  induction bs with
  | nil => exact ⟨[], rfl, by simp, by simp⟩
  | cons b bs ih =>
    rw [List.flatMap_cons, List.append_assoc] at h ⊢
    obtain ⟨op, hop, hread⟩ := getOp_pushVec h
    rw [List.length_append] at h
    obtain ⟨pushes, hbytes, hops, hrest⟩ := ih (by omega)
    refine ⟨(op, b) :: pushes, by rw [List.map_cons, hbytes], ?_, ?_⟩
    · intro i hi
      obtain rfl | hi := List.mem_cons.mp hi
      · exact hop
      · exact hops i hi
    · rw [instrs_of_getOp hread, hrest, List.cons_append]

/-! ## All instructions -/

/-- Induction along the instructions of a script. -/
theorem script_induction {motive : Bytes → Prop} (stop : ∀ s, (getOp s).1 = none → motive s)
    (step : ∀ s i rest, getOp s = (some i, rest) → motive rest → motive s) (s : Bytes) :
    motive s := by
  induction hn : s.length using Nat.strong_induction_on generalizing s with
  | _ n ih =>
    cases hop : getOp s with
    | mk r rest =>
      cases r with
      | none => exact stop s (by rw [hop])
      | some i =>
        have hlt := getOp_suffix hop
        exact step s i rest hop (ih rest.length (by omega) rest rfl)

/-- A script whose first instruction cannot be read is all tail. -/
theorem instrs_of_none {s : Bytes} (h : (getOp s).1 = none) : instrs s = ([], s) := by
  unfold instrs
  cases hlen : s.length with
  | zero => rfl
  | succ n =>
    rw [instrsGo]
    cases hop : getOp s with
    | mk r rest =>
      rw [hop] at h
      simp only at h
      subst h
      rfl

/-- A script is the bytes of its instructions and a tail of which nothing can be read. -/
theorem instrs_bytes (s : CScript) :
    (∀ i ∈ (instrs s).1, WellFormed i) ∧ s = (instrs s).1.flatMap instrBytes ++ (instrs s).2 ∧
      (getOp (instrs s).2).1 = none := by
  induction s using script_induction with
  | stop s hnone =>
    rw [instrs_of_none hnone]
    exact ⟨by simp, by simp, hnone⟩
  | step s i rest hop ih =>
    obtain ⟨hwell, hbytes, htail⟩ := ih
    obtain ⟨hi, hs⟩ := getOp_bytes hop
    rw [instrs_of_getOp hop]
    refine ⟨?_, ?_, htail⟩
    · simp only [List.mem_cons, forall_eq_or_imp]
      exact ⟨hi, hwell⟩
    · rw [List.flatMap_cons, List.append_assoc, ← hbytes]
      exact hs

/-- Well-formed instructions in a row are read as they are, then comes the rest. -/
theorem instrs_flatMap {is : List (UInt8 × Bytes)} (hwell : ∀ i ∈ is, WellFormed i) {rest : Bytes}
    (h : (is.flatMap instrBytes ++ rest).length < 2 ^ 32) :
    instrs (is.flatMap instrBytes ++ rest) = (is ++ (instrs rest).1, (instrs rest).2) := by
  induction is with
  | nil => simp
  | cons i is ih =>
    simp only [List.flatMap_cons, List.append_assoc] at h ⊢
    have hread := getOp_instrBytes (hwell i (by simp)) h
    rw [List.length_append] at h
    have hrest := ih (fun j hj => hwell j (by simp [hj])) (by omega)
    rw [instrs_of_getOp hread, hrest, List.cons_append]

end CScript

end CrossChain
