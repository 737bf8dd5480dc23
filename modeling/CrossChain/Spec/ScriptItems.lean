import CrossChain.Native.ScriptText
import CrossChain.Spec.ScriptReading

/-!
# Writing and reading scripts

`GetOp2` on a script and an index is `GetOp` on the bytes from that index on
(`getOp2_eq`): it never reads past the end and moves forward whenever it
succeeds, so `ToString` ends.  What `operator<<` writes for a sequence of items
is read back as one instruction each (`scripts_read_back`).
-/

namespace CrossChain

namespace CScript

/-! ## Reading in place -/

theorem readByte_of_drop {s rest : Bytes} {pc : Nat} {b : UInt8} (h : s.drop pc = b :: rest) :
    readByte s pc = .ok b := by
  have hget : s[pc]? = some b := by
    have hhead := congrArg (fun t : Bytes => t[0]?) h
    simpa using hhead
  rw [readByte, hget]

theorem readBytes_of_le {s : Bytes} {pc n : Nat} (h : pc + n ≤ s.length) :
    readBytes s pc n = .ok ((s.drop pc).take n) := by
  rw [readBytes, if_pos h]

theorem getSize_length_le (op : UInt8) (pc : Bytes) : (getSize op pc).2.length ≤ pc.length := by
  unfold getSize
  split
  · simp
  · split
    · split <;> simp
    · split
      · split <;> simp
      · split <;> simp

/-- The operand size read in place is the one `getSize` finds in the bytes left. -/
theorem operandSize_eq (s : CScript) {op : UInt8} {pc : Nat} (hpc : pc ≤ s.length)
    (hle : op ≤ opPushData4) :
    operandSize s op pc =
      .ok ((getSize op (s.drop pc)).1, s.length - (getSize op (s.drop pc)).2.length) := by
  have hleft : s.bytesLeft pc = (s.length - pc : Nat) := by
    rw [bytesLeft]
    omega
  by_cases hlt : op < opPushData1
  · rw [operandSize, if_pos hlt, getSize_direct hlt, List.length_drop]
    simp only [Except.ok.injEq, Prod.mk.injEq, true_and]
    omega
  · rw [operandSize, if_neg hlt, hleft]
    rcases pushData_cases hle hlt with rfl | rfl | rfl
    · rw [if_pos rfl]
      cases hdrop : s.drop pc with
      | nil =>
        have hlen := congrArg List.length hdrop
        simp only [List.length_drop, List.length_nil] at hlen
        rw [if_pos (by omega)]
        simp [getSize, opPushData1]
        omega
      | cons b rest =>
        have hlen := congrArg List.length hdrop
        simp only [List.length_drop, List.length_cons] at hlen
        rw [if_neg (by omega), readByte_of_drop hdrop, getSize_pushData1]
        show Except.ok (some b.toNat, pc + 1) = _
        simp
        omega
    · rw [if_neg (by decide), if_pos rfl, getSize_pushData2_eq, List.length_drop]
      by_cases hshort : s.length - pc < 2
      · rw [if_pos (by omega), if_pos hshort, List.length_drop]
        simp only [Except.ok.injEq, Prod.mk.injEq, true_and]
        omega
      · rw [if_neg (by omega), if_neg hshort, readBytes_of_le (by omega)]
        show Except.ok (some _, pc + 2) = _
        simp only [List.length_drop, Except.ok.injEq, Prod.mk.injEq, true_and]
        omega
    · rw [if_neg (by decide), if_neg (by decide), getSize_pushData4_eq, List.length_drop]
      by_cases hshort : s.length - pc < 4
      · rw [if_pos (by omega), if_pos hshort, List.length_drop]
        simp only [Except.ok.injEq, Prod.mk.injEq, true_and]
        omega
      · rw [if_neg (by omega), if_neg hshort, readBytes_of_le (by omega)]
        show Except.ok (some _, pc + 4) = _
        simp only [List.length_drop, Except.ok.injEq, Prod.mk.injEq, true_and]
        omega

/-- `GetOp2` never reads past the end; it reads what `GetOp` reads from the bytes left. -/
theorem getOp2_eq (s : CScript) {pc : Nat} (hpc : pc ≤ s.length) :
    getOp2 s pc = .ok ((getOp (s.drop pc)).1, s.length - (getOp (s.drop pc)).2.length) := by
  unfold getOp2
  by_cases hend : s.length ≤ pc
  · have hdrop : s.drop pc = [] := List.drop_eq_nil_of_le hend
    rw [if_pos hend, hdrop, getOp]
    simp only [List.length_nil, Except.ok.injEq, Prod.mk.injEq, true_and]
    omega
  · have hleft : ¬ s.bytesLeft pc < 1 := by
      rw [bytesLeft]
      omega
    obtain ⟨op, rest, hdrop⟩ := List.exists_cons_of_ne_nil (l := s.drop pc) (by simp; omega)
    have hrest : s.drop (pc + 1) = rest := by
      rw [← List.drop_drop, hdrop]
      rfl
    rw [if_neg hend, if_neg hleft, readByte_of_drop hdrop, hdrop, getOp]
    by_cases hle : op ≤ opPushData4
    · have hlen := getSize_length_le op rest
      have hrestlen : rest.length = s.length - (pc + 1) := by rw [← hrest, List.length_drop]
      have hsize := operandSize_eq s (show pc + 1 ≤ s.length by omega) hle
      rw [hrest] at hsize
      simp only [bind, Except.bind, if_pos hle, hsize]
      cases hread : getSize op rest with
      | mk size pc' =>
        rw [hread] at hlen
        simp only at hlen ⊢
        cases size with
        | none => rfl
        | some n =>
          -- the bytes left are those from the new index on
          have hsuffix : s.drop (s.length - pc'.length) = pc' := by
            obtain ⟨k, rfl⟩ := getSize_suffix hread
            rw [← hrest, List.drop_drop] at hlen ⊢
            simp only [List.length_drop] at hlen ⊢
            by_cases hk : pc + 1 + k ≤ s.length
            · congr 1
              omega
            · rw [List.drop_eq_nil_of_le (by omega), List.drop_eq_nil_of_le (by omega)]
          have hbytes : s.bytesLeft (s.length - pc'.length) = (pc'.length : Int) := by
            rw [bytesLeft]
            omega
          simp only [hbytes]
          by_cases hshort : pc'.length % 2 ^ 32 < n
          · rw [if_pos (by omega), if_pos hshort]
            rfl
          · have hn : n ≤ pc'.length := by
              have hmod := Nat.mod_le pc'.length (2 ^ 32)
              omega
            rw [if_neg (by omega), if_neg hshort, readBytes_of_le (by omega), hsuffix]
            show Except.ok (some (op, pc'.take n), s.length - pc'.length + n) = _
            simp only [List.length_drop, Except.ok.injEq, Prod.mk.injEq, true_and]
            omega
    · have hrestlen : rest.length = s.length - (pc + 1) := by rw [← hrest, List.length_drop]
      simp only [bind, Except.bind, if_neg hle]
      show Except.ok (some (op, []), pc + 1) = _
      simp only [Except.ok.injEq, Prod.mk.injEq, true_and]
      omega

/-- An index where reading starts and one where it ends, both in the script, the second
    behind the first after a success. -/
theorem getOp2_bounds (s : CScript) {pc : Nat} (hpc : pc ≤ s.length) :
    ∃ r pc', getOp2 s pc = .ok (r, pc') ∧ pc' ≤ s.length ∧ (r.isSome → pc < pc') := by
  refine ⟨_, _, getOp2_eq s hpc, by omega, ?_⟩
  intro hsome
  obtain ⟨i, hi⟩ := Option.isSome_iff_exists.mp hsome
  have hlt := getOp_suffix (show getOp (s.drop pc) = (some i, (getOp (s.drop pc)).2) by rw [← hi])
  rw [List.length_drop] at hlt
  omega

/-- `ToString` ends: every turn of its loop but the last moves forward. -/
theorem toStringGo_ends (s : CScript) (fShort : Bool) {fuel pc : Nat} (text : Str)
    (hpc : pc ≤ s.length) (hfuel : s.length - pc < fuel) :
    ∃ text', toStringGo s fShort fuel pc text = .ok (some text') := by
  induction fuel generalizing pc text with
  | zero => omega
  | succ fuel ih =>
    obtain ⟨r, pc', hread, hle, hlt⟩ := getOp2_bounds s hpc
    unfold toStringGo
    by_cases hend : s.length ≤ pc
    · rw [if_pos hend]
      exact ⟨text, rfl⟩
    · rw [if_neg hend, hread]
      cases r with
      | none => exact ⟨_, rfl⟩
      | some i =>
        have hforward := hlt rfl
        exact ih _ hle (by omega)

/-- Calls of `GetOp2` from index `pc` on that succeed, what they read and where they end. -/
inductive Reads (s : CScript) : Nat → List (UInt8 × Bytes) → Nat → Prop where
  | done (pc : Nat) : Reads s pc [] pc
  | next {pc pc' last : Nat} {i : UInt8 × Bytes} {is : List (UInt8 × Bytes)}
      (head : getOp2 s pc = .ok (some i, pc')) (tail : Reads s pc' is last) :
      Reads s pc (i :: is) last

/-- Reading in place goes through the instructions of a script up to its unreadable tail. -/
theorem reads_instrs (pre t : Bytes) :
    Reads (pre ++ t) pre.length (instrs t).1 ((pre ++ t).length - (instrs t).2.length) := by
  induction t using script_induction generalizing pre with
  | stop t hnone =>
    rw [instrs_of_none hnone]
    have hend : (pre ++ t).length - t.length = pre.length := by simp
    rw [hend]
    exact Reads.done _
  | step t i rest hop ih =>
    obtain ⟨_, ht⟩ := getOp_bytes hop
    rw [instrs_of_getOp hop]
    -- the rest of the script is what follows the bytes of the instruction
    have happ : pre ++ t = (pre ++ instrBytes i) ++ rest := by rw [ht, List.append_assoc]
    have hread := getOp2_eq (pre ++ t) (show pre.length ≤ (pre ++ t).length by simp)
    rw [List.drop_left, hop] at hread
    have hpc : (pre ++ t).length - rest.length = (pre ++ instrBytes i).length := by
      rw [happ, List.length_append]
      omega
    rw [hpc] at hread
    have hrest := ih (pre ++ instrBytes i)
    rw [← happ] at hrest
    exact Reads.next hread hrest

end CScript

/-! ## Items -/

/-- What `operator<<` appends to a script; a public key by the bytes it is set from. -/
inductive ScriptItem where
  | opcode (op : UInt8) (h : opPushData4 < op)
  | uint160 (b : Uint160)
  | uint256 (b : Uint256)
  | pubKey (b : Bytes)
  | vec (b : Bytes)

namespace ScriptItem

/-- `operator<<` for each kind of item. -/
def write : ScriptItem → Except Exn CScript
  | opcode op _ => .ok [op]
  | uint160 b => .ok (CScript.pushUint b)
  | uint256 b => .ok (CScript.pushUint b)
  | pubKey b => CScript.pushPubKey (cpubkeySet b)
  | vec b => .ok (CScript.pushVec b)

/-- The instruction has the item's opcode, or is a push of its bytes. -/
def ReadAs : ScriptItem → UInt8 × Bytes → Prop
  | opcode op _, i => i = (op, [])
  | uint160 b, i => i.1 ≤ opPushData4 ∧ i.2 = b.bytes
  | uint256 b, i => i.1 ≤ opPushData4 ∧ i.2 = b.bytes
  | pubKey b, i => i.1 ≤ opPushData4 ∧ i.2 = cpubkeySet b
  | vec b, i => i.1 ≤ opPushData4 ∧ i.2 = b

/-- A public key fits the one-byte push. -/
theorem length_cpubkeySet_le (b : Bytes) : (cpubkeySet b).length ≤ 65 := by
  cases b with
  | nil => simp [cpubkeySet]
  | cons h rest =>
    rw [cpubkeySet]
    split
    · rename_i hlen
      rw [← hlen.2, cpubkeyGetLen]
      split
      · omega
      · split <;> omega
    · simp

/-- A short vector is written as one well-formed push. -/
theorem pushUint_eq_instrBytes {n : Nat} (x : BaseUint n) (hn : n < 76) :
    ∃ op ≤ opPushData4, CScript.pushUint x = CScript.instrBytes (op, x.bytes) ∧
      CScript.WellFormed (op, x.bytes) := by
  have hlen : x.bytes.length = n := x.length_bytes
  rw [← CScript.pushVec_eq_pushUint x hn]
  exact CScript.pushVec_eq_instrBytes (by omega)

/-- Every item is written, as one instruction that reads as the item unless it is huge. -/
theorem write_spec (item : ScriptItem) :
    ∃ code, item.write = .ok code ∧
      (code.length < 2 ^ 32 →
        ∃ i, code = CScript.instrBytes i ∧ CScript.WellFormed i ∧ item.ReadAs i) := by
  cases item with
  | opcode op h =>
    have hle : ¬ op ≤ opPushData4 := UInt8.not_le.mpr h
    refine ⟨_, rfl, fun _ => ⟨(op, []), ?_, (CScript.wellFormed_of_not_le hle []).mpr rfl, rfl⟩⟩
    rw [CScript.instrBytes, CScript.lengthBytes_of_not_le hle]
    rfl
  | uint160 b =>
    obtain ⟨op, hop, hbytes, hwell⟩ := pushUint_eq_instrBytes b (by omega)
    exact ⟨_, rfl, fun _ => ⟨(op, b.bytes), hbytes, hwell, hop, rfl⟩⟩
  | uint256 b =>
    obtain ⟨op, hop, hbytes, hwell⟩ := pushUint_eq_instrBytes b (by omega)
    exact ⟨_, rfl, fun _ => ⟨(op, b.bytes), hbytes, hwell, hop, rfl⟩⟩
  | pubKey b =>
    have hlen := length_cpubkeySet_le b
    have hok : CScript.pushPubKey (cpubkeySet b) = .ok (CScript.pushVec (cpubkeySet b)) := by
      have hfits : (cpubkeySet b).length < opPushData1.toNat := by
        show _ < 76
        omega
      rw [CScript.pushPubKey, CScript.pushVec, if_pos hfits, if_pos hfits]
    obtain ⟨op, hop, hbytes, hwell⟩ :=
      CScript.pushVec_eq_instrBytes (b := cpubkeySet b) (by omega)
    exact ⟨_, hok, fun _ => ⟨(op, cpubkeySet b), hbytes, hwell, hop, rfl⟩⟩
  | vec b =>
    refine ⟨_, rfl, fun hlen => ?_⟩
    have hpush := (CScript.length_pushVec b).1
    obtain ⟨op, hop, hbytes, hwell⟩ := CScript.pushVec_eq_instrBytes (b := b) (by omega)
    exact ⟨(op, b), hbytes, hwell, hop, rfl⟩

/-- `CScript() << item << item ...`. -/
def writeAll (items : List ScriptItem) : Except Exn CScript :=
  items.foldlM (fun s item => do return s ++ (← item.write)) []

/-- Items are written one after the other, each as one instruction that reads as it. -/
theorem writeAll_spec (items : List ScriptItem) (s : CScript) :
    ∃ code, items.foldlM (fun s item => do return s ++ (← item.write)) s = .ok (s ++ code) ∧
      (code.length < 2 ^ 32 →
        ∃ is : List (UInt8 × Bytes), code = is.flatMap CScript.instrBytes ∧
          (∀ i ∈ is, CScript.WellFormed i) ∧ List.Forall₂ ReadAs items is) := by
  induction items generalizing s with
  | nil =>
    refine ⟨[], ?_, fun _ => ⟨[], rfl, by simp, List.Forall₂.nil⟩⟩
    simp [List.foldlM, pure, Except.pure]
  | cons item items ih =>
    obtain ⟨code, hcode, hread⟩ := write_spec item
    obtain ⟨codes, hcodes, hreads⟩ := ih (s ++ code)
    refine ⟨code ++ codes, ?_, fun hlen => ?_⟩
    · rw [List.foldlM_cons, hcode, ← List.append_assoc, ← hcodes]
      rfl
    · rw [List.length_append] at hlen
      obtain ⟨i, hi, hwell, has⟩ := hread (by omega)
      obtain ⟨is, his, hwells, hall⟩ := hreads (by omega)
      refine ⟨i :: is, by rw [List.flatMap_cons, ← hi, ← his], ?_, List.Forall₂.cons has hall⟩
      simp only [List.mem_cons, forall_eq_or_imp]
      exact ⟨hwell, hwells⟩

end ScriptItem

/-! ## Every script -/

/-- Items appended to an empty script are read back one instruction each, in order, and then
    `GetOp2` returns false; on any bytes it stays inside the script and moves forward when
    it succeeds; and `ToString` ends on every script. -/
theorem scripts_read_back :
    (∀ items : List ScriptItem, ∃ s, ScriptItem.writeAll items = .ok s ∧
      (s.length < 2 ^ 32 → ∃ is : List (UInt8 × Bytes),
        List.Forall₂ ScriptItem.ReadAs items is ∧ CScript.Reads s 0 is s.length ∧
          CScript.getOp2 s s.length = .ok (none, s.length))) ∧
    (∀ (s : CScript) (pc : Nat), pc ≤ s.length →
      ∃ r pc', CScript.getOp2 s pc = .ok (r, pc') ∧ pc' ≤ s.length ∧ (r.isSome → pc < pc')) ∧
    (∀ (s : CScript) (fShort : Bool), ∃ text, s.toString fShort = .ok (some text)) := by
  refine ⟨fun items => ?_, fun s pc hpc => CScript.getOp2_bounds s hpc, fun s fShort => ?_⟩
  · obtain ⟨code, hcode, hread⟩ := ScriptItem.writeAll_spec items []
    refine ⟨code, hcode, fun hlen => ?_⟩
    obtain ⟨is, hbytes, hwell, hall⟩ := hread hlen
    -- nothing is left after the last item
    have hinstrs : CScript.instrs code = (is, []) := by
      have hflat : CScript.instrs (is.flatMap CScript.instrBytes ++ []) = _ :=
        CScript.instrs_flatMap hwell (by simpa [← hbytes] using hlen)
      simpa [← hbytes] using hflat
    have hreads := CScript.reads_instrs [] code
    rw [hinstrs] at hreads
    have hend := CScript.getOp2_eq code (Nat.le_refl code.length)
    rw [List.drop_length] at hend
    exact ⟨is, hall, hreads, hend⟩
  · exact CScript.toStringGo_ends s fShort [] (Nat.zero_le _) (by omega)

end CrossChain
