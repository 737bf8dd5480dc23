import Mathlib.Data.List.Basic

/-!
# Association lists as maps

`Assoc.set` writes one entry of a map given as the list of its entries, a key
at most once; `List.lookup` reads it.
-/

namespace Assoc

variable {κ ν : Type} [BEq κ]

/-- The map with `v` at `k`. -/
def set (m : List (κ × ν)) (k : κ) (v : ν) : List (κ × ν) :=
  (k, v) :: m.filter (·.1 != k)

/-- The map after the entries of a list are written, in order. -/
def setAll (m kvs : List (κ × ν)) : List (κ × ν) :=
  kvs.foldl (fun m kv => set m kv.1 kv.2) m

@[simp] theorem setAll_nil (m : List (κ × ν)) : setAll m [] = m := rfl

@[simp] theorem setAll_cons (m kvs : List (κ × ν)) (kv : κ × ν) :
    setAll m (kv :: kvs) = setAll (set m kv.1 kv.2) kvs := rfl

theorem setAll_append (m kvs kvs' : List (κ × ν)) :
    setAll m (kvs ++ kvs') = setAll (setAll m kvs) kvs' :=
  List.foldl_append

/-! ## What is read back -/

variable [LawfulBEq κ]

@[simp] theorem lookup_set_self (m : List (κ × ν)) (k : κ) (v : ν) :
    (set m k v).lookup k = some v := by
  simp [set]

@[simp] theorem lookup_set_ne (m : List (κ × ν)) {k k' : κ} (v : ν) (h : k' ≠ k) :
    (set m k v).lookup k' = m.lookup k' := by
  have hbeq : (k' == k) = false := beq_eq_false_iff_ne.mpr h
  simp only [set, List.lookup_cons, hbeq]
  induction m with
  | nil => rfl
  | cons p m ih =>
    obtain ⟨l, x⟩ := p
    -- an entry that is removed has the other key
    by_cases hl : l = k
    · subst hl
      simpa [List.lookup_cons, hbeq] using ih
    · have hkeep : (l != k) = true := by simpa using hl
      simp only [List.filter_cons, hkeep, ↓reduceIte, List.lookup_cons, ih]

/-- A key that is not written keeps its value. -/
theorem lookup_setAll_of_not_mem {m kvs : List (κ × ν)} {k : κ} (h : k ∉ kvs.map (·.1)) :
    (setAll m kvs).lookup k = m.lookup k := by
  induction kvs generalizing m with
  | nil => rfl
  | cons kv kvs ih =>
    rw [List.map_cons, List.mem_cons, not_or] at h
    rw [setAll_cons, ih h.2, lookup_set_ne m kv.2 h.1]

/-- A key that is written once has the value written. -/
theorem lookup_setAll_of_mem {m kvs : List (κ × ν)} (hnodup : (kvs.map (·.1)).Nodup)
    {k : κ} {v : ν} (h : (k, v) ∈ kvs) : (setAll m kvs).lookup k = some v := by
  induction kvs generalizing m with
  | nil => cases h
  | cons kv kvs ih =>
    rw [List.map_cons, List.nodup_cons] at hnodup
    rw [setAll_cons]
    cases List.mem_cons.mp h with
    | inl heq =>
      subst heq
      rw [lookup_setAll_of_not_mem hnodup.1, lookup_set_self]
    | inr hmem => exact ih hnodup.2 hmem

/-- A key has the value that was written to it last. -/
theorem lookup_setAll (m kvs : List (κ × ν)) (k : κ) :
    (setAll m kvs).lookup k =
      (((kvs.filter (·.1 == k)).getLast?.map Prod.snd).or (m.lookup k)) := by
  induction kvs generalizing m with
  | nil => rfl
  | cons kv kvs ih =>
    rw [setAll_cons, ih]
    by_cases hk : kv.1 = k
    · rw [hk, lookup_set_self, List.filter_cons_of_pos (by simpa using hk)]
      cases hlast : (kvs.filter (·.1 == k)).getLast? with
      | none => simp [List.getLast?_cons, hlast]
      | some last => simp [List.getLast?_cons, hlast]
    · rw [lookup_set_ne m kv.2 (Ne.symm hk), List.filter_cons_of_neg (by simpa using hk)]

end Assoc
