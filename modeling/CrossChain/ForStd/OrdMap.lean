import Mathlib.Data.List.Sort

/-!
# Maps kept in the order of their keys

A `std::map` lists its entries by ascending key.  Here it is the list of its
entries, the keys compared through a `rank` in a linear order.  Entering a key
keeps the order (`ascending_insert`), and one above all others is appended.
-/

namespace OrdMap

variable {κ ν ο : Type} [LinearOrder ο] (rank : κ → ο)

/-- `m[k] = v`. -/
def insert : List (κ × ν) → κ → ν → List (κ × ν)
  | [], k, v => [(k, v)]
  | e :: m, k, v =>
    if rank k < rank e.1 then (k, v) :: e :: m
    else if rank k = rank e.1 then (e.1, v) :: m
    else e :: insert m k v

/-- The entries by ascending key. -/
def sort (m : List (κ × ν)) : List (κ × ν) :=
  m.insertionSort fun e e' => rank e.1 ≤ rank e'.1

/-- Each key comes once, in ascending order. -/
def Ascending (m : List (κ × ν)) : Prop := m.Pairwise fun e e' => rank e.1 < rank e'.1

variable {rank}

@[simp] theorem ascending_nil : Ascending rank ([] : List (κ × ν)) := List.Pairwise.nil

@[simp] theorem ascending_cons {e : κ × ν} {m : List (κ × ν)} :
    Ascending rank (e :: m) ↔ (∀ e' ∈ m, rank e.1 < rank e'.1) ∧ Ascending rank m :=
  List.pairwise_cons

/-- The values do not matter. -/
theorem ascending_map {μ : Type} (f : ν → μ) {m : List (κ × ν)} :
    Ascending rank (m.map fun e => (e.1, f e.2)) ↔ Ascending rank m := List.pairwise_map

/-! ## Entering a key -/

/-- The entries after `m[k] = v` are among the old ones and the new one. -/
theorem mem_insert {m : List (κ × ν)} {k : κ} {v : ν} {e : κ × ν} (h : e ∈ insert rank m k v) :
    rank e.1 = rank k ∨ e ∈ m := by
  induction m with
  | nil =>
    obtain rfl := List.mem_singleton.mp h
    exact .inl rfl
  | cons e' m ih =>
    unfold insert at h
    split at h
    · obtain rfl | h := List.mem_cons.mp h
      · exact .inl rfl
      · exact .inr h
    · split at h
      · rename_i heq
        obtain rfl | h := List.mem_cons.mp h
        · exact .inl heq.symm
        · exact .inr (List.mem_cons_of_mem _ h)
      · obtain rfl | h := List.mem_cons.mp h
        · exact .inr List.mem_cons_self
        · exact (ih h).imp id (List.mem_cons_of_mem _)

theorem ascending_insert {m : List (κ × ν)} (h : Ascending rank m) (k : κ) (v : ν) :
    Ascending rank (insert rank m k v) := by
  induction m with
  | nil => simp [insert]
  | cons e m ih =>
    obtain ⟨hlt, hm⟩ := ascending_cons.mp h
    unfold insert
    split
    · rename_i hk
      refine ascending_cons.mpr ⟨?_, h⟩
      intro e' he'
      obtain rfl | he' := List.mem_cons.mp he'
      · exact hk
      · exact hk.trans (hlt e' he')
    · split
      · exact ascending_cons.mpr ⟨hlt, hm⟩
      · refine ascending_cons.mpr ⟨?_, ih hm⟩
        intro e' he'
        obtain heq | he' := mem_insert he'
        · rw [heq]
          -- neither smaller nor equal
          exact lt_of_le_of_ne (not_lt.mp ‹_›) fun heq => by simp_all
        · exact hlt e' he'

/-- What holds of the keys and of the values still holds. -/
theorem forall_insert {P : κ → Prop} {Q : ν → Prop} {m : List (κ × ν)} {k : κ} {v : ν}
    (h : ∀ e ∈ m, P e.1 ∧ Q e.2) (hk : P k) (hv : Q v) :
    ∀ e ∈ insert rank m k v, P e.1 ∧ Q e.2 := by
  induction m with
  | nil => exact List.forall_mem_singleton.mpr ⟨hk, hv⟩
  | cons e m ih =>
    obtain ⟨he, hm⟩ := List.forall_mem_cons.mp h
    unfold insert
    split
    · exact List.forall_mem_cons.mpr ⟨⟨hk, hv⟩, h⟩
    · split
      · exact List.forall_mem_cons.mpr ⟨⟨he.1, hv⟩, hm⟩
      · exact List.forall_mem_cons.mpr ⟨he, ih hm⟩

/-- A key above all others goes to the end. -/
theorem insert_of_forall_lt {m : List (κ × ν)} {k : κ} (v : ν)
    (h : ∀ e ∈ m, rank e.1 < rank k) : insert rank m k v = m ++ [(k, v)] := by
  induction m with
  | nil => rfl
  | cons e m ih =>
    have he := h e List.mem_cons_self
    unfold insert
    rw [if_neg (not_lt.mpr he.le), if_neg he.ne', ih fun e' he' => h e' (List.mem_cons_of_mem _ he')]
    rfl

/-! ## Sorting -/

theorem perm_sort (m : List (κ × ν)) : (sort rank m).Perm m := List.perm_insertionSort _ m

/-- Keys that differ in rank sort to a map. -/
theorem ascending_sort {m : List (κ × ν)} (h : (m.map fun e => rank e.1).Nodup) :
    Ascending rank (sort rank m) := by
  have hle : (sort rank m).Pairwise fun e e' => rank e.1 ≤ rank e'.1 := by
    have : Std.Total fun e e' : κ × ν => rank e.1 ≤ rank e'.1 := ⟨fun e e' => le_total _ _⟩
    have : IsTrans (κ × ν) fun e e' => rank e.1 ≤ rank e'.1 := ⟨fun _ _ _ => le_trans⟩
    exact List.pairwise_insertionSort _ m
  have hne : (sort rank m).Pairwise fun e e' => rank e.1 ≠ rank e'.1 := by
    have hperm : (sort rank m).Perm m := perm_sort m
    have hnodup := (hperm.map fun e => rank e.1).nodup_iff.mpr h
    exact List.pairwise_map.mp hnodup
  exact hle.imp₂ (fun _ _ hle hne => lt_of_le_of_ne hle hne) hne

theorem sort_eq_self {m : List (κ × ν)} (h : Ascending rank m) : sort rank m = m :=
  List.Pairwise.insertionSort_eq (h.imp fun hlt => hlt.le)

/-- Sorting does not look at the values. -/
theorem sort_map {μ : Type} (f : ν → μ) (m : List (κ × ν)) :
    sort rank (m.map fun e => (e.1, f e.2)) = (sort rank m).map fun e => (e.1, f e.2) := by
  symm
  apply List.map_insertionSort
  intro e _ e' _
  exact Iff.rfl

end OrdMap
