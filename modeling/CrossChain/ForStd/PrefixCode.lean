import Mathlib.Tactic.Common

/-!
# Encodings that can be read off the front

`Decodes P f view`: wherever an encoding `f a` with `P a` stands at the front of a
string, the string determines `view a` and where the encoding ends.  With
`view = id` this is unique decodability; a weaker `view` leaves out what the
encoding does not carry.

The rules build such encodings from their parts: fields of fixed length, one
part after another where the second may depend on what the first determines (a
length prefix), and a counted sequence.
-/

namespace PrefixCode

variable {α β γ δ : Type}

/-- The encoding `f`, at the front of any string, determines `view` and its own end. -/
def Decodes (P : α → Prop) (f : α → List β) (view : α → γ) : Prop :=
  ∀ ⦃a b : α⦄, P a → P b → ∀ ⦃r s : List β⦄, f a ++ r = f b ++ s → view a = view b ∧ r = s

variable {P Q : α → Prop} {f g : α → List β} {view : α → γ} {view' : α → δ}

/-! ## Consequences -/

/-- Fewer values are still told apart. -/
theorem Decodes.mono (h : Decodes P f view) (hPQ : ∀ a, Q a → P a) : Decodes Q f view :=
  fun _ _ ha hb _ _ heq => h (hPQ _ ha) (hPQ _ hb) heq

/-- What the view determines is determined. -/
theorem Decodes.map (h : Decodes P f view) (k : γ → δ) :
    Decodes P f fun a => k (view a) := by
  intro a b ha hb r s heq
  obtain ⟨hview, hrest⟩ := h ha hb heq
  exact ⟨congrArg k hview, hrest⟩

/-- The encoding of a part, as an encoding of the whole. -/
theorem Decodes.comp (h : Decodes P f view) (k : δ → α) :
    Decodes (fun d => P (k d)) (fun d => f (k d)) fun d => view (k d) :=
  fun _ _ ha hb _ _ heq => h ha hb heq

/-- The view may be written differently on the values in question. -/
theorem Decodes.congr_view {view' : α → γ} (h : Decodes P f view)
    (hview : ∀ a, P a → view a = view' a) : Decodes P f view' := by
  intro a b ha hb r s heq
  rw [← hview a ha, ← hview b hb]
  exact h ha hb heq

/-! ## Rules -/

/-- A reader that finds the view and the rest. -/
theorem decodes_of_read {read : List β → γ × List β}
    (h : ∀ a, P a → ∀ r, read (f a ++ r) = (view a, r)) : Decodes P f view := by
  intro a b ha hb r s heq
  have hread : (view a, r) = (view b, s) := by rw [← h a ha r, ← h b hb s, heq]
  exact Prod.mk.inj hread

/-- Encodings of one length. -/
theorem decodes_of_length {k : Nat} (hlen : ∀ a, P a → (f a).length = k)
    (hinj : ∀ a b, P a → P b → f a = f b → view a = view b) : Decodes P f view := by
  intro a b ha hb r s heq
  have hab : (f a).length = (f b).length := by rw [hlen a ha, hlen b hb]
  obtain ⟨hf, hrest⟩ := List.append_inj heq hab
  exact ⟨hinj a b ha hb hf, hrest⟩

/-- One part after another; the second is read knowing what the first determined. -/
theorem Decodes.append (hf : Decodes P f view)
    (hg : ∀ c, Decodes (fun a => P a ∧ view a = c) g view') :
    Decodes P (fun a => f a ++ g a) fun a => (view a, view' a) := by
  intro a b ha hb r s heq
  simp only [List.append_assoc] at heq
  obtain ⟨hview, htail⟩ := hf ha hb heq
  obtain ⟨hview', hrest⟩ := hg (view b) ⟨ha, hview⟩ ⟨hb, rfl⟩ htail
  exact ⟨Prod.ext hview hview', hrest⟩

/-- One part after another, each readable on its own. -/
theorem Decodes.append' (hf : Decodes P f view) (hg : Decodes P g view') :
    Decodes P (fun a => f a ++ g a) fun a => (view a, view' a) :=
  hf.append fun _ => hg.mono fun _ ha => ha.1

/-- A sequence of known length. -/
theorem Decodes.flatMap (h : Decodes P f view) (n : Nat) :
    Decodes (fun l : List α => (∀ a ∈ l, P a) ∧ l.length = n) (fun l => l.flatMap f)
      fun l => l.map view := by
  induction n with
  | zero =>
    intro l m hl hm r s heq
    obtain rfl := List.eq_nil_of_length_eq_zero hl.2
    obtain rfl := List.eq_nil_of_length_eq_zero hm.2
    exact ⟨rfl, heq⟩
  | succ n ih =>
    intro l m hl hm r s heq
    obtain ⟨hPl, hlenl⟩ := hl
    obtain ⟨hPm, hlenm⟩ := hm
    obtain ⟨a, l, rfl⟩ := List.exists_cons_of_length_eq_add_one hlenl
    obtain ⟨b, m, rfl⟩ := List.exists_cons_of_length_eq_add_one hlenm
    simp only [List.flatMap_cons, List.append_assoc] at heq
    -- the heads end at one place, so the tails start at one place
    obtain ⟨hview, htail⟩ := h (hPl a (by simp)) (hPm b (by simp)) heq
    have hl' : (∀ a ∈ l, P a) ∧ l.length = n :=
      ⟨fun c hc => hPl c (by simp [hc]), by simpa using hlenl⟩
    have hm' : (∀ a ∈ m, P a) ∧ m.length = n :=
      ⟨fun c hc => hPm c (by simp [hc]), by simpa using hlenm⟩
    obtain ⟨hmap, hrest⟩ := ih hl' hm' htail
    exact ⟨by simp only [List.map_cons, hview, hmap], hrest⟩

/-- A sequence behind its count. -/
theorem Decodes.counted {count : Nat → List β} {N : Nat}
    (hcount : Decodes (· < N) count id) (h : Decodes P f view) :
    Decodes (fun l : List α => l.length < N ∧ ∀ a ∈ l, P a)
      (fun l => count l.length ++ l.flatMap f) fun l => l.map view := by
  have hlen : Decodes (fun l : List α => l.length < N ∧ ∀ a ∈ l, P a)
      (fun l => count l.length) List.length :=
    (hcount.comp List.length).mono fun _ hl => hl.1
  have hboth := hlen.append fun n => (h.flatMap n).mono fun _ hl => ⟨hl.1.2, hl.2⟩
  exact hboth.map Prod.snd

end PrefixCode
