import Mathlib.Data.List.DropRight
import Mathlib.Data.List.TakeWhile

/-!
# Spans of a list

The longest run of elements with a property, at the front of a list or at both
of its ends.
-/

namespace Span

variable {α : Type} {p : α → Bool}

/-- The property does not go on at the front of the list. -/
def Stops (p : α → Bool) (l : List α) : Prop := ∀ a ∈ l.head?, p a = false

@[simp] theorem stops_nil : Stops p [] := by simp [Stops]

@[simp] theorem stops_cons {a : α} {l : List α} : Stops p (a :: l) ↔ p a = false := by
  simp [Stops]

theorem stops_dropWhile (l : List α) : Stops p (l.dropWhile p) := by
  induction l with
  | nil => simp
  | cons a l ih =>
    by_cases ha : p a = true
    · simpa [ha] using ih
    · simp [ha]

/-- A stop stays one when the list is cut short. -/
theorem Stops.append_takeWhile {q : α → Bool} {x l : List α} (h : Stops p (x ++ l)) :
    Stops p (x ++ l.takeWhile q) := by
  cases x with
  | nil =>
    cases l with
    | nil => exact h
    | cons a l =>
      by_cases ha : q a = true
      · simpa [ha] using h
      · simp [ha]
  | cons b x => simpa using h

theorem Stops.takeWhile {q : α → Bool} {l : List α} (h : Stops p l) : Stops p (l.takeWhile q) :=
  Stops.append_takeWhile (x := []) h

/-- A run in front of a stop is what `takeWhile` takes. -/
theorem takeWhile_append {run rest : List α} (hrun : ∀ a ∈ run, p a) (hrest : Stops p rest) :
    (run ++ rest).takeWhile p = run := by
  rw [List.takeWhile_append_of_pos hrun]
  cases rest with
  | nil => simp
  | cons a rest =>
    rw [stops_cons] at hrest
    simp [hrest]

/-- What `dropWhile` leaves is the rest behind the run. -/
theorem dropWhile_append {run rest : List α} (hrun : ∀ a ∈ run, p a) (hrest : Stops p rest) :
    (run ++ rest).dropWhile p = rest := by
  rw [List.dropWhile_append_of_pos hrun]
  cases rest with
  | nil => simp
  | cons a rest =>
    rw [stops_cons] at hrest
    simp [hrest]

/-- A list splits into the run at its front and the rest in one way only. -/
theorem append_inj {run run' rest rest' : List α} (hrun : ∀ a ∈ run, p a)
    (hrun' : ∀ a ∈ run', p a) (hrest : Stops p rest) (hrest' : Stops p rest')
    (h : run ++ rest = run' ++ rest') : run = run' ∧ rest = rest' := by
  constructor
  · rw [← takeWhile_append hrun hrest, h, takeWhile_append hrun' hrest']
  · rw [← dropWhile_append hrun hrest, h, dropWhile_append hrun' hrest']

/-! ## Both ends -/

/-- A list without the runs at its ends. -/
def trim (p : α → Bool) (l : List α) : List α := (l.dropWhile p).rdropWhile p

/-- What is added at the ends is trimmed off again. -/
theorem trim_append {xs ys : List α} (l : List α) (hxs : ∀ a ∈ xs, p a) (hys : ∀ a ∈ ys, p a) :
    trim p (xs ++ (l ++ ys)) = trim p l := by
  have hdrop : ys.dropWhile p = [] := by simpa using hys
  have hright (m : List α) : (m ++ ys).rdropWhile p = m.rdropWhile p := by
    rw [List.rdropWhile, List.reverse_append,
      List.dropWhile_append_of_pos fun a ha => hys a (List.mem_reverse.mp ha), List.rdropWhile]
  rw [trim, List.dropWhile_append_of_pos hxs, List.dropWhile_append, trim]
  -- a list that is one run leaves nothing on either side
  split
  · rename_i hempty
    rw [List.isEmpty_iff.mp hempty, hdrop]
  · exact hright _

/-- A list without runs at its ends is kept. -/
theorem trim_eq_self {l : List α} (h : ∀ a ∈ l, p a = false) : trim p l = l := by
  have hfront : l.dropWhile p = l := by
    cases l with
    | nil => rfl
    | cons a l => simp [h a]
  rw [trim, hfront, List.rdropWhile_eq_self_iff]
  intro hne
  simp [h _ (List.getLast_mem hne)]

end Span
