import Mathlib.Tactic.Common

/-!
# Machines with conditional execution

A machine whose instructions are plain steps on its data or the brackets `IF`,
`ELSE`, `ENDIF`.  As in Bitcoin Script, all instructions are read in order: a
stack of flags says whether a plain one is executed, `IF` takes its flag from the
data, `ELSE` flips the top flag and `ENDIF` drops it.

`run_ifElse` is the rule for a conditional: with plain branches the machine
executes the one the test selects and goes on after `ENDIF`.
-/

/-- How the machine reads an instruction. -/
inductive Control where
  | plain
  | opIf
  | opElse
  | opEndIf
  deriving DecidableEq

/-- A machine over instructions `ι` and data `σ`. -/
structure CondMachine (ι σ : Type) where
  control : ι → Control
  /-- A plain instruction, `none` where it fails. -/
  exec : ι → σ → Option σ
  /-- What `IF` takes from the data. -/
  test : σ → Option (Bool × σ)

namespace CondMachine

/-- Data and flags, the innermost conditional first. -/
structure State (σ : Type) where
  data : σ
  flags : List Bool
  deriving DecidableEq

/-- Every enclosing conditional is in its selected branch. -/
def State.active {σ : Type} (s : State σ) : Bool := s.flags.all id

variable {ι σ : Type} (m : CondMachine ι σ)

/-- One instruction. -/
def step (s : State σ) (i : ι) : Option (State σ) :=
  match m.control i with
  | .plain =>
    if s.active then (m.exec i s.data).map fun d => { s with data := d } else some s
  | .opIf =>
    if s.active then (m.test s.data).map fun (c, d) => ⟨d, c :: s.flags⟩
    -- inside a branch not selected no test is taken, but the flags still nest
    else some { s with flags := false :: s.flags }
  | .opElse =>
    match s.flags with
    | [] => none
    | f :: fs => some { s with flags := (!f) :: fs }
  | .opEndIf =>
    match s.flags with
    | [] => none
    | _ :: fs => some { s with flags := fs }

/-- A sequence of instructions. -/
def run (is : List ι) (s : State σ) : Option (State σ) := is.foldlM m.step s

/-- Plain instructions on the data alone. -/
def execAll (is : List ι) (d : σ) : Option σ := is.foldlM (fun d i => m.exec i d) d

/-- A whole program: every conditional must be closed at its end. -/
def runProgram (is : List ι) (d : σ) : Option σ :=
  (m.run is ⟨d, []⟩).bind fun s => if s.flags = [] then some s.data else none

/-- No conditional among the instructions. -/
def Plain (is : List ι) : Prop := ∀ i ∈ is, m.control i = .plain

variable {m}

theorem Plain.tail {i : ι} {is : List ι} (h : m.Plain (i :: is)) : m.Plain is :=
  fun j hj => h j (List.mem_cons_of_mem _ hj)

theorem run_cons (i : ι) (is : List ι) (s : State σ) :
    m.run (i :: is) s = (m.step s i).bind (m.run is) := rfl

theorem run_append (is js : List ι) (s : State σ) :
    m.run (is ++ js) s = (m.run is s).bind (m.run js) := by
  simp only [run, List.foldlM_append]
  rfl

theorem execAll_cons (i : ι) (is : List ι) (d : σ) :
    m.execAll (i :: is) d = (m.exec i d).bind (m.execAll is) := rfl

theorem execAll_append (is js : List ι) (d : σ) :
    m.execAll (is ++ js) d = (m.execAll is d).bind (m.execAll js) := by
  simp only [execAll, List.foldlM_append]
  rfl

/-- In a selected branch plain instructions are executed. -/
theorem run_plain_active {is : List ι} (h : m.Plain is) {s : State σ} (hs : s.active = true) :
    m.run is s = (m.execAll is s.data).map fun d => { s with data := d } := by
  -- one executed instruction keeps the flags, so the branch stays selected
  induction is generalizing s with
  | nil => rfl
  | cons i is ih =>
    have hi : m.control i = .plain := h i List.mem_cons_self
    rw [run_cons, execAll_cons, step, hi]
    simp only [hs, ↓reduceIte]
    cases m.exec i s.data with
    | none => rfl
    | some d => exact ih h.tail hs

/-- In a branch that is not selected they are read over. -/
theorem run_plain_inactive {is : List ι} (h : m.Plain is) {s : State σ}
    (hs : s.active = false) : m.run is s = some s := by
  induction is with
  | nil => rfl
  | cons i is ih =>
    have hi : m.control i = .plain := h i List.mem_cons_self
    rw [run_cons, step, hi]
    simp only [hs, Bool.false_eq_true, ↓reduceIte]
    exact ih h.tail

/-- A conditional with plain branches executes the one the test selects. -/
theorem run_ifElse {i e f : ι} {thenBranch elseBranch rest : List ι} (hi : m.control i = .opIf)
    (he : m.control e = .opElse) (hf : m.control f = .opEndIf) (hthen : m.Plain thenBranch)
    (helse : m.Plain elseBranch) (d : σ) :
    m.run (i :: thenBranch ++ e :: elseBranch ++ f :: rest) ⟨d, []⟩ =
      (m.test d).bind fun (c, d) =>
        (m.execAll (if c then thenBranch else elseBranch) d).bind fun d => m.run rest ⟨d, []⟩ := by
  rw [List.append_assoc, List.cons_append, run_cons, step, hi]
  simp only [State.active, List.all_nil, ↓reduceIte]
  cases m.test d with
  | none => rfl
  | some p =>
    obtain ⟨c, d⟩ := p
    simp only [Option.map_some, Option.bind_some]
    rw [run_append, List.cons_append]
    cases c with
    | true =>
      rw [run_plain_active hthen rfl]
      simp only [↓reduceIte]
      cases m.execAll thenBranch d with
      | none => rfl
      | some d =>
        -- `ELSE` turns the flag off, `ENDIF` drops it
        simp only [Option.map_some, Option.bind_some, run_cons, step, he]
        rw [run_append, run_plain_inactive helse rfl]
        simp only [Option.bind_some, run_cons, step, hf]
    | false =>
      rw [run_plain_inactive hthen rfl]
      simp only [Option.bind_some, run_cons, step, he, Bool.not_false, Bool.false_eq_true,
        ↓reduceIte]
      -- `ELSE` turns the flag on
      rw [run_append, run_plain_active helse rfl]
      cases m.execAll elseBranch d with
      | none => rfl
      | some d => simp only [Option.map_some, Option.bind_some, run_cons, step, hf]

/-- A program that ends in plain instructions after a conditional. -/
theorem runProgram_ifElse {i e f : ι} {thenBranch elseBranch rest : List ι}
    (hi : m.control i = .opIf) (he : m.control e = .opElse) (hf : m.control f = .opEndIf)
    (hthen : m.Plain thenBranch) (helse : m.Plain elseBranch) (hrest : m.Plain rest) (d : σ) :
    m.runProgram (i :: thenBranch ++ e :: elseBranch ++ f :: rest) d =
      (m.test d).bind fun (c, d) =>
        m.execAll ((if c then thenBranch else elseBranch) ++ rest) d := by
  rw [runProgram, run_ifElse hi he hf hthen helse]
  cases m.test d with
  | none => rfl
  | some p =>
    obtain ⟨c, d⟩ := p
    simp only [Option.bind_some, execAll_append]
    cases m.execAll (if c then thenBranch else elseBranch) d with
    | none => rfl
    | some d =>
      simp only [Option.bind_some]
      rw [run_plain_active hrest rfl]
      cases m.execAll rest d <;> rfl

end CondMachine
