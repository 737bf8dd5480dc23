import CrossChain.Native.JsonRpc

/-!
# The registry of methods

`AddMethod` and `DeleteMethod` in any order.  For each name the methods make a
queue: a method that is added goes to its end, `DeleteMethod` takes the first
off, and `system.describe` keeps its own first.  `Lookup` finds the first of the
queue; the description that `SystemDescribe` lists is that of the last.
-/

namespace CrossChain

namespace RpcHandler

/-- What can be done with the registry. -/
inductive Registration where
  | add (method : CallbackMethod)
  | delete (name : Str)

/-- The methods after one registration. -/
def register (methods : List CallbackMethod) : Registration → List CallbackMethod
  | .add method => addMethod methods method
  | .delete name => deleteMethod methods name

/-- The methods of a new handler after some registrations. -/
def registerAll (ops : List Registration) : List CallbackMethod := ops.foldl register new

/-! ## Queues -/

/-- The methods of one name, the oldest first. -/
def named (name : Str) (methods : List CallbackMethod) : List CallbackMethod :=
  methods.filter fun m => m.name == name

/-- What a registration does to the queue of a name. -/
def Registration.onQueue (name : Str) (queue : List CallbackMethod) :
    Registration → List CallbackMethod
  | .add method => if method.name = name then queue ++ [method] else queue
  | .delete deleted =>
    if deleted = name ∧ name ≠ str "system.describe" then queue.tail else queue

/-- The queue of a name after some registrations. -/
def queue (name : Str) (ops : List Registration) : List CallbackMethod :=
  ops.foldl (Registration.onQueue name) (named name new)

/-- Of the methods of a name, erasing the first of them leaves the rest. -/
theorem named_eraseP_self (name : Str) (methods : List CallbackMethod) :
    named name (methods.eraseP fun m => m.name == name) = (named name methods).tail := by
  induction methods with
  | nil => rfl
  | cons m methods ih =>
    unfold named at ih ⊢
    rw [List.eraseP_cons, List.filter_cons]
    cases hm : m.name == name with
    | true => simp
    | false => simp [hm, ih]

/-- The methods of other names stay. -/
theorem named_eraseP_of_ne {name deleted : Str} (h : deleted ≠ name)
    (methods : List CallbackMethod) :
    named name (methods.eraseP fun m => m.name == deleted) = named name methods := by
  induction methods with
  | nil => rfl
  | cons m methods ih =>
    unfold named at ih ⊢
    by_cases hm : m.name = deleted
    · have hne : ¬ (m.name == name) = true := by
        rw [hm, beq_iff_eq]
        exact h
      rw [List.eraseP_cons_of_pos (by simpa using hm), List.filter_cons, if_neg hne]
    · rw [List.eraseP_cons_of_neg (by simpa using hm), List.filter_cons, List.filter_cons, ih]

/-- One registration does to a queue what it does to the registry. -/
theorem named_register (name : Str) (methods : List CallbackMethod) (op : Registration) :
    named name (register methods op) = op.onQueue name (named name methods) := by
  cases op with
  | add method =>
    show named name (methods ++ [method]) =
      if method.name = name then named name methods ++ [method] else named name methods
    unfold named
    rw [List.filter_append]
    by_cases hname : method.name = name
    · rw [if_pos hname, List.filter_cons_of_pos (by simpa using hname), List.filter_nil]
    · rw [if_neg hname, List.filter_cons_of_neg (by simpa using hname), List.filter_nil,
        List.append_nil]
  | delete deleted =>
    show named name (deleteMethod methods deleted) =
      if deleted = name ∧ name ≠ str "system.describe" then (named name methods).tail
      else named name methods
    unfold deleteMethod
    by_cases hsystem : deleted = str "system.describe"
    · -- nothing is deleted, and no deletion changes the queue of that name
      rw [if_pos hsystem, if_neg]
      intro h
      exact h.2 (h.1 ▸ hsystem)
    · rw [if_neg hsystem]
      by_cases hname : deleted = name
      · subst hname
        rw [if_pos ⟨rfl, hsystem⟩, named_eraseP_self]
      · rw [if_neg fun h => hname h.1, named_eraseP_of_ne hname]

/-- So do registrations one after the other. -/
theorem named_foldl_register (name : Str) (ops : List Registration)
    (methods : List CallbackMethod) :
    named name (ops.foldl register methods) =
      ops.foldl (Registration.onQueue name) (named name methods) := by
  induction ops generalizing methods with
  | nil => rfl
  | cons op ops ih => rw [List.foldl_cons, List.foldl_cons, ih, named_register]

theorem lookup_eq_head (methods : List CallbackMethod) (name : Str) :
    lookup methods name = (named name methods).head? :=
  List.head?_filter.symm

/-! ## system.describe -/

/-- `system.describe` stays first in its queue. -/
theorem head_onQueue_system {method : CallbackMethod} {queue : List CallbackMethod}
    (h : queue.head? = some method) (op : Registration) :
    (op.onQueue (str "system.describe") queue).head? = some method := by
  cases op with
  | add added =>
    show (if added.name = str "system.describe" then queue ++ [added] else queue).head? = _
    split
    · rw [List.head?_append, h]
      rfl
    · exact h
  | delete deleted =>
    show (if deleted = str "system.describe" ∧ str "system.describe" ≠ str "system.describe" then
      queue.tail else queue).head? = _
    rw [if_neg fun hsystem => hsystem.2 rfl]
    exact h

theorem head_queue_system {method : CallbackMethod} (ops : List Registration)
    {queue : List CallbackMethod} (h : queue.head? = some method) :
    (ops.foldl (Registration.onQueue (str "system.describe")) queue).head? = some method := by
  induction ops generalizing queue with
  | nil => exact h
  | cons op ops ih => exact ih (head_onQueue_system h op)

/-! ## Descriptions -/

/-- What `SystemDescribe` lists for the methods. -/
def described (methods : List CallbackMethod) : Object :=
  Assoc.setAll [] (methods.map fun m => (nameOf (cStr m.name), m.description))

theorem described_eq_foldl (methods : List CallbackMethod) (o : Object) :
    methods.foldl (fun o m => Object.set o (nameOf (cStr m.name)) m.description) o =
      Assoc.setAll o (methods.map fun m => (nameOf (cStr m.name), m.description)) := by
  induction methods generalizing o with
  | nil => rfl
  | cons m methods ih =>
    rw [List.foldl_cons, ih, List.map_cons, Assoc.setAll_cons]
    rfl

theorem described_ne_nil {methods : List CallbackMethod} (h : methods ≠ []) :
    (described methods).isEmpty = false := by
  obtain ⟨init, last, rfl⟩ : ∃ init last, methods = init ++ [last] :=
    ⟨_, _, (List.dropLast_append_getLast h).symm⟩
  rw [described, List.map_append, Assoc.setAll_append]
  rfl

/-- The reply lists the description that was set last under each name. -/
theorem systemDescribe_eq_ok {methods : List CallbackMethod} {msg reply : Json}
    (hne : methods ≠ []) (h : systemDescribe methods msg = .ok reply) :
    reply.index "result" = .ok (.object (described methods)) := by
  unfold systemDescribe at h
  rw [described_eq_foldl] at h
  have hresult : responseOf (described methods) = .object (described methods) := by
    rw [responseOf, described_ne_nil hne]
    rfl
  cases hid : msg.index "id" with
  | error e =>
    rw [hid] at h
    cases h
  | ok id =>
    rw [hid] at h
    cases h
    rw [← hresult]
    show Except.ok ((List.lookup "result" (Object.set _ "result" _)).getD .null) = _
    rw [Object.lookup_set_self]
    rfl

/-- A method is found if it is the oldest of its name that was not deleted, whatever was
    registered and deleted in between; `system.describe` is always found, and always the one
    that the handler registered; it lists each name with the description registered last. -/
theorem registry_exact (ops : List Registration) :
    (∀ name, lookup (registerAll ops) name = (queue name ops).head?) ∧
      lookup (registerAll ops) (str "system.describe") = new.head? ∧
      ∀ msg reply, systemDescribe (registerAll ops) msg = .ok reply →
        ∃ o, reply.index "result" = .ok (.object o) ∧
          ∀ key, o.lookup key = (((registerAll ops).filter fun m =>
            nameOf (cStr m.name) == key).getLast?.map CallbackMethod.description) := by
  have hlookup : ∀ name, lookup (registerAll ops) name = (queue name ops).head? := by
    intro name
    rw [lookup_eq_head, registerAll, named_foldl_register]
    rfl
  have hsystem : lookup (registerAll ops) (str "system.describe") = new.head? := by
    rw [hlookup]
    exact head_queue_system ops rfl
  refine ⟨hlookup, hsystem, ?_⟩
  intro msg reply hreply
  -- `system.describe` is still there, so the list is not empty
  have hne : registerAll ops ≠ [] := by
    intro hnil
    rw [hnil] at hsystem
    cases hsystem
  refine ⟨_, systemDescribe_eq_ok hne hreply, ?_⟩
  intro key
  rw [described, Assoc.lookup_setAll, List.filter_map, List.getLast?_map, Option.map_map]
  simp [Function.comp_def]

end RpcHandler

end CrossChain
