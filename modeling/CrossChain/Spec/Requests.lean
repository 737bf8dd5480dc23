import CrossChain.Spec.NodeCalls

/-!
# Requests

Which runs of a method a request starts: none unless it passes `Check` and names
a registered function of `AtomRpc`, else one, which makes calls of that method's
script only (`plays_processMsg`).
-/

namespace CrossChain

open RpcHandler AtomRpc

/-- The runs of methods, each with the calls it made. -/
abbrev RunScript := EnvM.Script (List RpcCall)

namespace AtomRpc

section

variable (ssl : OpenSSL)

/-- The script of the method with this name. -/
def methodScript (name : Str) : Option (Json → CallScript) :=
  ((methodScripts ssl).find? fun s => str s.1 == name).map Prod.snd

/-- The runs one request starts. -/
def requestScript (root : Json) : RunScript :=
  match check root with
  | some _ => []
  | none =>
    match (root.index "method" >>= Json.asString).toOption >>= methodScript ssl with
    | some script => [(script root).Begins]
    | none => []

/-- The requests a value holds: the elements of a batch, or the one it is. -/
def requestsIn : Json → List Json
  | .null => []
  | .array elems => elems
  | root => [root]

/-- The requests in a text. -/
def requestsOf (scan : Str → Option ℚ) (msg : Str) : List Json :=
  match JsonReader.parse scan msg with
  | none => []
  | some root => requestsIn root

/-! ## The methods registered -/

theorem foldl_addMethod (ms : List (String × (Json → Handler))) (methods : List CallbackMethod) :
    ms.foldl (fun methods m => addMethod methods ⟨str m.1, .null, .rpc m.2⟩) methods =
      methods ++ ms.map fun m => ⟨str m.1, .null, .rpc m.2⟩ := by
  induction ms generalizing methods with
  | nil => exact (List.append_nil _).symm
  | cons m ms ih =>
    rw [List.foldl_cons, ih, addMethod, List.append_assoc]
    rfl

theorem methods_eq : methods ssl =
    RpcHandler.new ++ (registered ssl).map fun m => ⟨str m.1, .null, .rpc m.2⟩ :=
  foldl_addMethod _ _

/-- What is looked up in two lists that go along goes along. -/
theorem find_forall₂ {β γ : Type} {P : β → γ → Prop} {ms : List (String × β)}
    {ss : List (String × γ)} (h : List.Forall₂ (fun m s => m.1 = s.1 ∧ P m.2 s.2) ms ss)
    (name : Str) :
    (ms.find? fun m => str m.1 == name) = none ∧ (ss.find? fun s => str s.1 == name) = none ∨
      ∃ m s, (ms.find? fun m => str m.1 == name) = some m ∧
        (ss.find? fun s => str s.1 == name) = some s ∧ m.1 = s.1 ∧ P m.2 s.2 := by
  induction h with
  | nil => exact .inl ⟨rfl, rfl⟩
  | @cons m s ms ss hms _ ih =>
    obtain ⟨hname, hP⟩ := hms
    rw [List.find?_cons, List.find?_cons, hname]
    cases str s.1 == name with
    | true => exact .inr ⟨m, s, rfl, rfl, hname, hP⟩
    | false => exact ih

/-- A name that is none of the eight has no script. -/
theorem methodScript_eq_none {name : Str}
    (h : ∀ n ∈ ["getinfo", "initiate", "initiatecfos", "participate", "participatecfos", "redeem",
      "refund", "extractsecret"], str n ≠ name) : methodScript ssl name = none := by
  rw [methodScript, List.find?_eq_none.mpr]
  · rfl
  · intro s hs heq
    exact h s.1 (List.mem_map_of_mem (f := Prod.fst) hs) (beq_iff_eq.mp heq)

/-- A method that is found is `system.describe`, or a function that serves the script with
    its name. -/
theorem lookup_methods (name : Str) :
    match lookup (methods ssl) name with
    | none => methodScript ssl name = none
    | some rpc =>
      (rpc.callback = .systemDescribe ∧ methodScript ssl name = none) ∨
        ∃ key method script, rpc.callback = .rpc method ∧ methodScript ssl name = some script ∧
          str key = name ∧ (key, method) ∈ registered ssl ∧ (key, script) ∈ methodScripts ssl ∧
          ∀ root, Serves (script root) root (method root) := by
  rw [lookup, methods_eq, RpcHandler.new, List.singleton_append, List.find?_cons, List.find?_map]
  by_cases hname : str "system.describe" = name
  · subst hname
    rw [beq_self_eq_true]
    exact .inl ⟨rfl, methodScript_eq_none ssl (by decide +kernel)⟩
  · rw [beq_eq_false_iff_ne.mpr hname]
    -- the rest of the list goes along with the scripts
    obtain ⟨hnone, hscript⟩ | ⟨m, s, hm, hs, heq, hserves⟩ := find_forall₂
      (P := fun (method : Json → Handler) (script : Json → CallScript) =>
        ∀ root, Serves (script root) root (method root))
      (registered_serves ssl) name
    · have hmethods : List.find? ((fun m : CallbackMethod => m.name == name) ∘
          fun m => ⟨str m.1, .null, .rpc m.2⟩) (registered ssl) = none := hnone
      rw [hmethods, methodScript, hscript]
      rfl
    · have hmethods : List.find? ((fun m : CallbackMethod => m.name == name) ∘
          fun m => ⟨str m.1, .null, .rpc m.2⟩) (registered ssl) = some m := hm
      rw [hmethods, methodScript, hs]
      have hmem : (m.1, s.2) ∈ methodScripts ssl := by
        rw [heq]
        exact List.mem_of_find?_eq_some hs
      have hfound := List.find?_some hm
      exact .inr ⟨m.1, m.2, s.2, rfl, rfl, beq_iff_eq.mp hfound,
        List.mem_of_find?_eq_some hm, hmem, hserves⟩

end

/-! ## Processing one request -/

section

variable {ssl : OpenSSL} {root : Json}

/-- `Check` finds fault with no id. -/
theorem check_eq_some {error : Json} (h : check root = some error) :
    error = errorReply .null .invalidRequest "Invalid JSON-RPC request." := by
  unfold check at h
  dsimp only at h
  split at h
  · exact (Option.some.inj h).symm
  · split at h
    · exact (Option.some.inj h).symm
    · split at h
      · exact (Option.some.inj h).symm
      · cases h

/-- A request that passes `Check` is an object with a text as its method. -/
theorem object_of_check (h : check root = none) :
    ∃ members name, root = .object members ∧ members.lookup "method" = some (.string name) := by
  unfold check at h
  dsimp only at h
  split at h
  · cases h
  · rename_i hobject
    split at h
    · cases h
    · split at h
      · cases h
      · rename_i hmethod
        cases root with
        | object members =>
          cases hlookup : members.lookup "method" with
          | none => simp [Json.isMember, hlookup] at hmethod
          | some v =>
            cases v with
            | string name => exact ⟨members, name, rfl, hlookup⟩
            | _ => simp [Json.isMember, Json.index, Json.isString, hlookup, Except.toOption] at hmethod
        | null => exact absurd rfl hobject
        | array elems => exact absurd rfl hobject
        | string s => exact absurd rfl hobject
        | bool b => exact absurd rfl hobject
        | int i => exact absurd rfl hobject
        | real q => exact absurd rfl hobject

/-- The request passes `Check`, and this is its method. -/
def Names (root : Json) (key : String) : Prop :=
  check root = none ∧ root.index "method" >>= Json.asString = .ok (str key)

/-- What becomes of a request. -/
inductive Processed (ssl : OpenSSL) (root : Json) : RunScript → Serve Json → Prop
  | invalid {error : Json} : check root = some error → Processed ssl root [] (pure error)
  | notFound : check root = none →
      Processed ssl root []
        (pure (errorReply (requestId root) .methodNotFound "Method not found."))
  | describe : check root = none →
      Processed ssl root [] (EnvM.ofExcept (systemDescribe (methods ssl) root))
  | run {key : String} {method : Json → Handler} {script : Json → CallScript} :
      Names root key → (key, method) ∈ registered ssl → (key, script) ∈ methodScripts ssl →
      Serves (script root) root (method root) →
      Processed ssl root [(script root).Begins] (call (methods ssl) (.rpc method) root)

/-- One of these becomes of every request. -/
theorem processed (root : Json) :
    Processed ssl root (requestScript ssl root) (process (methods ssl) root) := by
  cases hcheck : check root with
  | some error =>
    rw [requestScript, process, hcheck]
    exact .invalid hcheck
  | none =>
    obtain ⟨members, name, rfl, hname⟩ := object_of_check hcheck
    have hindex : (Json.object members).index "method" = .ok (.string name) := by
      rw [Json.index, hname]
      rfl
    have hscript : requestScript ssl (.object members) =
        match methodScript ssl (cStr name) with
        | some script => [(script (.object members)).Begins]
        | none => [] := by
      rw [requestScript, hcheck, hindex]
      rfl
    have hprocess : process (methods ssl) (.object members) =
        (if cStr name ≠ [] then lookup (methods ssl) (cStr name) else none).elim
          (pure (errorReply (requestId (.object members)) .methodNotFound "Method not found."))
          fun rpc => call (methods ssl) rpc.callback (.object members) := by
      have hbind {α β : Type} (a : α) (f : α → Serve β) :
          (EnvM.ofExcept (.ok a) >>= f) = f a := rfl
      rw [process, hcheck, hindex]
      simp only [hbind, Json.asString]
      cases (if cStr name ≠ [] then lookup (methods ssl) (cStr name) else none) with
      | none => rfl
      | some rpc => rfl
    rw [hscript, hprocess]
    by_cases hempty : cStr name = []
    · -- the empty name is not looked up
      rw [if_neg (not_not_intro hempty), methodScript_eq_none ssl (by rw [hempty]; decide +kernel)]
      exact .notFound hcheck
    · rw [if_pos hempty]
      have hlookup := lookup_methods ssl (cStr name)
      split at hlookup
      · rename_i hnone
        -- no method of that name, and no script either
        rw [hnone, hlookup]
        exact .notFound hcheck
      · rename_i rpc hsome
        rw [hsome]
        obtain ⟨hcallback, hscript⟩ | ⟨key, method, script, hcallback, hscript, hkey, hmethod,
          hmem, hserves⟩ := hlookup
        · rw [hscript]
          show Processed ssl _ [] (call (methods ssl) rpc.callback (.object members))
          rw [hcallback]
          exact .describe hcheck
        · rw [hscript]
          show Processed ssl _ [(script (.object members)).Begins]
            (call (methods ssl) rpc.callback (.object members))
          rw [hcallback]
          refine .run ⟨hcheck, ?_⟩ hmethod hmem (hserves _)
          rw [hindex, hkey]
          rfl

end

/-! ## The runs that a text starts -/

section

variable {ssl : OpenSSL}

/-- The program plays the script with its runs of methods. -/
abbrev PlaysRuns {α : Type} (script : RunScript) (x : Serve α) : Prop :=
  EnvM.Plays Session.runs script x

theorem plays_call {methods : List CallbackMethod} {method : Json → Handler} {root : Json}
    {script : CallScript} (h : EnvM.MayPlay World.calls script (method root)) :
    PlaysRuns [script.Begins] (call methods (.rpc method) root) := by
  intro envs s
  -- the method starts in a world of its own, where no call was made yet
  obtain ⟨trace, hcalls, hbegins⟩ := h (envs s.runs.length) World.initial
  have hrun : script.Begins (method root (envs s.runs.length) World.initial).2.calls := by
    rw [hcalls]
    exact hbegins
  exact ⟨_, rfl, .cons hrun .nil, fun _ _ => .cons hrun .nil⟩

theorem plays_process (root : Json) :
    PlaysRuns (requestScript ssl root) (process (methods ssl) root) := by
  have h : Processed ssl root _ _ := processed root
  generalize requestScript ssl root = script at h
  generalize process (methods ssl) root = x at h
  cases h with
  | invalid _ => exact EnvM.plays_pure _
  | notFound _ => exact EnvM.plays_pure _
  | describe _ => exact EnvM.plays_ofExcept _
  | run _ _ _ hserves => exact plays_call hserves.calls

/-- A batch is processed from its first request to its last. -/
theorem plays_processBatch (roots : List Json) :
    PlaysRuns (roots.flatMap (requestScript ssl)) (processBatch (methods ssl) roots) := by
  induction roots with
  | nil => exact EnvM.plays_pure _
  | cons root roots ih =>
    rw [List.flatMap_cons]
    apply EnvM.plays_bind (plays_process root)
    intro ret
    apply EnvM.plays_bind_right ih
    intro rets
    exact EnvM.plays_pure _

theorem plays_processRoot (root : Json) :
    PlaysRuns ((requestsIn root).flatMap (requestScript ssl)) (processRoot (methods ssl) root) := by
  have hone : PlaysRuns ([root].flatMap (requestScript ssl)) (process (methods ssl) root) := by
    rw [List.flatMap_singleton]
    exact plays_process root
  have hbatch (elems : List Json) : PlaysRuns (elems.flatMap (requestScript ssl)) (do
      let rets ← processBatch (methods ssl) elems
      return if rets.isEmpty then Json.null else .array rets) :=
    EnvM.plays_bind_right (plays_processBatch elems) fun _ => EnvM.plays_pure _
  cases root with
  -- a null counts as a batch without requests
  | null => exact hbatch []
  | array elems => exact hbatch elems
  | bool _ => exact hone
  | int _ => exact hone
  | real _ => exact hone
  | string _ => exact hone
  | object _ => exact hone

/-- The runs of methods that a text starts are those of its requests, in order. -/
theorem plays_processMsg (scan : Str → Option ℚ) (msg : Str) :
    PlaysRuns ((requestsOf scan msg).flatMap (requestScript ssl))
      (processMsg scan (methods ssl) msg) := by
  rw [requestsOf, processMsg]
  cases JsonReader.parse scan msg with
  | none => exact EnvM.plays_pure _
  | some root => exact plays_processRoot root

end

end AtomRpc

end CrossChain
