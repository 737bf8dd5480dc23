import CrossChain.Spec.Requests

/-!
# Replies

What the handler replies: to each request it processes a reply with the
request's id and either a result or an error, whether the request asks for one
or not (`processMsg_answers`).
-/

namespace CrossChain

open RpcHandler AtomRpc

/-- The id a reply is given: that of a request that passes `Check`, if it has one. -/
def replyId (root : Json) : Json :=
  match check root with
  | some _ => .null
  | none => requestId root

/-- A reply of JSON-RPC 2.0 to the request: the version, its id, and either a result or an
    error. -/
structure IsReply (root : Json) (members : Object) : Prop where
  version : members.lookup "jsonrpc" = some (.string (str "2.0"))
  id : members.lookup "id" = some (replyId root)
  outcome : (members.lookup "result").isSome = !(members.lookup "error").isSome

/-- The response is such a reply. -/
def Replies (root response : Json) : Prop :=
  ∃ members, response = .object members ∧ IsReply root members

/-- The response to a value: none to an empty batch, one to each request of a batch. -/
def Responds (root response : Json) : Prop :=
  if root.isArray then
    (requestsIn root = [] ∧ response = .null) ∨
      ∃ replies, requestsIn root ≠ [] ∧ response = .array replies ∧
        List.Forall₂ Replies (requestsIn root) replies
  else Replies root response

section

variable {ssl : OpenSSL} {envs : Nat → Env} {s s' : Session} {root response : Json}

/-- The handler's own replies say what is wrong. -/
theorem errorReply_lookup (id : Json) (code : ErrorCode) (message : String) :
    ∃ members error, errorReply id code message = .object members ∧
      members.lookup "jsonrpc" = some (.string (str "2.0")) ∧ members.lookup "id" = some id ∧
      members.lookup "error" = some error ∧ members.lookup "result" = none := by
  refine ⟨_, _, rfl, ?_, ?_, Object.lookup_set_self _ _ _, ?_⟩
  · rw [Object.lookup_set_ne _ _ (by decide)]
    exact Object.lookup_set_self _ _ _
  · rw [Object.lookup_set_ne _ _ (by decide), Object.lookup_set_ne _ _ (by decide)]
    exact Object.lookup_set_self _ _ _
  · rw [Object.lookup_set_ne _ _ (by decide), Object.lookup_set_ne _ _ (by decide),
      Object.lookup_set_ne _ _ (by decide)]
    rfl

theorem replies_errorReply {code : ErrorCode} {message : String} :
    Replies root (errorReply (replyId root) code message) := by
  obtain ⟨members, error, hmembers, hversion, hid, herror, hresult⟩ :=
    errorReply_lookup (replyId root) code message
  refine ⟨members, hmembers, hversion, hid, ?_⟩
  rw [herror, hresult]
  rfl

/-- What a method reads as the id is what a reply is given. -/
theorem index_id (h : check root = none) : root.index "id" = .ok (replyId root) := by
  have hid : replyId root = requestId root := by
    rw [replyId, h]
  obtain ⟨members, name, rfl, _⟩ := object_of_check h
  rw [hid, requestId, Json.isMember, Json.index]
  cases members.lookup "id" with
  | none => rfl
  | some v => rfl

theorem replies_systemDescribe (hcheck : check root = none)
    (h : systemDescribe (methods ssl) root = .ok response) : Replies root response := by
  rw [systemDescribe, index_id hcheck] at h
  cases h
  refine ⟨_, rfl, ?_, ?_, ?_⟩
  · rw [Object.lookup_set_ne _ _ (by decide), Object.lookup_set_ne _ _ (by decide)]
    exact Object.lookup_set_self _ _ _
  · rw [Object.lookup_set_ne _ _ (by decide)]
    exact Object.lookup_set_self _ _ _
  · rw [Object.lookup_set_self, Object.lookup_set_ne _ _ (by decide),
      Object.lookup_set_ne _ _ (by decide), Object.lookup_set_ne _ _ (by decide)]
    rfl

/-- The response of a method that returned is its reply. -/
theorem replies_of_enveloped {w : World} (hcheck : check root = none)
    (h : Enveloped root World.initial w) : Replies root (responseOf w.response) := by
  obtain ⟨id, hindex, hid⟩ := h.id
  obtain ⟨result, hresult⟩ := h.result
  rw [index_id hcheck] at hindex
  cases hindex
  have hne : w.response.isEmpty = false := by
    rw [List.isEmpty_eq_false_iff]
    intro hnil
    rw [hnil] at hid
    cases hid
  refine ⟨w.response, ?_, h.version, hid, ?_⟩
  · rw [responseOf, hne]
    rfl
  · rw [hresult, h.error]
    rfl

/-- A request that was processed has its reply. -/
theorem process_replies (h : process (methods ssl) root envs s = (.ok response, s')) :
    Replies root response := by
  have hprocessed : Processed ssl root _ _ := processed root
  generalize process (methods ssl) root = x at h hprocessed
  generalize requestScript ssl root = script at hprocessed
  cases hprocessed with
  | @invalid error hcheck =>
    cases h
    have hid : replyId root = .null := by
      rw [replyId, hcheck]
    rw [check_eq_some hcheck, ← hid]
    exact replies_errorReply
  | notFound hcheck =>
    cases h
    have hid : replyId root = requestId root := by
      rw [replyId, hcheck]
    rw [← hid]
    exact replies_errorReply
  | describe hcheck =>
    exact replies_systemDescribe hcheck (EnvM.ofExcept_eq_ok_iff.mp h).1
  | @run key method script hnames hmethod hmem hserves =>
    have hcall : call (methods ssl) (.rpc method) root envs s =
        ((method root (envs s.runs.length) World.initial).1.map fun _ =>
            responseOf (method root (envs s.runs.length) World.initial).2.response,
          ⟨s.runs ++ [(method root (envs s.runs.length) World.initial).2.calls]⟩) := rfl
    rw [hcall] at h
    rcases hrun : method root (envs s.runs.length) World.initial with ⟨e | ok, w⟩
    · rw [hrun] at h
      cases h
    · rw [hrun] at h
      cases h
      exact replies_of_enveloped hnames.1 (hserves.response _ _ _ _ hrun)

/-- The reply to a request is not null, so none is left out of a batch. -/
theorem processBatch_replies {roots replies : List Json}
    (h : processBatch (methods ssl) roots envs s = (.ok replies, s')) :
    List.Forall₂ Replies roots replies := by
  induction roots generalizing s replies with
  | nil =>
    cases h
    exact .nil
  | cons root roots ih =>
    obtain ⟨ret, s₁, hret, h⟩ := EnvM.bind_eq_ok_iff.mp h
    obtain ⟨rets, s₂, hrets, h⟩ := EnvM.bind_eq_ok_iff.mp h
    have hreply := process_replies hret
    -- an object is not null, so the loop keeps it
    obtain ⟨members, rfl, _⟩ := id hreply
    cases h
    exact .cons hreply (ih hrets)

/-- What the handler answers to a value: to nothing but an empty batch is there no response. -/
theorem processRoot_responds (h : processRoot (methods ssl) root envs s = (.ok response, s')) :
    Responds root response := by
  have hbatch (elems : List Json) (h : (do
      let rets ← processBatch (AtomRpc.methods ssl) elems
      return if rets.isEmpty then Json.null else .array rets : Serve Json) envs s =
        (.ok response, s')) :
      (elems = [] ∧ response = .null) ∨ ∃ replies, elems ≠ [] ∧ response = .array replies ∧
        List.Forall₂ Replies elems replies := by
    obtain ⟨rets, s₁, hrets, h⟩ := EnvM.bind_eq_ok_iff.mp h
    have hreplies := processBatch_replies hrets
    cases hreplies with
    | nil =>
      cases h
      exact .inl ⟨rfl, rfl⟩
    | cons hreply hrest =>
      cases h
      exact .inr ⟨_, List.cons_ne_nil _ _, rfl, .cons hreply hrest⟩
  have hone (v : Json) (h : process (AtomRpc.methods ssl) v envs s = (.ok response, s')) :
      Replies v response := process_replies h
  unfold Responds
  cases root with
  | null => exact hbatch [] h
  | array elems => exact hbatch elems h
  | bool _ => exact hone _ h
  | int _ => exact hone _ h
  | real _ => exact hone _ h
  | string _ => exact hone _ h
  | object _ => exact hone _ h

/-- What the handler answers to a text. -/
def AnswersText (scan : Str → Option ℚ) (msg : Str) (response : Json) : Prop :=
  match JsonReader.parse scan msg with
  | none => response = errorReply .null .parsingError "Parse error."
  | some root => Responds root response

theorem processMsg_answers {scan : Str → Option ℚ} {msg : Str}
    (h : processMsg scan (methods ssl) msg envs s = (.ok response, s')) :
    AnswersText scan msg response := by
  unfold processMsg at h
  unfold AnswersText
  cases hparse : JsonReader.parse scan msg with
  | none =>
    rw [hparse] at h
    cases h
    rfl
  | some root =>
    rw [hparse] at h
    exact processRoot_responds h

end

end CrossChain
