import CrossChain.Native.Handlers
import CrossChain.Native.JsonReader

/-!
# The JSON-RPC handler

jsonrpc-cpp's `Handler`: the methods registered, the checks on a request, single
requests and batches.  A method of `AtomRpc` runs in the world of one request;
a `Session` is what these runs have done so far, and the `n`-th of them sees the
`n`-th environment.
-/

namespace CrossChain

/-- `ErrorCode`. -/
inductive ErrorCode where
  | parsingError
  | invalidRequest
  | methodNotFound
  | invalidParams
  | internalError
  deriving DecidableEq, Repr

def ErrorCode.value : ErrorCode → Int
  | parsingError => -32700
  | invalidRequest => -32600
  | methodNotFound => -32601
  | invalidParams => -32602
  | internalError => -32603

/-- The function a method calls. -/
inductive Callback where
  /-- `Handler::SystemDescribe`. -/
  | systemDescribe
  /-- A function of `AtomRpc`. -/
  | rpc (method : Json → Handler)

/-- `RpcMethod`. -/
structure CallbackMethod where
  name : Str
  description : Json
  callback : Callback

/-- What the requests so far have done. -/
structure Session where
  /-- The calls made for each request that was handed to a function of `AtomRpc`. -/
  runs : List (List RpcCall)

/-- A program of the server, with an environment for each request. -/
abbrev Serve := EnvM (Nat → Env) Session Exn

namespace RpcHandler

/-! ## The methods registered -/

/-- `Handler::Handler`. -/
def new : List CallbackMethod :=
  [⟨str "system.describe",
    .object [("description", .string (str "List the RPC methods available")),
      ("parameters", .null),
      ("returns",
        .string (str "Object that contains description of all methods registered"))],
    .systemDescribe⟩]

/-- `AddMethod`. -/
def addMethod (methods : List CallbackMethod) (method : CallbackMethod) : List CallbackMethod :=
  methods ++ [method]

/-- `DeleteMethod`. -/
def deleteMethod (methods : List CallbackMethod) (name : Str) : List CallbackMethod :=
  -- do not delete system defined method
  if name = str "system.describe" then methods else methods.eraseP fun m => m.name == name

/-- `Lookup`. -/
def lookup (methods : List CallbackMethod) (name : Str) : Option CallbackMethod :=
  methods.find? fun m => m.name == name

/-! ## Replies -/

/-- A reply of the handler itself. -/
def errorReply (id : Json) (code : ErrorCode) (message : String) : Json :=
  .object (((Object.set [] "id" id).set "jsonrpc" (.string (str "2.0"))).set "error"
    (.object ((Object.set [] "code" (.int code.value)).set "message" (.string (str message)))))

/-- What `response` holds after the assignments to its members. -/
def responseOf (response : Object) : Json := if response.isEmpty then .null else .object response

/-- `SystemDescribe`: the reply, its result listing the methods with their descriptions. -/
def systemDescribe (methods : List CallbackMethod) (msg : Json) : Except Exn Json := do
  let id ← msg.index "id"
  let described := methods.foldl (fun o m => Object.set o (nameOf (cStr m.name)) m.description) []
  return .object (((Object.set [] "jsonrpc" (.string (str "2.0"))).set "id" id).set "result"
    (responseOf described))

/-- `rpc->Call`, whose result the handler's callers ignore. -/
def call (methods : List CallbackMethod) : Callback → Json → Serve Json
  | .systemDescribe, msg => EnvM.ofExcept (systemDescribe methods msg)
  | .rpc method, msg => fun envs s =>
    -- an exception keeps the calls made before it
    let (result, w) := method msg (envs s.runs.length) World.initial
    (result.map fun _ => responseOf w.response, ⟨s.runs ++ [w.calls]⟩)

/-! ## Requests -/

/-- `Check`: the reply if the request is not one of JSON-RPC 2.0. -/
def check (root : Json) : Option Json :=
  let error := errorReply .null .invalidRequest "Invalid JSON-RPC request."
  let jsonrpc := (root.index "jsonrpc").toOption.getD .null
  let id := (root.index "id").toOption.getD .null
  let method := (root.index "method").toOption.getD .null
  -- jsoncpp takes a null for an object, but one without members
  if !root.isObject || !root.isMember "jsonrpc" || !jsonrpc.equalsText "2.0" then some error
  else if root.isMember "id" && (id.isArray || id.isObject) then some error
  else if !root.isMember "method" || !method.isString then some error
  else none

/-- `root.isMember("id") ? root["id"] : null`. -/
def requestId (root : Json) : Json :=
  if root.isMember "id" then (root.index "id").toOption.getD .null else .null

/-- `Process` of one request. -/
def process (methods : List CallbackMethod) (root : Json) : Serve Json :=
  match check root with
  | some error => pure error
  | none => do
    let v ← EnvM.ofExcept (root.index "method")
    let method ← EnvM.ofExcept v.asString
    match (if method ≠ [] then lookup methods method else none) with
    | some rpc => call methods rpc.callback root
    | none => pure (errorReply (requestId root) .methodNotFound "Method not found.")

/-- The loop over a batched call: the responses that are not null. -/
def processBatch (methods : List CallbackMethod) : List Json → Serve (List Json)
  | [] => pure []
  | root :: roots => do
    let ret ← process methods root
    let rets ← processBatch methods roots
    return if ret.isNull then rets else ret :: rets

/-- `Process` of a parsed text. -/
def processRoot (methods : List CallbackMethod) (root : Json) : Serve Json :=
  if root.isArray then do
    -- jsoncpp takes a null for an array with no elements
    let elems := match root with
      | .array elems => elems
      | _ => []
    let rets ← processBatch methods elems
    return if rets.isEmpty then .null else .array rets
  else process methods root

/-- `Process` of a text. -/
def processMsg (scan : Str → Option ℚ) (methods : List CallbackMethod) (msg : Str) : Serve Json :=
  match JsonReader.parse scan msg with
  | none => pure (errorReply .null .parsingError "Parse error.")
  | some root => processRoot methods root

end RpcHandler

/-! ## The methods of the server -/

namespace AtomRpc

/-- `AtomGetInfo`. -/
def atomGetInfo (root : Json) : Handler := do
  respond "jsonrpc" (.string (str "2.0"))
  let id ← EnvM.ofExcept (root.index "id")
  respond "id" id
  respond "result" (.string (str "success"))
  respond "version" (.real (1 / 10))
  return true

/-- The methods `startserver` registers, in its order. -/
def registered (ssl : OpenSSL) : List (String × (Json → Handler)) :=
  [("getinfo", atomGetInfo), ("initiate", atomInitiate ssl),
    ("initiatecfos", atomInitiateCfos ssl), ("participate", atomParticipate ssl),
    ("participatecfos", atomParticipateCfos ssl), ("redeem", atomRedeemCoin ssl),
    ("refund", atomRefundCoin ssl), ("extractsecret", atomExtractSecret ssl)]

/-- The handler of `startserver`. -/
def methods (ssl : OpenSSL) : List CallbackMethod :=
  (registered ssl).foldl (fun ms m => RpcHandler.addMethod ms ⟨str m.1, .null, .rpc m.2⟩)
    RpcHandler.new

end AtomRpc

end CrossChain
