import CrossChain.Native.JsonRpc
import CrossChain.Native.JsonWriter
import CrossChain.Native.Netstring

/-!
# The TCP server

`TcpServer` of jsonrpc_tcpserver.cpp and the loop of `startserver`.  What the
sockets do in one turn of the loop is a `Turn`; an exception that leaves a method
leaves `WaitMessage` too and ends the server.
-/

namespace CrossChain

/-- `EncapsulatedFormat`. -/
inductive EncapsulatedFormat where
  | raw
  | netstring
  deriving DecidableEq, Repr

/-- The members of `TcpServer` and of its `Server`. -/
structure TcpServer where
  /-- `m_sock`. -/
  sock : Int
  /-- `m_format`. -/
  format : EncapsulatedFormat
  /-- `m_jsonHandler`. -/
  methods : List CallbackMethod
  /-- `m_clients`. -/
  clients : List Int
  /-- `m_purge`. -/
  purge : List Int

/-- The server and what it has done. -/
structure ServerWorld where
  server : TcpServer
  session : Session
  /-- What `send` took, with the socket it was sent to. -/
  sent : List (Int × Str)
  /-- The sockets closed. -/
  closed : List Int

/-- A program of the server. -/
abbrev Serving := EnvM (Nat → Env) ServerWorld Exn

/-- The size of the buffer of `Recv`. -/
def recvSize : Nat := 1500

/-- What one `recv` puts into the buffer: nothing if it returns 0 or -1. -/
abbrev Buffer := { bytes : Str // bytes.length ≤ recvSize }

/-- What the calls to the system return in one turn of `WaitMessage`. -/
structure Turn where
  /-- `poll` returns more than 0. -/
  ready : Bool
  /-- `pfd[i].revents & POLLIN`, with what is read there past the end of the array. -/
  pollin : Nat → Bool
  /-- `accept`. -/
  accepted : Int
  /-- `recv`, on the socket of `pfd[i]`. -/
  received : Nat → Buffer
  /-- How many bytes each `send` to the socket of `pfd[i]` takes; the one after fails. -/
  taken : Nat → List Nat

namespace ServerWorld

/-- `m_clients.push_back(client)`. -/
def pushClient (w : ServerWorld) (client : Int) : ServerWorld :=
  { w with server := { w.server with clients := w.server.clients ++ [client] } }

/-- `m_purge.push_back(fd)`. -/
def pushPurge (w : ServerWorld) (fd : Int) : ServerWorld :=
  { w with server := { w.server with purge := w.server.purge ++ [fd] } }

/-- The bytes `data` went to `fd`. -/
def pushSent (w : ServerWorld) (fd : Int) (data : Str) : ServerWorld :=
  { w with sent := w.sent ++ [(fd, data)] }

/-- The loop over `m_purge`. -/
def purgeLoop (w : ServerWorld) : List Int → ServerWorld
  | [] => w
  | s :: purge =>
    purgeLoop { w with
      server := { w.server with clients := w.server.clients.filter (· ≠ s) }
      closed := if s > 0 then w.closed ++ [s] else w.closed } purge

/-- The end of `WaitMessage`: remove disconnected sockets, then empty the list of them. -/
def purged (w : ServerWorld) : ServerWorld :=
  let w' := w.purgeLoop w.server.purge
  { w' with server := { w'.server with purge := [] } }

/-- `TcpServer::Close`. -/
def close (w : ServerWorld) : ServerWorld :=
  { w with
    server := { w.server with clients := [] }
    closed := w.closed ++ w.server.clients }

end ServerWorld

namespace TcpServer

/-- The encoding of a reply, if any. -/
def encapsulate (format : EncapsulatedFormat) (rep : Str) : Str :=
  match format with
  | .raw => rep
  | .netstring => Netstring.encode rep

/-- The decoding of a message, if any. -/
def decapsulate (format : EncapsulatedFormat) (msg : Str) : Except Netstring.NetstringException Str :=
  match format with
  | .raw => .ok msg
  | .netstring => Netstring.decode msg

/-- The loop of `send`: whether it ended without an error, and what was sent. -/
def sendLoop : List Nat → Str → Bool × Str
  | [], _ => (false, [])
  | retVal :: taken, data =>
    if retVal < data.length then
      ((sendLoop taken (data.drop retVal)).1,
        data.take retVal ++ (sendLoop taken (data.drop retVal)).2)
    else (true, data)

/-- A program of the handler. -/
def handled {α : Type} (x : Serve α) : Serving α := fun envs w =>
  ((x envs w.session).1, { w with session := (x envs w.session).2 })

section

variable (d : DoubleText)

/-- The part of `Recv` that follows a `recv` that returned `msg`. -/
def recvMessage (fd : Int) (msg : Str) (taken : List Nat) : Serving Bool := do
  let w ← EnvM.get
  match decapsulate w.server.format msg with
  | .error _ => return false
  | .ok msg => do
    let response ← handled (RpcHandler.processMsg d.scan w.server.methods msg)
    -- in case of a notification the response could be null
    if response.isNull then return true
    else do
      -- what was sent before `send` failed stays sent
      let (ok, sent) := sendLoop taken (encapsulate w.server.format (fastWrite d response))
      EnvM.modify (·.pushSent fd sent)
      return ok

/-- `Recv`. -/
def recv (fd : Int) (buf : Buffer) (taken : List Nat) : Serving Bool :=
  if buf.1 = [] then do
    -- the peer has gone, or `recv` failed
    EnvM.modify (·.pushPurge fd)
    return false
  else recvMessage d fd buf.1 taken

/-- `Accept`. -/
def accept (client : Int) : Serving Bool := do
  let w ← EnvM.get
  if w.server.sock = -1 then return false
  else if client = -1 then return false
  else do
    EnvM.modify (·.pushClient client)
    return true

/-- `if(pfd[i].revents & POLLIN) Recv((*it))`, for a client and its index. -/
def recvReady (t : Turn) (entry : Int × Nat) : Serving Bool :=
  if t.pollin entry.2 then recv d entry.1 (t.received entry.2) (t.taken entry.2) else pure false

/-- The loop over `m_clients`, with the index into `pfd` that goes along. -/
def recvLoop (t : Turn) : List (Int × Nat) → Serving Unit
  | [] => pure ()
  | entry :: entries => do
    let _ ← recvReady d t entry
    recvLoop t entries

/-- `if(pfd[0].revents & POLLIN) Accept()`. -/
def acceptReady (t : Turn) : Serving Bool :=
  if t.pollin 0 then accept t.accepted else pure false

/-- `WaitMessage`. -/
def waitMessage (t : Turn) : Serving Unit :=
  if t.ready then do
    -- the new client is in the list that is read next, though `pfd` was filled before it
    let _ ← acceptReady t
    let w ← EnvM.get
    recvLoop d t (w.server.clients.zipIdx 1)
    EnvM.modify (·.purged)
  else pure ()

/-- The loop of `startserver`, over as many turns as `g_run` holds. -/
def runLoop : List Turn → Serving Unit
  | [] => pure ()
  | t :: turns => do
    waitMessage d t
    runLoop turns

end

/-- The server that `startserver` runs, once it listens on `sock`. -/
def started (ssl : OpenSSL) (sock : Int) : ServerWorld where
  server := ⟨sock, .raw, AtomRpc.methods ssl, [], []⟩
  session := ⟨[]⟩
  sent := []
  closed := []

/-- The loop and the `Close` after it. -/
def startserver (d : DoubleText) (turns : List Turn) : Serving Unit := do
  runLoop d turns
  EnvM.modify (·.close)

end TcpServer

end CrossChain
