import CrossChain.ForStd.Refine
import CrossChain.Native.TcpServer
import CrossChain.Spec.Requests

/-!
# Serving

What the server is for, without its sockets: messages come in one after the
other and each is answered (`answerAll`).  Whatever the sockets do, a run of the
server is that, for the messages they hand over (`startserver_refines`).
-/

namespace CrossChain

open RpcHandler TcpServer

/-! ## Answering messages -/

/-- A message, with the socket it came from. -/
structure Message where
  fd : Int
  text : Str
  /-- How many bytes each `send` of the reply takes. -/
  taken : List Nat

/-- What was done for the messages so far. -/
structure Desk where
  session : Session
  /-- What was sent, and to which socket. -/
  sent : List (Int × Str)

/-- A program that answers messages. -/
abbrev Answering := EnvM (Nat → Env) Desk Exn

/-- A program of the handler. -/
def Desk.handled {α : Type} (x : Serve α) : Answering α := fun envs s =>
  ((x envs s.session).1, { s with session := (x envs s.session).2 })

section

variable (d : DoubleText) (format : EncapsulatedFormat) (methods : List CallbackMethod)

/-- The reply as it is sent: as much of it as the sends take. -/
def replyText (m : Message) (response : Json) : Str :=
  (sendLoop m.taken (encapsulate format (fastWrite d response))).2

/-- Answer one message: to a null response there is no reply. -/
def answer (m : Message) : Answering Unit := do
  let response ← Desk.handled (processMsg d.scan methods m.text)
  if response.isNull then pure ()
  else EnvM.modify fun s => { s with sent := s.sent ++ [(m.fd, replyText d format m response)] }

/-- Answer messages in order. -/
def answerAll : List Message → Answering Unit
  | [] => pure ()
  | m :: ms => do
    answer d format methods m
    answerAll ms

end

/-! ## The messages of a turn -/

namespace Turn

/-- `Accept` adds a client. -/
def accepts (t : Turn) (server : TcpServer) : Bool :=
  t.pollin 0 && server.sock ≠ -1 && t.accepted ≠ -1

/-- The clients whose sockets are read. -/
def clients (t : Turn) (server : TcpServer) : List Int :=
  if t.accepts server then server.clients ++ [t.accepted] else server.clients

/-- They go with the indices from 1 on. -/
def entries (t : Turn) (server : TcpServer) : List (Int × Nat) := (t.clients server).zipIdx 1

/-- The message of an entry. -/
def message (t : Turn) (format : EncapsulatedFormat) (entry : Int × Nat) : Option Message :=
  if t.pollin entry.2 && !(t.received entry.2).1.isEmpty then
    (decapsulate format (t.received entry.2).1).toOption.map fun text =>
      ⟨entry.1, text, t.taken entry.2⟩
  else none

/-- The socket of an entry, if there is nothing to read from it. -/
def gone (t : Turn) (entry : Int × Nat) : Option Int :=
  if t.pollin entry.2 && (t.received entry.2).1.isEmpty then some entry.1 else none

/-- The messages a turn hands over. -/
def messages (t : Turn) (server : TcpServer) : List Message :=
  if t.ready then (t.entries server).filterMap (t.message server.format) else []

/-- The sockets a turn purges. -/
def purges (t : Turn) (server : TcpServer) : List Int :=
  server.purge ++ (t.entries server).filterMap t.gone

/-- The sockets a turn closes. -/
def closes (t : Turn) (server : TcpServer) : List Int :=
  if t.ready then (t.purges server).filter (0 < ·) else []

/-- The server after the turn. -/
def after (t : Turn) (server : TcpServer) : TcpServer :=
  if t.ready then
    { server with
      clients := (t.clients server).filter (· ∉ t.purges server)
      purge := [] }
  else server

end Turn

/-- The messages of some turns. -/
def inbox : TcpServer → List Turn → List Message
  | _, [] => []
  | server, t :: turns => t.messages server ++ inbox (t.after server) turns

/-! ## The server refines it -/

namespace ServerWorld

/-- What the server has done for the messages. -/
def desk (w : ServerWorld) : Desk := ⟨w.session, w.sent⟩

/-- The sockets are as they are here. -/
def At (server : TcpServer) (closed : List Int) (w : ServerWorld) : Prop :=
  w.server = server ∧ w.closed = closed

end ServerWorld

/-- With more sockets to purge. -/
def TcpServer.purging (server : TcpServer) (fds : List Int) : TcpServer :=
  { server with purge := server.purge ++ fds }

theorem TcpServer.purging_nil (server : TcpServer) : server.purging [] = server := by
  rw [purging, List.append_nil]

theorem TcpServer.purging_append (server : TcpServer) (fds fds' : List Int) :
    server.purging (fds ++ fds') = (server.purging fds).purging fds' := by
  rw [purging, ← List.append_assoc]
  rfl

open ServerWorld

section

variable {d : DoubleText} {server : TcpServer} {closed : List Int}

/-- What is handed to the handler is done at the desk. -/
theorem handled_refines {α : Type} (x : Serve α) :
    EnvM.Refines desk (At server closed) (fun a b w => a = b ∧ At server closed w) (handled x)
      (Desk.handled x) := by
  intro envs w hw
  refine ⟨rfl, ?_⟩
  show EnvM.SameEnd _ (x envs w.session).1 (x envs w.session).1
  cases (x envs w.session).1 with
  | error e => rfl
  | ok a => exact ⟨rfl, hw⟩

theorem recvMessage_refines (fd : Int) (msg : Str) (taken : List Nat) :
    EnvM.Refines desk (At server closed) (fun _ _ => At server closed)
      (recvMessage d fd msg taken)
      (match decapsulate server.format msg with
        | .error _ => pure ()
        | .ok text => answer d server.format server.methods ⟨fd, text, taken⟩) := by
  intro envs w hw
  obtain ⟨rfl, rfl⟩ := hw
  rw [recvMessage, EnvM.bind_run_of_ok (EnvM.get_run _ _)]
  cases decapsulate w.server.format msg with
  | error e => exact ⟨rfl, rfl, rfl⟩
  | ok text =>
    refine EnvM.refines_bind (handled_refines _) ?_ envs w ⟨rfl, rfl⟩
    intro response response' envs w' hw'
    obtain ⟨rfl, hat⟩ := hw'
    cases response.isNull with
    | true => exact ⟨rfl, hat⟩
    | false => exact ⟨rfl, hat⟩

/-- Reading from one socket: a message is answered, and nothing to read purges it. -/
theorem recvReady_refines (t : Turn) (entry : Int × Nat) :
    EnvM.Refines desk (At server closed)
      (fun _ _ => At (server.purging (t.gone entry).toList) closed)
      (recvReady d t entry)
      (answerAll d server.format server.methods (t.message server.format entry).toList) := by
  unfold Turn.gone Turn.message recvReady recv
  cases t.pollin entry.2 with
  | false =>
    intro envs w hw
    exact ⟨rfl, server.purging_nil.symm ▸ hw⟩
  | true =>
    by_cases hbuf : (t.received entry.2).1 = []
    · -- the peer is gone
      rw [if_pos rfl, if_pos hbuf, hbuf]
      intro envs w hw
      obtain ⟨rfl, rfl⟩ := hw
      exact ⟨rfl, rfl, rfl⟩
    · have hmessage : (t.received entry.2).1.isEmpty = false := by
        rw [List.isEmpty_eq_false_iff]
        exact hbuf
      rw [if_pos rfl, if_neg hbuf, hmessage]
      simp only [Bool.and_false, Bool.not_false, Bool.and_true, if_true, Bool.false_eq_true,
        if_false, Option.toList_none, TcpServer.purging_nil]
      have hrecv : EnvM.Refines desk (At server closed) (fun _ _ => At server closed)
          (recvMessage d entry.1 (t.received entry.2).1 (t.taken entry.2)) _ :=
        recvMessage_refines _ _ _
      cases hdec : decapsulate server.format (t.received entry.2).1 with
      | error e =>
        -- a text that is no netstring is dropped without a reply
        rw [hdec] at hrecv
        exact hrecv
      | ok text =>
        rw [hdec] at hrecv
        have hone : answerAll d server.format server.methods
            [⟨entry.1, text, t.taken entry.2⟩] =
              (answer d server.format server.methods ⟨entry.1, text, t.taken entry.2⟩ >>= pure) :=
          rfl
        show EnvM.Refines desk (At server closed) (fun _ _ => At server closed) _
          (answerAll d server.format server.methods [⟨entry.1, text, t.taken entry.2⟩])
        rw [hone, EnvM.bind_pure]
        exact hrecv

theorem answerAll_append (format : EncapsulatedFormat) (methods : List CallbackMethod)
    (ms ms' : List Message) :
    answerAll d format methods (ms ++ ms') =
      answerAll d format methods ms >>= fun _ => answerAll d format methods ms' := by
  induction ms with
  | nil => rfl
  | cons m ms ih =>
    rw [List.cons_append, answerAll, answerAll, EnvM.bind_assoc, ih]

theorem filterMap_cons_toList {α β : Type} (f : α → Option β) (a : α) (as : List α) :
    (a :: as).filterMap f = (f a).toList ++ as.filterMap f := by
  rw [List.filterMap_cons]
  cases f a with
  | none => rfl
  | some b => rfl

/-- The clients are read in order, and answered in that order. -/
theorem recvLoop_refines (t : Turn) (entries : List (Int × Nat)) :
    EnvM.Refines desk (At server closed)
      (fun _ _ => At (server.purging (entries.filterMap t.gone)) closed)
      (recvLoop d t entries)
      (answerAll d server.format server.methods
        (entries.filterMap (t.message server.format))) := by
  induction entries generalizing server with
  | nil =>
    intro envs w hw
    exact ⟨rfl, server.purging_nil.symm ▸ hw⟩
  | cons entry entries ih =>
    -- the induction goes over the server too: the first entry may add to the sockets to purge
    have hgone : (entry :: entries).filterMap t.gone =
        (t.gone entry).toList ++ entries.filterMap t.gone :=
      filterMap_cons_toList _ _ _
    have hmessages : (entry :: entries).filterMap (t.message server.format) =
        (t.message server.format entry).toList ++ entries.filterMap (t.message server.format) :=
      filterMap_cons_toList _ _ _
    rw [recvLoop, hgone, hmessages, answerAll_append, TcpServer.purging_append]
    apply EnvM.refines_bind (recvReady_refines t entry)
    intro b u
    exact ih

/-! ## Turns -/

/-- Removing disconnected sockets one after the other. -/
theorem purgeLoop_eq (w : ServerWorld) (purge : List Int) :
    w.purgeLoop purge = { w with
      server := { w.server with clients := w.server.clients.filter (· ∉ purge) }
      closed := w.closed ++ purge.filter (0 < ·) } := by
  induction purge generalizing w with
  | nil => simp [ServerWorld.purgeLoop]
  | cons s purge ih =>
    rw [ServerWorld.purgeLoop, ih]
    have hclients : (w.server.clients.filter (· ≠ s)).filter (· ∉ purge) =
        w.server.clients.filter (· ∉ s :: purge) := by
      rw [List.filter_filter]
      congr 1
      funext c
      simp [Bool.and_comm]
    have hclosed : (if s > 0 then w.closed ++ [s] else w.closed) ++ purge.filter (0 < ·) =
        w.closed ++ (s :: purge).filter (0 < ·) := by
      by_cases hs : s > 0
      · simp [hs]
      · simp [hs]
    simp only [hclients, hclosed]

/-- `Accept` adds the client that a turn adds, and sends nothing. -/
theorem acceptReady_refines (t : Turn) :
    EnvM.Refines desk (At server closed)
      (fun _ _ => At { server with clients := t.clients server } closed)
      (acceptReady t) (pure ()) := by
  apply EnvM.refines_pure
  intro envs w hw
  obtain ⟨rfl, rfl⟩ := hw
  unfold acceptReady accept Turn.clients Turn.accepts
  cases t.pollin 0 with
  | false => exact ⟨false, w, rfl, rfl, rfl, rfl⟩
  | true =>
    rw [if_pos rfl, EnvM.bind_run_of_ok (EnvM.get_run _ _)]
    by_cases hsock : w.server.sock = -1
    · -- a server that does not listen accepts nobody
      rw [if_pos hsock, if_neg (by simp [hsock])]
      exact ⟨false, w, rfl, rfl, rfl, rfl⟩
    · rw [if_neg hsock]
      by_cases hclient : t.accepted = -1
      · -- `accept` failed
        rw [if_pos hclient, if_neg (by simp [hclient])]
        exact ⟨false, w, rfl, rfl, rfl, rfl⟩
      · rw [if_neg hclient, if_pos (by simp [hsock, hclient])]
        exact ⟨true, w.pushClient t.accepted, rfl, rfl, rfl, rfl⟩

/-- A turn answers the messages that it hands over. -/
theorem waitMessage_refines (t : Turn) :
    EnvM.Refines desk (At server closed)
      (fun _ _ => At (t.after server) (closed ++ t.closes server)) (waitMessage d t)
      (answerAll d server.format server.methods (t.messages server)) := by
  unfold waitMessage Turn.messages Turn.after Turn.closes
  cases t.ready with
  | false =>
    intro envs w hw
    refine ⟨rfl, hw.1, ?_⟩
    show w.closed = closed ++ []
    rw [List.append_nil]
    exact hw.2
  | true =>
    apply EnvM.refines_pure_bind (acceptReady_refines t)
    intro b envs w hw
    rw [EnvM.bind_run_of_ok (EnvM.get_run _ _)]
    have hloop : EnvM.Refines desk (At { server with clients := t.clients server } closed) _
        (recvLoop d t (t.entries server)) _ := recvLoop_refines t (t.entries server)
    have hentries : w.server.clients.zipIdx 1 = t.entries server := by
      rw [hw.1]
      rfl
    rw [hentries]
    refine EnvM.refines_bind_pure hloop ?_ envs w hw
    -- what is left is to purge the sockets that the loop found closed
    intro u u' envs w hw
    obtain ⟨hserver, rfl⟩ := hw
    have hpurged : w.purged = { w with
        server := { server with
          clients := (t.clients server).filter (· ∉ t.purges server)
          purge := [] }
        closed := w.closed ++ (t.purges server).filter (0 < ·) } := by
      rw [ServerWorld.purged, purgeLoop_eq, hserver]
      rfl
    have hrun : (EnvM.modify (·.purged) : Serving Unit) envs w = (.ok (), w.purged) := rfl
    rw [hrun, hpurged]
    exact ⟨rfl, rfl, rfl⟩

/-- The server after some turns. -/
def afterAll (server : TcpServer) (turns : List Turn) : TcpServer :=
  turns.foldl (fun server t => t.after server) server

/-- The sockets some turns close. -/
def closesAll : TcpServer → List Turn → List Int
  | _, [] => []
  | server, t :: turns => t.closes server ++ closesAll (t.after server) turns

theorem Turn.after_format (t : Turn) (server : TcpServer) :
    (t.after server).format = server.format ∧ (t.after server).methods = server.methods := by
  unfold Turn.after
  cases t.ready with
  | false => exact ⟨rfl, rfl⟩
  | true => exact ⟨rfl, rfl⟩

/-- So do all turns together. -/
theorem runLoop_refines (turns : List Turn) :
    EnvM.Refines desk (At server closed)
      (fun _ _ => At (afterAll server turns) (closed ++ closesAll server turns)) (runLoop d turns)
      (answerAll d server.format server.methods (inbox server turns)) := by
  induction turns generalizing server closed with
  | nil =>
    intro envs w hw
    refine ⟨rfl, hw.1, ?_⟩
    show w.closed = closed ++ []
    rw [List.append_nil]
    exact hw.2
  | cons t turns ih =>
    rw [runLoop, inbox, answerAll_append]
    apply EnvM.refines_bind (waitMessage_refines t)
    intro u u'
    have hrest : EnvM.Refines desk (At (t.after server) (closed ++ t.closes server)) _
        (runLoop d turns) _ := ih
    -- the messages are answered with the format and methods there were at the start
    obtain ⟨hformat, hmethods⟩ := t.after_format server
    rw [hformat, hmethods, List.append_assoc] at hrest
    exact hrest

end

end CrossChain
