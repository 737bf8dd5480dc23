import CrossChain.Spec.Replies
import CrossChain.Spec.Serving
import CrossChain.Spec.Spending

/-!
# Runs of the server

A run of `startserver` is any number of turns with any behaviour of the sockets,
of the nodes, of the clock and of the random generator.  It answers the messages
it reads one after the other (`startserver_serves`); the calls it makes are those
of the requests in them (`startserver_calls`), and what it sends are the replies
to them (`startserver_sends`).
-/

namespace CrossChain

open RpcHandler TcpServer AtomRpc ServerWorld

/-! ## What is sent of a reply -/

/-- The loop of sends gets out what its calls take together. -/
theorem sendLoop_eq (taken : List Nat) {data : Str} (h : data ≠ []) :
    sendLoop taken data = (decide (data.length ≤ taken.sum), data.take taken.sum) := by
  induction taken generalizing data with
  | nil =>
    have hpos : 0 < data.length := List.length_pos_iff.mpr h
    rw [sendLoop, List.sum_nil, List.take_zero, decide_eq_false (by omega)]
  | cons n taken ih =>
    rw [sendLoop, List.sum_cons]
    by_cases hn : n < data.length
    · have hdrop : data.drop n ≠ [] := by
        rw [Ne, List.drop_eq_nil_iff]
        omega
      rw [if_pos hn, ih hdrop, List.length_drop, List.take_add]
      congr 1
      rw [decide_eq_decide]
      omega
    · rw [if_neg hn, decide_eq_true (by omega), List.take_of_length_le (by omega)]

/-! ## The calls of a run -/

section

variable {d : DoubleText} {ssl : OpenSSL} {format : EncapsulatedFormat}

/-- The requests in some messages. -/
def requests (scan : Str → Option ℚ) (ms : List Message) : List Json :=
  ms.flatMap fun m => requestsOf scan m.text

theorem plays_handled {script : RunScript} {α : Type} {x : Serve α}
    (h : EnvM.Plays Session.runs script x) :
    EnvM.Plays (fun s : Desk => s.session.runs) script (Desk.handled x) :=
  fun envs s => h envs s.session

theorem plays_answerAll (ms : List Message) :
    EnvM.Plays (fun s : Desk => s.session.runs)
      ((requests d.scan ms).flatMap (requestScript ssl))
      (answerAll d format (methods ssl) ms) := by
  induction ms with
  | nil => exact EnvM.plays_pure _
  | cons m ms ih =>
    rw [requests, List.flatMap_cons, List.flatMap_append]
    refine EnvM.plays_bind ?_ fun _ => ih
    apply EnvM.plays_bind_right (plays_handled (plays_processMsg d.scan m.text))
    intro response
    exact EnvM.plays_ite (EnvM.plays_pure _) (EnvM.plays_modify fun _ => rfl)

end

/-! ## The replies of a run -/

section

variable {d : DoubleText} {ssl : OpenSSL} {format : EncapsulatedFormat}

/-- What goes out for a message and the response to it. -/
def sentFor (d : DoubleText) (format : EncapsulatedFormat) (m : Message) (response : Json) :
    List (Int × Str) :=
  if response.isNull then []
  else [(m.fd, (encapsulate format (fastWrite d response)).take m.taken.sum)]

theorem encapsulate_ne_nil (response : Json) : encapsulate format (fastWrite d response) ≠ [] := by
  have hwrite : fastWrite d response ≠ [] := by
    rw [fastWrite]
    exact List.append_ne_nil_of_right_ne_nil _ (by decide)
  cases format with
  | raw => exact hwrite
  | netstring => exact List.append_ne_nil_of_right_ne_nil _ (by decide)

/-- A message that was answered: what went out is the reply to it. -/
theorem answer_eq_ok {m : Message} {envs : Nat → Env} {s s' : Desk}
    (h : answer d format (methods ssl) m envs s = (.ok (), s')) :
    ∃ response, AnswersText d.scan m.text response ∧
      s'.sent = s.sent ++ sentFor d format m response := by
  obtain ⟨response, s₁, hrun, h⟩ := EnvM.bind_eq_ok_iff.mp h
  have hresult : (processMsg d.scan (methods ssl) m.text envs s.session).1 = .ok response :=
    congrArg Prod.fst hrun
  have hstate : { s with session := (processMsg d.scan (methods ssl) m.text envs s.session).2 } = s₁ :=
    congrArg Prod.snd hrun
  refine ⟨response, processMsg_answers (Prod.ext hresult rfl), ?_⟩
  subst hstate
  unfold sentFor
  cases hnull : response.isNull with
  | true =>
    rw [hnull] at h
    cases h
    exact (List.append_nil _).symm
  | false =>
    rw [hnull] at h
    cases h
    rw [if_neg Bool.false_ne_true]
    show s.sent ++ [(m.fd, replyText d format m response)] = _
    rw [replyText, sendLoop_eq _ (encapsulate_ne_nil response)]

/-- A run over messages that was not stopped has answered each of them. -/
theorem answerAll_eq_ok {ms : List Message} {envs : Nat → Env} {s s' : Desk}
    (h : answerAll d format (methods ssl) ms envs s = (.ok (), s')) :
    ∃ responses, List.Forall₂ (fun m response => AnswersText d.scan m.text response) ms responses ∧
      s'.sent = s.sent ++ (List.zipWith (sentFor d format) ms responses).flatten := by
  induction ms generalizing s with
  | nil =>
    cases h
    exact ⟨[], .nil, (List.append_nil _).symm⟩
  | cons m ms ih =>
    obtain ⟨u, s₁, hm, h⟩ := EnvM.bind_eq_ok_iff.mp h
    obtain ⟨response, hresponse, hsent⟩ := answer_eq_ok hm
    obtain ⟨responses, hresponses, hrest⟩ := ih h
    refine ⟨response :: responses, .cons hresponse hresponses, ?_⟩
    rw [hrest, hsent, List.zipWith_cons_cons, List.flatten_cons, List.append_assoc]

end

/-! ## Runs -/

section

variable {d : DoubleText} {ssl : OpenSSL}

/-- The messages that a server that listens on `sock` reads in some turns. -/
def received (ssl : OpenSSL) (sock : Int) (turns : List Turn) : List Message :=
  inbox (started ssl sock).server turns

/-- A desk where nothing was done. -/
def Desk.initial : Desk := ⟨⟨[]⟩, []⟩

theorem startserver_refines (sock : Int) (turns : List Turn) :
    EnvM.Refines desk (At (started ssl sock).server [])
      (fun _ _ w => w.server.clients = [] ∧ w.closed =
        closesAll (started ssl sock).server turns ++
          (afterAll (started ssl sock).server turns).clients)
      (startserver d turns)
      (answerAll d .raw (methods ssl) (received ssl sock turns)) := by
  unfold startserver
  refine EnvM.refines_bind_pure (runLoop_refines turns) ?_
  -- `Close` is the only thing after the loop, and does nothing at the desk
  intro u u' envs w hw
  obtain ⟨hserver, hclosed⟩ := hw
  have hclose : (EnvM.modify (·.close) : Serving Unit) envs w = (.ok (), w.close) := rfl
  rw [hclose]
  refine ⟨rfl, rfl, ?_⟩
  show w.closed ++ w.server.clients = _
  rw [hclosed, hserver, List.nil_append]

theorem startserver_desk (d : DoubleText) (ssl : OpenSSL) (sock : Int) (turns : List Turn)
    (envs : Nat → Env) :
    (startserver d turns envs (started ssl sock)).1 =
        (answerAll d .raw (methods ssl) (received ssl sock turns) envs Desk.initial).1 ∧
      (startserver d turns envs (started ssl sock)).2.desk =
        (answerAll d .raw (methods ssl) (received ssl sock turns) envs Desk.initial).2 := by
  obtain ⟨hdesk, hend⟩ := startserver_refines (d := d) sock turns envs (started ssl sock) ⟨rfl, rfl⟩
  exact ⟨EnvM.SameEnd.eq hend, hdesk⟩

/-- A run that returns has left no client, and closed every socket it had accepted. -/
theorem startserver_closed {sock : Int} {turns : List Turn} {envs : Nat → Env}
    (h : (startserver d turns envs (started ssl sock)).1 = .ok ()) :
    (startserver d turns envs (started ssl sock)).2.server.clients = [] ∧
      (startserver d turns envs (started ssl sock)).2.closed =
        closesAll (started ssl sock).server turns ++
          (afterAll (started ssl sock).server turns).clients := by
  obtain ⟨_, hend⟩ := startserver_refines (d := d) sock turns envs (started ssl sock) ⟨rfl, rfl⟩
  rw [h] at hend
  obtain ⟨_, _, hclosed⟩ := hend.exists_ok
  exact hclosed

/-- The runs of methods are those that the requests start. -/
theorem startserver_runs (d : DoubleText) (ssl : OpenSSL) (sock : Int) (turns : List Turn)
    (envs : Nat → Env) :
    let script := (requests d.scan (received ssl sock turns)).flatMap (requestScript ssl)
    let run := startserver d turns envs (started ssl sock)
    EnvM.Script.Begins script run.2.session.runs ∧
      (run.1 = .ok () → EnvM.Script.Full script run.2.session.runs) := by
  obtain ⟨hresult, hdesk⟩ := startserver_desk d ssl sock turns envs
  have hplays : EnvM.Plays (fun s : Desk => s.session.runs) _
      (answerAll d .raw (methods ssl) (received ssl sock turns)) := plays_answerAll _
  obtain ⟨runs, hruns, hbegins, hfull⟩ := hplays envs Desk.initial
  have hsession : (startserver d turns envs (started ssl sock)).2.session.runs = runs := by
    show (startserver d turns envs (started ssl sock)).2.desk.session.runs = runs
    rw [hdesk]
    exact hruns
  show EnvM.Script.Begins _ (startserver d turns envs (started ssl sock)).2.session.runs ∧ _
  rw [hsession]
  refine ⟨hbegins, ?_⟩
  intro hok
  exact hfull () (hresult ▸ hok)

theorem length_requestScript_le (root : Json) : (requestScript ssl root).length ≤ 1 := by
  unfold requestScript
  split
  · exact Nat.zero_le _
  · split
    · exact Nat.le_refl _
    · exact Nat.zero_le _

/-- The methods that a run of the server has called are those of its requests, in their order,
    up to where an exception ended it: each run of a method is for one request, and makes the
    calls of that request's script and no others. -/
theorem startserver_calls (d : DoubleText) (ssl : OpenSSL) (sock : Int) (turns : List Turn)
    (envs : Nat → Env) :
    let run := startserver d turns envs (started ssl sock)
    ∃ handled unhandled, requests d.scan (received ssl sock turns) = handled ++ unhandled ∧
      EnvM.Script.Full (handled.flatMap (requestScript ssl)) run.2.session.runs ∧
      (run.1 = .ok () → unhandled = []) := by
  obtain ⟨hbegins, hfull⟩ := startserver_runs d ssl sock turns envs
  by_cases hok : (startserver d turns envs (started ssl sock)).1 = .ok ()
  · exact ⟨_, [], (List.append_nil _).symm, hfull hok, fun _ => rfl⟩
  · -- an exception: the requests after the one that raised it were not reached
    obtain ⟨handled, unhandled, hsplit, hhandled⟩ := hbegins.exists_full length_requestScript_le
    exact ⟨handled, unhandled, hsplit, hhandled, fun h => absurd h hok⟩

/-- A run that no exception ends has sent what the replies to the messages are, each to the
    socket its message came from, in their order, and as much of each as the socket took. -/
theorem startserver_sends (d : DoubleText) (ssl : OpenSSL) (sock : Int) (turns : List Turn)
    (envs : Nat → Env) (h : (startserver d turns envs (started ssl sock)).1 = .ok ()) :
    ∃ responses,
      List.Forall₂ (fun m response => AnswersText d.scan m.text response)
        (received ssl sock turns) responses ∧
      (startserver d turns envs (started ssl sock)).2.sent =
        (List.zipWith (sentFor d .raw) (received ssl sock turns) responses).flatten := by
  obtain ⟨hresult, hdesk⟩ := startserver_desk d ssl sock turns envs
  rw [h] at hresult
  obtain ⟨responses, hresponses, hsent⟩ := answerAll_eq_ok (Prod.ext hresult.symm rfl)
  refine ⟨responses, hresponses, ?_⟩
  show (startserver d turns envs (started ssl sock)).2.desk.sent = _
  rw [hdesk, hsent]
  rfl

end

/-- Texts without a fraction only. -/
def sampleDoubles : DoubleText := ⟨fun _ => [], fun _ => [], fun _ => none⟩

/-- A client connects. -/
def sampleAccept (fd : Int) : Turn where
  ready := true
  pollin i := i == 0
  accepted := fd
  received _ := ⟨[], Nat.zero_le _⟩
  taken _ := []

/-- The first client sends a text, and takes its reply in two parts. -/
def sampleRead (text : Str) (h : text.length ≤ recvSize) : Turn where
  ready := true
  pollin i := i == 1
  accepted := -1
  received _ := ⟨text, h⟩
  taken _ := [10, 1000]

/-- Nodes that cannot be reached. -/
def sampleEnvs : Nat → Env := fun _ => Env.sample fun _ => .unresolved

def sampleGetinfo : Str := str "\x7b\"jsonrpc\":\"2.0\",\"id\":1,\"method\":\"getinfo\"\x7d"

/-- A client asks for the server's version. -/
def sampleTurns : List Turn := [sampleAccept 5, sampleRead sampleGetinfo (by decide +kernel)]

theorem startserver_sends_getinfo :
    ∃ responses,
      List.Forall₂ (fun m response => AnswersText sampleDoubles.scan m.text response)
        (received sampleSSL 3 sampleTurns) responses ∧
      (startserver sampleDoubles sampleTurns sampleEnvs (started sampleSSL 3)).2.sent =
        (List.zipWith (sentFor sampleDoubles .raw) (received sampleSSL 3 sampleTurns)
          responses).flatten :=
  startserver_sends sampleDoubles sampleSSL 3 sampleTurns sampleEnvs (by decide +kernel)

/-! ## What ends the server -/

section

variable {d : DoubleText} {ssl : OpenSSL} {envs : Nat → Env} {e : Exn}

/-- A swap handler that the request names lets the exception out. -/
def Raises (ssl : OpenSSL) (envs : Nat → Env) (e : Exn) (root : Json) : Prop :=
  ∃ key method n, key ≠ "getinfo" ∧ (key, method) ∈ registered ssl ∧ Names root key ∧
    (method root (envs n) World.initial).1 = .error e

/-- `AtomGetInfo` reads no more than the id. -/
theorem atomGetInfo_returns {root id : Json} (h : root.index "id" = .ok id) (env : Env) (w : World) :
    ∃ w', atomGetInfo root env w = (.ok true, w') := by
  simp only [atomGetInfo, respond, EnvM.bind_run, EnvM.modify_run, EnvM.ofExcept_run, h,
    EnvM.pure_run]
  exact ⟨_, rfl⟩

theorem process_raises {root : Json} {s : Session}
    (h : (process (methods ssl) root envs s).1 = .error e) : Raises ssl envs e root := by
  have hprocessed : Processed ssl root _ _ := processed root
  generalize process (methods ssl) root = x at h hprocessed
  generalize requestScript ssl root = script at hprocessed
  cases hprocessed with
  | invalid _ => cases h
  | notFound _ => cases h
  | describe hcheck =>
    rw [EnvM.ofExcept_run, systemDescribe, index_id hcheck] at h
    cases h
  | @run key method script hnames hmethod hmem hserves =>
    have hrun : (method root (envs s.runs.length) World.initial).1.map
        (fun _ => responseOf (method root (envs s.runs.length) World.initial).2.response) =
          .error e := h
    refine ⟨key, method, s.runs.length, ?_, hmethod, hnames, ?_⟩
    · -- `getinfo` reads only the id, which a request that passed `Check` lets it read
      intro hkey
      have hgetinfo : method = atomGetInfo := by
        simpa [registered, hkey] using hmethod
      obtain ⟨w', hw'⟩ := atomGetInfo_returns (index_id hnames.1) (envs s.runs.length) World.initial
      rw [hgetinfo, hw'] at hrun
      cases hrun
    · cases hresult : (method root (envs s.runs.length) World.initial).1 with
      | error e' =>
        rw [hresult] at hrun
        cases hrun
        rfl
      | ok b =>
        rw [hresult] at hrun
        cases hrun

theorem processBatch_raises {roots : List Json} {s : Session}
    (h : (processBatch (methods ssl) roots envs s).1 = .error e) :
    ∃ root ∈ roots, Raises ssl envs e root := by
  induction roots generalizing s with
  | nil => cases h
  | cons root roots ih =>
    rw [processBatch, EnvM.bind_run] at h
    rcases hroot : process (methods ssl) root envs s with ⟨e' | ret, s₁⟩
    · rw [hroot] at h
      cases h
      -- the exception leaves the loop, and the requests behind it are not processed
      exact ⟨root, List.mem_cons_self, process_raises (congrArg Prod.fst hroot)⟩
    · rw [hroot] at h
      dsimp only at h
      rw [EnvM.bind_run] at h
      rcases hroots : processBatch (methods ssl) roots envs s₁ with ⟨e' | rets, s₂⟩
      · rw [hroots] at h
        cases h
        obtain ⟨root', hroot', hraises⟩ := ih (congrArg Prod.fst hroots)
        exact ⟨root', List.mem_cons_of_mem root hroot', hraises⟩
      · rw [hroots] at h
        cases h

theorem processMsg_raises {scan : Str → Option ℚ} {msg : Str} {s : Session}
    (h : (processMsg scan (methods ssl) msg envs s).1 = .error e) :
    ∃ root ∈ requestsOf scan msg, Raises ssl envs e root := by
  unfold processMsg at h
  unfold requestsOf
  have hbatch (elems : List Json) (h : ((do
      let rets ← processBatch (methods ssl) elems
      return if rets.isEmpty then Json.null else .array rets : Serve Json) envs s).1 =
        .error e) : ∃ root ∈ elems, Raises ssl envs e root := by
    rw [EnvM.bind_run] at h
    rcases hrun : processBatch (methods ssl) elems envs s with ⟨e' | rets, s₁⟩
    · rw [hrun] at h
      cases h
      exact processBatch_raises (congrArg Prod.fst hrun)
    · rw [hrun] at h
      cases h
  have hone (root : Json) (h : (process (methods ssl) root envs s).1 = .error e) :
      ∃ root' ∈ [root], Raises ssl envs e root' := ⟨root, List.mem_singleton_self root, process_raises h⟩
  cases hparse : JsonReader.parse scan msg with
  | none =>
    rw [hparse] at h
    cases h
  | some root =>
    rw [hparse] at h
    cases root with
    | null => exact hbatch [] h
    | array elems => exact hbatch elems h
    | bool _ => exact hone _ h
    | int _ => exact hone _ h
    | real _ => exact hone _ h
    | string _ => exact hone _ h
    | object _ => exact hone _ h

theorem answerAll_raises {format : EncapsulatedFormat} {ms : List Message} {s : Desk}
    (h : (answerAll d format (methods ssl) ms envs s).1 = .error e) :
    ∃ root ∈ requests d.scan ms, Raises ssl envs e root := by
  induction ms generalizing s with
  | nil => cases h
  | cons m ms ih =>
    rw [answerAll, EnvM.bind_run] at h
    rcases hm : answer d format (methods ssl) m envs s with ⟨e' | u, s₁⟩
    · rw [hm] at h
      cases h
      have hhandled : Desk.handled (processMsg d.scan (methods ssl) m.text) envs s =
          ((processMsg d.scan (methods ssl) m.text envs s.session).1,
            { s with session := (processMsg d.scan (methods ssl) m.text envs s.session).2 }) := rfl
      rw [answer, EnvM.bind_run, hhandled] at hm
      cases hmsg : (processMsg d.scan (methods ssl) m.text envs s.session).1 with
      | error e' =>
        rw [hmsg] at hm
        cases hm
        obtain ⟨root, hroot, hraises⟩ := processMsg_raises hmsg
        exact ⟨root, List.mem_append_left _ hroot, hraises⟩
      | ok response =>
        -- what follows the handler raises nothing
        rw [hmsg] at hm
        dsimp only at hm
        split at hm
        · cases hm
        · cases hm
    · rw [hm] at h
      obtain ⟨root, hroot, hraises⟩ := ih h
      exact ⟨root, List.mem_append_right _ hroot, hraises⟩

end

def sampleNoParams : Str := str "\x7b\"jsonrpc\":\"2.0\",\"method\":\"redeem\",\"params\":1\x7d"

/-- A client asks for a redeem, with a number for the parameters. -/
def sampleLastTurns : List Turn :=
  [sampleAccept 5, sampleRead sampleNoParams (by decide +kernel)]

end CrossChain
