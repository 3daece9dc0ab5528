import WireDock.Registry.Ledger

namespace WireDock

open FiniteMap LabelledSystem

def ConnectionId.isClient : ConnectionId → Bool
  | tcpClient _ | ipcClient _ => true
  | _ => false

def Effect.opensIpc : Effect → Bool
  | connect (.ipc _) => true
  | _ => false

def ipcOpens (log : List Effect) : ℕ := log.countP Effect.opensIpc

theorem ConnectionId.base?_of_isClient {id : ConnectionId} (h : id.isClient = true) :
    id.base? = none := by
  cases id <;> first | rfl | cases h

theorem ConnectionId.ne_accepted {id : ConnectionId} (h : id.isClient = true) (b : Base)
    (d : Option UInt32) : id ≠ b.accepted d := by
  rintro rfl
  cases b <;> cases h

namespace Registry

variable {reg reg' : Registry} {id : ConnectionId}

@[simp] theorem seq_dropStream : (reg.dropStream id).1.nextIpcClientSeq = reg.nextIpcClientSeq := by
  unfold dropStream
  cases reg.streams.lookup id <;> rfl

@[simp] theorem seq_dropStreams (ids : List ConnectionId) :
    (reg.dropStreams ids).1.nextIpcClientSeq = reg.nextIpcClientSeq := by
  induction ids generalizing reg with
  | nil => rfl
  | cons c ids ih => rw [dropStreams, ih, seq_dropStream]

@[simp] theorem seq_dropServer {order : IterationOrder ConnectionId} :
    (reg.dropServer order id).1.nextIpcClientSeq = reg.nextIpcClientSeq := by
  unfold dropServer
  cases reg.servers.lookup id with
  | none => rfl
  | some srv => exact seq_dropStreams _

@[simp] theorem seq_replaceLabel {typed : ConnectionId} {name : String} :
    (reg.replaceLabel id typed name).1.nextIpcClientSeq = reg.nextIpcClientSeq := by
  unfold replaceLabel
  cases reg.streams.lookup id with
  | some s => rfl
  | none => cases reg.servers.lookup id <;> rfl

theorem Allocated.seq {b : Base} {ev : Option NetEvent} (ha : reg.Allocated b reg' id ev) :
    reg'.nextIpcClientSeq = reg.nextIpcClientSeq := by
  cases ha with
  | first | next => rfl
  | second _ _ _ _ _ hseq => exact hseq

theorem Allocated.lookup_client {b : Base} {ev : Option NetEvent} {k : ConnectionId}
    (ht : Tracked reg) (ha : reg.Allocated b reg' id ev) (hk : k.isClient = true) :
    reg'.streams.lookup k = reg.streams.lookup k := by
  cases ha with
  | first | next => rfl
  | second hsrv hold hstreams =>
    cases ht.lookup_base hsrv hold
    rw [hstreams, lookup_streams_rename]
    cases reg.streams.lookup (b.accepted none) with
    | none => rfl
    | some s => simp only [if_neg (k.ne_accepted hk b _)]

end Registry

/-- The sequence numbers given to IPC clients, and the read tasks started for clients:
each is aborted or still the one of its client. -/
structure ClientsAccounted (reg : Registry) (log : List Effect) : Prop where
  next : reg.nextIpcClientSeq.toNat ≤ ipcOpens log + 1
  given : ∀ seq, .ipcClient seq ∈ reg.streams → seq.toNat < reg.nextIpcClientSeq.toNat
  reads : ∀ task id stream, id.isClient = true → .spawnRead task id stream ∈ log →
    .abort task ∈ log ∨ reg.readTask id = some task

theorem ipcOpens_append (log effects : List Effect) :
    ipcOpens (log ++ effects) = ipcOpens log + ipcOpens effects := List.countP_append

theorem ipcOpens_lt_of_append {log effects : List Effect} {n : ℕ}
    (h : ipcOpens (log ++ effects) < n) : ipcOpens log < n := by
  rw [ipcOpens_append] at h
  omega

namespace ClientsAccounted

variable {reg reg' : Registry} {log effects : List Effect}

/-- A step that opens no client and keeps those whose read task it does not abort. -/
theorem of_readTask (h : ClientsAccounted reg log)
    (hseq : reg'.nextIpcClientSeq = reg.nextIpcClientSeq)
    (hsub : ∀ k, k.isClient = true → k ∈ reg'.streams → k ∈ reg.streams)
    (hr : ∀ k task, k.isClient = true → reg.readTask k = some task →
      .abort task ∈ effects ∨ reg'.readTask k = some task)
    (he : ∀ task id stream, id.isClient = true → .spawnRead task id stream ∉ effects) :
    ClientsAccounted reg' (log ++ effects) := by
  refine ⟨?_, fun seq hs ↦ ?_, fun task id stream hc hs ↦ ?_⟩
  · rw [hseq, ipcOpens_append]
    exact h.next.trans (by omega)
  · rw [hseq]
    exact h.given seq (hsub _ rfl hs)
  · rcases h.reads task id stream hc ((List.mem_append.mp hs).resolve_right (he _ _ _ hc)) with
      ha | hk
    · exact .inl (List.mem_append_left _ ha)
    · exact (hr id task hc hk).imp_left (List.mem_append_right _)

theorem of_eq (h : ClientsAccounted reg log) (he : ∀ e ∈ effects, e.spawned = none) :
    ClientsAccounted reg (log ++ effects) :=
  h.of_readTask rfl (fun _ _ hk ↦ hk) (fun _ _ _ hk ↦ .inr hk)
    (fun task id stream _ ↦ not_spawnRead he task id stream)

theorem dropStream (h : ClientsAccounted reg log) (id : ConnectionId)
    (hsub : ∀ e ∈ (reg.dropStream id).2, e ∈ effects) (he : ∀ e ∈ effects, e.spawned = none) :
    ClientsAccounted (reg.dropStream id).1 (log ++ effects) := by
  refine h.of_readTask Registry.seq_dropStream (fun k _ hk ↦ ?_)
    (fun k task _ hk ↦ (Registry.abort_or_kept_dropStream hk).imp_left (hsub _))
    (fun task id stream _ ↦ not_spawnRead he task id stream)
  rw [Registry.dropStream_streams, Finmap.mem_erase] at hk
  exact hk.2

theorem dropServer (h : ClientsAccounted reg log) (order : IterationOrder ConnectionId)
    (id : ConnectionId) (hsub : ∀ e ∈ (reg.dropServer order id).2, e ∈ effects)
    (he : ∀ e ∈ effects, e.spawned = none) :
    ClientsAccounted (reg.dropServer order id).1 (log ++ effects) :=
  h.of_readTask Registry.seq_dropServer (fun _ _ ↦ reg.mem_streams_of_dropServer)
    (fun _ _ _ hk ↦ (Registry.abort_or_kept_dropServer hk).imp_left (hsub _))
    (fun task id stream _ ↦ not_spawnRead he task id stream)

theorem seq_of_opensClient (h : ClientsAccounted reg log) {cmd : Command} {id : ConnectionId}
    {endpoint : Endpoint} {peer : PeerInfo} {seq : UInt32}
    (ho : reg.opensClient cmd = some (id, endpoint, peer, seq))
    (hlt : ipcOpens log + ipcOpens [.connect endpoint] < 2 ^ 32 - 1) :
    seq.toNat = reg.nextIpcClientSeq.toNat + ipcOpens [.connect endpoint] ∧
      ∀ n, id = .ipcClient n → n.toNat < seq.toNat := by
  have hnext := h.next
  cases cmd <;> cases ho
  · exact ⟨rfl, fun n hn ↦ (by cases hn)⟩
  · rename_i remotePath
    have hone : ipcOpens [.connect (.ipc remotePath)] = 1 := rfl
    rw [hone] at hlt ⊢
    have hlast : reg.nextIpcClientSeq ≠ 4294967295 := by
      intro he
      rw [he, show (4294967295 : UInt32).toNat = 2 ^ 32 - 1 from rfl] at hnext
      omega
    have hsucc : reg.allocIpcClientSeq.2.nextIpcClientSeq.toNat =
        reg.nextIpcClientSeq.toNat + 1 := by
      simp only [Registry.allocIpcClientSeq, if_neg hlast]
      exact toNat_succ_u32 (by omega)
    refine ⟨hsucc, fun n hn ↦ ?_⟩
    cases hn
    omega

theorem client_free (h : ClientsAccounted reg log) {id : ConnectionId}
    (hfree : id ∉ reg.streams ∨ id = .ipcClient reg.nextIpcClientSeq) : id ∉ reg.streams := by
  rcases hfree with hfree | rfl
  · exact hfree
  · exact fun hmem ↦ (lt_irrefl _) (h.given _ hmem)

theorem openClient (h : ClientsAccounted reg log) {cmd : Command} {id : ConnectionId}
    {endpoint : Endpoint} {peer : PeerInfo} {seq : UInt32} {stream : BoxedStream}
    {task : JoinHandle} {text : String} (ho : reg.opensClient cmd = some (id, endpoint, peer, seq))
    (hfree : id ∉ reg.streams ∨ id = .ipcClient reg.nextIpcClientSeq)
    (hlt : ipcOpens (log ++ [.connect endpoint, .spawnRead task id stream, say text]) < 2 ^ 32 - 1) :
    ClientsAccounted ({ reg with nextIpcClientSeq := seq }.insertStream
        (.spawned id stream (some peer) none task))
      (log ++ [.connect endpoint, .spawnRead task id stream, say text]) := by
  have hcount : ipcOpens (log ++ [.connect endpoint, .spawnRead task id stream, say text]) =
      ipcOpens log + ipcOpens [.connect endpoint] := ipcOpens_append log _
  rw [hcount] at hlt
  obtain ⟨hseq, hnew⟩ := h.seq_of_opensClient ho hlt
  have hid := h.client_free hfree
  refine ⟨?_, fun n hn ↦ ?_, fun t k s hc hs ↦ ?_⟩
  · have hnext := h.next
    have hle : seq.toNat ≤ ipcOpens log + ipcOpens [.connect endpoint] + 1 := by omega
    rwa [← hcount] at hle
  · have hlt' : n.toNat < seq.toNat := by
      rcases Finmap.mem_insert.mp hn with he | hn
      · exact hnew n he.symm
      · have hgiven := h.given n hn
        omega
    exact hlt'
  · rw [Registry.readTask_insertStream]
    rcases List.mem_append.mp hs with hs | hs
    · refine (h.reads t k s hc hs).imp (List.mem_append_left _) fun hk ↦ ?_
      rw [if_neg, ← hk]
      · rfl
      · rintro rfl
        cases (Registry.readTask_eq_none.mpr hid).symm.trans hk
    · simp only [say, List.mem_cons, reduceCtorEq, List.not_mem_nil, or_false, false_or,
        Effect.spawnRead.injEq] at hs
      obtain ⟨rfl, rfl, -⟩ := hs
      exact .inr (if_pos rfl)

theorem connectRefused (h : ClientsAccounted reg log) {cmd : Command} {id : ConnectionId}
    {endpoint : Endpoint} {peer : PeerInfo} {seq : UInt32}
    (ho : reg.opensClient cmd = some (id, endpoint, peer, seq))
    (hlt : ipcOpens (log ++ [.connect endpoint]) < 2 ^ 32 - 1) :
    ClientsAccounted { reg with nextIpcClientSeq := seq } (log ++ [.connect endpoint]) := by
  rw [ipcOpens_append] at hlt
  obtain ⟨hseq, -⟩ := h.seq_of_opensClient ho hlt
  have hnext := h.next
  refine ⟨?_, fun n hn ↦ ?_, fun t k s hc hs ↦ ?_⟩
  · have hle : seq.toNat ≤ ipcOpens log + ipcOpens [.connect endpoint] + 1 := by omega
    rwa [← ipcOpens_append] at hle
  · exact (h.given n hn).trans_le (by rw [hseq]; omega)
  · exact (h.reads t k s hc ((List.mem_append.mp hs).resolve_right (by simp))).imp_left
      (List.mem_append_left _)

end ClientsAccounted

theorem clientsAccounted_of_reachable {ok : World → Environment × RegistryInput → Prop} {w : World}
    (hw : ReachableBy registrySystem ok w) (hlt : ipcOpens w.log < 2 ^ 32 - 1) :
    ClientsAccounted w.reg w.log := by
  refine registry_invariant
    (P := fun reg log ↦ ipcOpens log < 2 ^ 32 - 1 → ClientsAccounted reg log)
    (fun _ ↦ ⟨le_rfl, fun _ h ↦ (Finmap.notMem_empty h).elim, fun _ _ _ _ h ↦ by cases h⟩) ?_
    (fun order _ _ id h hlt ↦ (h (ipcOpens_lt_of_append hlt)).dropServer order id (fun _ he ↦ he)
      Registry.spawned_dropServer)
    (fun _ _ id h hlt ↦ (h (ipcOpens_lt_of_append hlt)).dropStream id (fun _ he ↦ he)
      Registry.spawned_dropStream) hw hlt
  intro w env input effects reg' hr h _ _ hc hlt
  have h := h (ipcOpens_lt_of_append hlt)
  cases hc with
  | silent hs => exact h.of_eq fun e he ↦ Registry.spawned_silent (hs e he)
  | bindRefused => exact h.of_eq (by simp [Effect.spawned])
  | serverOpened =>
    exact h.of_readTask rfl (fun _ _ hk ↦ hk) (fun _ _ _ hk ↦ .inr hk) (by simp [say])
  | connectRefused ho => exact h.connectRefused ho hlt
  | clientOpened ho hfree => exact h.openClient ho hfree hlt
  | labelled =>
    refine h.of_readTask Registry.seq_replaceLabel (fun k _ hk ↦ ?_)
      (fun k _ _ hk ↦ .inr (Registry.readTask_replaceLabel.trans hk)) (by simp)
    rwa [Registry.mem_streams_replaceLabel] at hk
  | streamDropped =>
    exact h.dropStream _ (fun _ ↦ List.mem_append_left _) (spawned_say Registry.spawned_dropStream)
  | serverDropped =>
    exact h.dropServer _ _ (fun _ ↦ List.mem_append_left _)
      (spawned_say Registry.spawned_dropServer)
  | @accepted _ _ peerInfo stream b reg₁ id ev hb ha =>
    obtain ⟨d, rfl⟩ := ha.id_eq
    have hlookup : ∀ k, k.isClient = true → (reg₁.insertStream (.spawned (b.accepted d) stream
        (some peerInfo) (some b.server) env.spawn)).streams.lookup k = w.reg.streams.lookup k := by
      intro k hk
      rw [← ha.lookup_client (tracked_of_reachable hr) hk]
      exact (lookup_insert _ _ _ _).trans (if_neg (k.ne_accepted hk b d))
    refine h.of_readTask ha.seq (fun k hk hmem ↦ ?_) (fun k task hk hr ↦ .inr ?_) ?_
    · rw [mem_iff_lookup] at hmem ⊢
      rwa [← hlookup k hk]
    · rw [Registry.readTask] at hr ⊢
      exact (congrArg (Option.map _) (hlookup k hk)).trans hr
    · intro task k stream' hk hm
      cases spawned_register hm rfl
      exact ConnectionId.ne_accepted hk b d rfl

end WireDock
