import WireDock.Registry.Refinement
import WireDock.Registry.StatusReport

namespace WireDock

open FiniteMap LabelledSystem

structure Sound (reg : Registry) (log : List Effect) : Prop where
  wellFormed : WellFormed reg
  tracked : Tracked reg
  recorded : Recorded reg log
  numbered : ClientsNumbered reg log
  owned : ServersOwned reg log

theorem sound_of_reachable {w : World} (hw : Reachable registrySystem w) : Sound w.reg w.log :=
  ⟨wellFormed_of_reachable hw, tracked_of_reachable hw, recorded_of_reachable hw,
    clientsNumbered_of_reachable hw, serversOwned_of_reachable hw⟩

/-- Calls that neither start a task nor try to open an IPC client. -/
def Quiet (effects : List Effect) : Prop := ∀ e ∈ effects, e.spawned = none ∧ e.opensIpc = false

namespace Quiet

variable {effects effects' : List Effect} {reg : Registry} {id : ConnectionId}

theorem nil : Quiet [] := fun _ h ↦ (List.not_mem_nil h).elim

theorem append (h : Quiet effects) (h' : Quiet effects') : Quiet (effects ++ effects') := by
  intro e he
  exact (List.mem_append.mp he).elim (h e) (h' e)

theorem say (text : String) : Quiet [WireDock.say text] := by
  intro e he
  rw [List.mem_singleton.mp he]
  exact ⟨rfl, rfl⟩

theorem dropStream : Quiet (reg.dropStream id).2 := fun e he ↦
  ⟨Registry.spawned_dropStream e he, (Registry.aside_dropStream e he).1⟩

theorem dropServer {order : IterationOrder ConnectionId} : Quiet (reg.dropServer order id).2 :=
  fun e he ↦ ⟨Registry.spawned_dropServer e he, (Registry.aside_dropServer e he).1⟩

theorem send {env : Environment} {bytes : List UInt8} : Quiet (reg.sendBytes env id bytes).2 :=
  fun e he ↦ ⟨Registry.spawned_silent (Registry.silent_send e he),
    (Registry.sends_of_mem_sendBytes he).aside.1⟩

end Quiet

namespace Registry

abbrev seen (reg : Registry) (log : List Effect) : Switchboard :=
  reg.view (fun b ↦ acceptsOf b log) (ipcOpens log)

def children (reg : Registry) (order : IterationOrder ConnectionId) (sid : ConnectionId) :
    List ConnectionId :=
  ((reg.servers.lookup sid).map fun srv ↦ order.visit srv.children).getD []

variable {reg reg' : Registry} {log effects : List Effect} {env : Environment}
  {order : IterationOrder ConnectionId} {id sid : ConnectionId} {a : Base → ℕ} {n : ℕ}

theorem seen_quiet (h : Quiet effects) : reg.seen (log ++ effects) = reg.seen log := by
  have haccepts : ∀ b, acceptsOf b (log ++ effects) = acceptsOf b log := fun b ↦
    congrArg List.length (suffixesOf_append fun e he ↦ (h e he).1)
  have hopens : ipcOpens (log ++ effects) = ipcOpens log := by
    rw [ipcOpens_append]
    exact Nat.add_eq_left.mpr (List.countP_eq_zero.mpr fun e he ↦ by simp [(h e he).2])
  rw [seen, hopens, funext haccepts, seen]

theorem children_of_lookup {srv : ServerHandle} (hsrv : reg.servers.lookup sid = some srv) :
    reg.children order sid = order.visit srv.children := by
  rw [children, hsrv, Option.map_some, Option.getD_some]

theorem lists_children (hw : WellFormed reg) (hsid : sid ∈ reg.servers) :
    Lists (reg.children order sid) ((reg.view a n).members sid) := by
  obtain ⟨srv, hsrv⟩ := mem_iff_lookup.mp hsid
  have hvisit := reg.visitsChildren hw hsrv order
  rw [children_of_lookup hsrv]
  refine ⟨hvisit.once, fun k ↦ ?_⟩
  rw [hvisit.mem_iff]
  constructor
  · intro hp
    have hk := mem_streams_of_parentOf hp
    exact ⟨isSome_lines.mpr hk, hw.parentOf_eq hk ▸ hp⟩
  · intro hk
    rw [hw.parentOf_eq (isSome_lines.mp hk.1)]
    exact hk.2

def tour (hw : WellFormed reg) (order : IterationOrder ConnectionId) (clients : List ConnectionId)
    (hc : Lists clients (reg.view a n).clients) : (reg.view a n).Tour where
  clients := clients
  servers := order.visit reg.servers.keys
  members := reg.children order
  lists_clients := hc
  lists_servers := ⟨order.nodup _, fun k ↦ by
    rw [order.mem_visit, Finmap.mem_keys]
    exact isSome_stations.symm⟩
  lists_members _ hsid := lists_children hw (isSome_stations.mp hsid)

theorem lists_clientIds (hw : WellFormed reg) (order : IterationOrder ConnectionId) :
    Lists ((order.visit reg.streams.keys).filter fun k ↦
      (reg.streams.lookup k).any fun h ↦ h.parent.isNone) (reg.view a n).clients where
  nodup := (order.nodup _).filter _
  mem_iff k := by
    have hsorted : k ∈ reg.clientIds order ↔ _ := (sortByKey_perm _ _).mem_iff
    rw [← hsorted, mem_clientIds]
    refine (and_congr_right fun hk ↦ ?_).trans (and_congr_left' isSome_lines.symm)
    rw [hw.parentOf_eq hk]

def commandTour (hw : WellFormed reg) (order : IterationOrder ConnectionId) :
    (reg.view a n).Tour := reg.tour hw order _ (lists_clientIds hw order)

section Effects

theorem ServersOwned.ipcPath (h : ServersOwned reg log) {srv : ServerHandle}
    (hsrv : reg.servers.lookup id = some srv) : srv.ipcPath = id.socketPath := by
  refine (h.spawned id srv.acceptTask srv.ipcPath ?_).1
  rw [owned, hsrv, Option.map_some]

theorem view_dismiss (ho : ServersOwned reg log) (hid : id ∈ reg.servers) :
    (reg.view a n).dismiss (reg.children order id) id = (reg.dropServer order id).2 := by
  obtain ⟨srv, hsrv⟩ := mem_iff_lookup.mp hid
  have hstation : (reg.view a n).stations id = some srv.station := by
    simp only [view, hsrv, Option.map_some]
  rw [dropServer_effects hsrv, ServersOwned.ipcPath ho hsrv, Switchboard.dismiss, hstation,
    view_hangUp, children_of_lookup hsrv]
  rfl

/-- What closing a server calls is not changed by closing another one first. -/
theorem effects_dropServer_after (hw : WellFormed reg) (hid : id ∈ reg.servers)
    (hsid : sid ∈ reg.servers) (hne : sid ≠ id) :
    ((reg.dropServer order id).1.dropServer order sid).2 = (reg.dropServer order sid).2 := by
  obtain ⟨srv, hsrv⟩ := mem_iff_lookup.mp hsid
  obtain ⟨srv', hsrv'⟩ := mem_iff_lookup.mp hid
  have hkept : (reg.dropServer order id).1.servers.lookup sid = some srv := by
    rw [lookup_server_dropServer hw hid hne, hsrv]
  rw [dropServer_effects hkept, dropServer_effects hsrv]
  have haborts : (reg.dropServer order id).1.aborts (order.visit srv.children) =
      reg.aborts (order.visit srv.children) := by
    refine List.filterMap_congr fun k hk ↦ ?_
    have hp := (reg.visitsChildren hw hsrv order).mem_iff.mp hk
    have hother : reg.parentOf k ≠ some id := fun h ↦ hne (Option.some.inj (hp.symm.trans h))
    rw [(cascades_dropServer hw hsrv' order).streams, if_neg hother]
  rw [haborts]

theorem effects_dropServers (hw : WellFormed reg) {ids : List ConnectionId} (hnd : ids.Nodup)
    (hids : ∀ k ∈ ids, k ∈ reg.servers) :
    (reg.dropServers order ids).2 = ids.flatMap fun sid ↦ (reg.dropServer order sid).2 := by
  induction ids generalizing reg with
  | nil => rfl
  | cons sid ids ih =>
    obtain ⟨hsid, hnd⟩ := List.nodup_cons.mp hnd
    obtain ⟨hin, hids⟩ := List.forall_mem_cons.mp hids
    have hne : ∀ k ∈ ids, k ≠ sid := fun k hk he ↦ hsid (he ▸ hk)
    have hkept : ∀ k ∈ ids, k ∈ (reg.dropServer order sid).1.servers := by
      intro k hk
      rw [mem_iff_lookup, lookup_server_dropServer hw hin (hne k hk)]
      exact mem_iff_lookup.mp (hids k hk)
    have hrest : (ids.flatMap fun k ↦ ((reg.dropServer order sid).1.dropServer order k).2) =
        ids.flatMap fun k ↦ (reg.dropServer order k).2 :=
      List.flatMap_congr fun k hk ↦ effects_dropServer_after hw hin (hids k hk) (hne k hk)
    rw [dropServers, ih (hw.dropServer order sid) hnd hkept, hrest, List.flatMap_cons]

theorem view_write (hw : WellFormed reg) (bytes : List UInt8) (id : ConnectionId) :
    (reg.view a n).write env bytes id =
      ((reg.streams.lookup id).map (reg.sendTo env bytes id)).getD [] := by
  unfold Switchboard.write
  cases hs : reg.streams.lookup id with
  | none => simp only [view, hs, Option.map_none, Option.getD_none]
  | some h =>
    rw [lines_of_lookup hs]
    simp only [view_name hw]
    rfl

end Effects

theorem aborts_singleton (id : ConnectionId) : reg.aborts [id] = (reg.dropStream id).2 := by
  rw [← effects_dropStreams (List.nodup_singleton id), dropStreams, dropStreams, List.append_nil]

section Commands

variable {tour : (reg.seen log).Tour}

def turnOf (h : Handled) (log : List Effect) : Switchboard.Turn :=
  (h.reg.seen (log ++ h.effects)).answer h.effects h.outcome

theorem answer_eq {board : Switchboard} {outcome : CommandOutcome} (hq : Quiet effects)
    (hb : reg.seen log = board) :
    board.answer effects outcome = turnOf ⟨reg, effects, outcome⟩ log := by
  subst hb
  exact congrArg (fun board : Switchboard ↦ board.answer effects outcome) (seen_quiet hq).symm

theorem refuse_eq (e : DomainError) :
    (reg.seen log).refuse e = turnOf ⟨reg, [], .err e.message⟩ log := answer_eq Quiet.nil rfl

theorem openServer_turn {endpoint : ServerEndpoint} {path : Option PathBuf} :
    (reg.seen log).openServer env id endpoint =
      turnOf (if reg.keyOf id ∈ reg.servers
        then ⟨reg, [], .err (DomainError.idAlreadyInUse id.display).message⟩
        else reg.openServer env id endpoint path) log := by
  unfold Switchboard.openServer
  rw [show (reg.seen log).keyOf id = reg.keyOf id from view_keyOf id]
  by_cases hid : reg.keyOf id ∈ reg.servers
  · rw [if_pos hid, if_pos (isSome_stations.mpr hid), refuse_eq]
  · rw [if_neg hid, if_neg (mt isSome_stations.mp hid)]
    unfold openServer
    cases env.bind endpoint with
    | error e =>
      have hq : Quiet [.bind endpoint] := fun e he ↦ by
        rw [List.mem_singleton.mp he]
        exact ⟨rfl, rfl⟩
      simp only [turnOf, seen_quiet hq]
    | ok listener =>
      have haccepts : ∀ b, acceptsOf b (log ++ [.bind endpoint, .spawnAccept env.spawn id listener,
          say s!"[{id}] listening"]) = if b.server = id then 0 else acceptsOf b log := by
        intro b
        rw [acceptsOf, suffixesOf_serverOpened]
        by_cases hb : b.server = id
        · rw [if_pos hb.symm, if_pos hb, List.length_nil]
        · rw [if_neg (Ne.symm hb), if_neg hb, acceptsOf]
      have hopens : ipcOpens (log ++ [.bind endpoint, .spawnAccept env.spawn id listener,
          say s!"[{id}] listening"]) = ipcOpens log := ipcOpens_append _ _
      simp only [turnOf, seen, funext haccepts, hopens, view_openServer]

theorem openTcpClient_turn {localPort remotePort : UInt16} {remoteHost : String}
    (hw : WellFormed reg) :
    (reg.seen log).command env tour (.openTcpClient localPort remoteHost remotePort) =
      turnOf (reg.handleCommand env (.openTcpClient localPort remoteHost remotePort)) log := by
  have hfree : (ConnectionId.tcpClient localPort ∈ reg.streams ∨
      ConnectionId.tcpClient localPort ∈ reg.servers) ↔
        ConnectionId.tcpClient localPort ∈ reg.streams :=
    or_iff_left fun hv ↦ by cases hw.isServer_of_mem hv
  simp only [Switchboard.command, handleCommand, hfree]
  by_cases hid : ConnectionId.tcpClient localPort ∈ reg.streams
  · rw [if_pos hid, if_pos (isSome_lines.mpr hid), refuse_eq]
    rfl
  · rw [if_neg hid, if_neg (mt isSome_lines.mp hid)]
    unfold Switchboard.openClient
    cases env.connect (.tcp localPort remoteHost remotePort) with
    | error e =>
      have hq : Quiet [.connect (.tcp localPort remoteHost remotePort)] := fun e he ↦ by
        rw [List.mem_singleton.mp he]
        exact ⟨rfl, rfl⟩
      simp only [turnOf, seen_quiet hq]
    | ok stream =>
      have hplace : ∀ front : String, front ++ toString s!"{remoteHost}:{remotePort}" =
          front ++ remoteHost ++ ":" ++ toString remotePort := by
        intro front
        change front ++ (remoteHost ++ ":" ++ toString remotePort) = _
        simp only [String.append_assoc]
      have haccepts : ∀ text b, acceptsOf b (log ++ [.connect (.tcp localPort remoteHost remotePort),
          .spawnRead env.spawn (.tcpClient localPort) stream, say text]) = acceptsOf b log :=
        fun text b ↦ congrArg List.length (suffixesOf_clientOpened rfl)
      have hopens : ∀ text, ipcOpens (log ++ [.connect (.tcp localPort remoteHost remotePort),
          .spawnRead env.spawn (.tcpClient localPort) stream, say text]) = ipcOpens log :=
        fun text ↦ ipcOpens_append _ _
      simp only [turnOf, seen, spawnStream, funext (haccepts _), hopens, view_insertStream]
      rw [hplace]
      rfl

theorem openIpcClient_turn {remotePath : PathBuf} (hn : ClientsNumbered reg log) :
    (reg.seen log).command env tour (.openIpcClient remotePath) =
      turnOf (reg.handleCommand env (.openIpcClient remotePath)) log := by
  have hseq : reg.allocIpcClientSeq.1 = clientNumber (ipcOpens log) := hn.next
  simp only [Switchboard.command, handleCommand, hseq]
  unfold Switchboard.openClient
  cases env.connect (.ipc remotePath) with
  | error e =>
    have haccepts : ∀ b, acceptsOf b (log ++ [.connect (.ipc remotePath)]) = acceptsOf b log :=
      fun b ↦ congrArg List.length (suffixesOf_append (by simp [Effect.spawned]))
    have hopens : ipcOpens (log ++ [.connect (.ipc remotePath)]) = ipcOpens log + 1 :=
      ipcOpens_append _ _
    simp only [turnOf, seen, funext haccepts, hopens]
    rfl
  | ok stream =>
    have haccepts : ∀ text b, acceptsOf b (log ++ [.connect (.ipc remotePath),
        .spawnRead env.spawn (.ipcClient (clientNumber (ipcOpens log))) stream, say text]) =
          acceptsOf b log :=
      fun text b ↦ congrArg List.length (suffixesOf_clientOpened rfl)
    have hopens : ∀ text, ipcOpens (log ++ [.connect (.ipc remotePath),
        .spawnRead env.spawn (.ipcClient (clientNumber (ipcOpens log))) stream, say text]) =
          ipcOpens log + 1 := fun text ↦ ipcOpens_append _ _
    simp only [turnOf, seen, spawnStream, funext (haccepts _), hopens, view_insertStream]
    rfl

theorem about_turn {token : String} {turn : ConnectionId → ConnectionId → Switchboard.Turn}
    {f : ConnectionId → ConnectionId → Handled}
    (h : ∀ id typed, turn id typed = turnOf (f id typed) log) :
    (reg.seen log).about token turn =
      turnOf (match reg.resolveId token defaultTokenParser with
        | .ok typed => f (reg.entryOf token typed) typed
        | .error e => ⟨reg, [], .err e.message⟩) log := by
  rw [Switchboard.about, view_find]
  cases reg.resolveId token defaultTokenParser with
  | ok typed => exact h (reg.entryOf token typed) typed
  | error e => exact refuse_eq e

theorem close_turn {token : String} (hs : Sound reg log)
    (ht : ∀ sid, tour.members sid = reg.children env.order sid) :
    (reg.seen log).command env tour (.close token) =
      turnOf (reg.handleCommand env (.close token)) log := by
  have hw := hs.wellFormed
  simp only [Switchboard.command, handleCommand]
  rw [about_turn (f := fun id typed ↦ if id ∈ reg.servers then
      ⟨(reg.dropServer env.order id).1,
        (reg.dropServer env.order id).2 ++ [say s!"[{typed}] CLOSED"],
        .ok s!"closed server {typed} and all its children"⟩
    else if id ∈ reg.streams then
      ⟨(reg.dropStream id).1, (reg.dropStream id).2 ++ [say s!"[{typed}] CLOSED"],
        .ok s!"closed {typed}"⟩
    else ⟨reg, [], .err (DomainError.unknownId token).message⟩)]
  · cases reg.resolveId token defaultTokenParser <;> rfl
  · intro id typed
    unfold Switchboard.close
    by_cases hv : id ∈ reg.servers
    · obtain ⟨srv, hsrv⟩ := mem_iff_lookup.mp hv
      rw [if_pos hv, if_pos (isSome_stations.mpr hv), ht, view_dismiss hs.owned hv]
      exact answer_eq (Quiet.dropServer.append (Quiet.say _)) (view_dropServer hw hsrv env.order)
    · rw [if_neg hv, if_neg (mt isSome_stations.mp hv)]
      by_cases hid : id ∈ reg.streams
      · rw [if_pos hid, if_pos (isSome_lines.mpr hid), view_hangUp, aborts_singleton]
        exact answer_eq (Quiet.dropStream.append (Quiet.say _)) (view_dropStream hv)
      · rw [if_neg hid, if_neg (mt isSome_lines.mp hid), refuse_eq]

def sentOutcome (typed : ConnectionId) (bytes : List UInt8) :
    Except DomainError Unit → CommandOutcome
  | .ok () => .ok s!"sent {bytes.length} bytes to {typed}"
  | .error e => .err (e.naming typed).message

theorem send_eq {bytes : List UInt8} (hw : WellFormed reg)
    (ht : ∀ sid, tour.members sid = reg.children env.order sid) (id typed : ConnectionId) :
    (reg.seen log).send env tour id typed bytes =
      (reg.seen log).answer (reg.sendBytes env id bytes).2
        (sentOutcome typed bytes (reg.sendBytes env id bytes).1) := by
  unfold Switchboard.send
  by_cases hb : bytes.isEmpty = true
  · simp only [sendBytes, hb, if_true]
    rfl
  simp only [hb, Bool.false_eq_true, if_false]
  by_cases hid : id ∈ reg.servers
  · obtain ⟨srv, hsrv⟩ := mem_iff_lookup.mp hid
    rw [if_pos (isSome_stations.mpr hid), ht, children_of_lookup hsrv]
    simp only [sendBytes, hb, Bool.false_eq_true, if_false, hw.isServer_of_mem hid, if_true, hsrv]
    split_ifs
    · rfl
    · have hlive : ∀ k ∈ env.order.visit srv.children,
          ∃ h, reg.streams.lookup k = some h ∧ h.state.status = .connected := by
        intro k hk
        obtain ⟨h, hs, -⟩ := ((reg.visitsChildren hw hsrv env.order).all k).mp hk
        exact ⟨h, hs, hw.stream_connected hs⟩
      rw [broadcast_eq _ hlive, ← funext fun k ↦ view_write hw bytes k]
      rfl
  · rw [if_neg (mt isSome_stations.mp hid)]
    cases hs : reg.streams.lookup id with
    | some h =>
      have hsent : reg.sendBytes env id bytes = reg.writeToStream env id bytes := by
        simp only [sendBytes, hb, hw.not_isServer_of_mem (mem_of_lookup hs), Bool.false_eq_true,
          if_false]
      rw [hsent, writeToStream_connected hs (hw.stream_connected hs), lines_of_lookup hs]
      simp only [StreamHandle.line]
      cases env.write h.stream bytes <;> rfl
    | none =>
      have hnone : (reg.seen log).lines id = none := by simp only [view, hs, Option.map_none]
      have hsent : reg.sendBytes env id bytes = (.error (.unknownId s!"{id}"), []) := by
        simp only [sendBytes, hb, Bool.false_eq_true, if_false, not_mem_iff_lookup.mp hid,
          writeToStream, hs, ite_self]
      rw [hsent, hnone]
      rfl

theorem send_turn {token : String} {bytes : List UInt8} (hw : WellFormed reg)
    (ht : ∀ sid, tour.members sid = reg.children env.order sid) :
    (reg.seen log).command env tour (.send token bytes) =
      turnOf (reg.handleCommand env (.send token bytes)) log := by
  simp only [Switchboard.command, handleCommand]
  rw [about_turn (f := fun id typed ↦ ⟨reg, (reg.sendBytes env id bytes).2,
    sentOutcome typed bytes (reg.sendBytes env id bytes).1⟩)]
  · cases reg.resolveId token defaultTokenParser with
    | error e => rfl
    | ok typed =>
      cases hsent : (reg.sendBytes env (reg.entryOf token typed) bytes).1 <;>
        simp only [hsent, sentOutcome]
  · intro id typed
    rw [send_eq hw ht]
    exact answer_eq Quiet.send rfl

theorem replaceLabel_eq (id typed : ConnectionId) (name : String) :
    (reg.replaceLabel id typed name).2 =
    if id ∈ reg.streams ∨ id ∈ reg.servers then .ok () else .error (.unknownId s!"{typed}") := by
  unfold replaceLabel
  cases hs : reg.streams.lookup id with
  | some h => rw [if_pos (.inl (mem_of_lookup hs))]
  | none =>
    cases hv : reg.servers.lookup id with
    | some srv => rw [if_pos (.inr (mem_of_lookup hv))]
    | none =>
      rw [if_neg (not_or.mpr ⟨not_mem_iff_lookup.mpr hs, not_mem_iff_lookup.mpr hv⟩)]

theorem relabel_eq (hw : WellFormed reg) (id typed : ConnectionId) (name : String) :
    (reg.seen log).relabel id typed name =
      ((reg.cmdLabel id typed name).1.seen log).answer [] (reg.cmdLabel id typed name).2 := by
  have hlabels : (((reg.seen log).labels name).any fun other ↦
      decide ((reg.seen log).keyOf other.id ≠ id)) =
      (reg.labels.lookup name).any fun other ↦ decide (reg.keyOf other ≠ id) := by
    rw [show (reg.seen log).keyOf = reg.keyOf from funext view_keyOf]
    exact Option.any_map
  unfold Switchboard.relabel
  by_cases htaken : ((reg.labels.lookup name).any fun other ↦
      decide (reg.keyOf other ≠ id)) = true
  · rw [hlabels, if_pos htaken]
    have happlied : reg.applyLabel id typed name = (reg, .error (.labelAlreadyInUse name)) := by
      unfold applyLabel
      cases hl : reg.labels.lookup name with
      | none => simp [hl] at htaken
      | some other => exact if_pos (by simpa [hl] using htaken)
    simp only [cmdLabel, happlied]
    rfl
  · rw [hlabels, if_neg htaken, view_present]
    have happlied : reg.applyLabel id typed name = reg.replaceLabel id typed name := by
      unfold applyLabel
      cases hl : reg.labels.lookup name with
      | none => rfl
      | some other =>
        have heq : ¬reg.keyOf other ≠ id := fun hne ↦ htaken (by simpa [hl] using hne)
        exact if_neg heq
    by_cases hp : id ∈ reg.streams ∨ id ∈ reg.servers
    · have hok : (reg.replaceLabel id typed name).2 = .ok () := by rw [replaceLabel_eq, if_pos hp]
      simp only [hp, decide_true, if_true, cmdLabel, happlied, hok, view_replaceLabel hw hok]
    · have herr : (reg.replaceLabel id typed name).2 = .error (.unknownId s!"{typed}") := by
        rw [replaceLabel_eq, if_neg hp]
      have hsame : (reg.replaceLabel id typed name).1 = reg := by
        rw [← happlied] at herr ⊢
        exact applyLabel_error herr
      simp only [hp, decide_false, Bool.false_eq_true, if_false, cmdLabel, happlied, herr, hsame]
      rfl

theorem label_turn {token name : String} (hw : WellFormed reg) :
    (reg.seen log).command env tour (.label token name) =
      turnOf (reg.handleCommand env (.label token name)) log := by
  simp only [Switchboard.command, handleCommand]
  rw [about_turn (f := fun id typed ↦
    ⟨(reg.cmdLabel id typed name).1, [], (reg.cmdLabel id typed name).2⟩)]
  · cases reg.resolveId token defaultTokenParser <;> rfl
  · intro id typed
    rw [relabel_eq hw]
    exact answer_eq Quiet.nil rfl

section Status

theorem connected_tag (front rest : String) :
    front ++ "    [" ++ "CONNECTED" ++ "]" ++ rest = front ++ "    [CONNECTED]" ++ rest := by
  simp only [String.append_assoc]
  rfl

theorem clientRow_line {h : StreamHandle} (hc : h.state.status = .connected) (id : ConnectionId) :
    clientRow id h = Switchboard.clientRow id h.line := by
  delta clientRow Switchboard.clientRow
  rw [hc]
  exact congrArg (· ++ "\n") (connected_tag _ _)

theorem childRow_line {h : StreamHandle} (hc : h.state.status = .connected) (id : ConnectionId) :
    childRow id h = Switchboard.memberRow id h.line := by
  delta childRow Switchboard.memberRow
  rw [hc]
  exact congrArg (· ++ "\n") (connected_tag _ _)

theorem view_rows {row : ConnectionId → StreamHandle → String}
    {row' : ConnectionId → Line → String}
    (h : ∀ id s, reg.streams.lookup id = some s → row id s = row' id s.line)
    (ids : List ConnectionId) : (reg.view a n).rows row' ids = reg.rows row ids := by
  refine congrArg String.join (List.map_congr_left fun id _ ↦ ?_)
  cases hs : reg.streams.lookup id with
  | none => simp only [view, hs, Option.map_none]
  | some s => rw [lines_of_lookup hs, Option.map_some, Option.map_some, h id s hs]

theorem status_eq (hw : WellFormed reg) {tour : (reg.view a n).Tour}
    (hc : sortById tour.clients = reg.clientIds order)
    (hv : sortById tour.servers = reg.serverIds order)
    (hm : ∀ sid, tour.members sid = reg.children order sid) :
    (reg.view a n).status tour = reg.renderStatus order := by
  have hclients : ∀ ids, (reg.view a n).rows Switchboard.clientRow ids = reg.rows clientRow ids :=
    view_rows fun id s hs ↦ clientRow_line (hw.stream_connected hs) id
  have hmembers : ∀ ids, (reg.view a n).rows Switchboard.memberRow ids = reg.rows childRow ids :=
    view_rows fun id s hs ↦ childRow_line (hw.stream_connected hs) id
  have hservers : ((reg.serverIds order).map fun sid ↦ s!"  {sid}\n" ++
      (reg.view a n).rows Switchboard.memberRow (sortById (tour.members sid))) =
        (reg.serverIds order).map (reg.serverRows order) := by
    refine List.map_congr_left fun sid hsid ↦ ?_
    obtain ⟨srv, hsrv⟩ := mem_iff_lookup.mp (mem_serverIds.mp hsid)
    simp only [serverRows, hsrv, hm, children_of_lookup hsrv, hmembers]
  simp only [Switchboard.status, renderStatus, hc, hv, hclients, hservers]

end Status

theorem command_turn (hs : Sound reg log) (cmd : Command) :
    (reg.seen log).command env (commandTour hs.wellFormed env.order) cmd =
      turnOf (reg.handleCommand env cmd) log := by
  have hw := hs.wellFormed
  have hmembers : ∀ sid, (commandTour (a := fun b ↦ acceptsOf b log) (n := ipcOpens log) hw
      env.order).members sid = reg.children env.order sid := fun _ ↦ rfl
  cases cmd with
  | openTcpServer port =>
    have hfree : (ConnectionId.tcpServer port ∈ reg.servers ∨
        ConnectionId.tcpServer port ∈ reg.streams) ↔ ConnectionId.tcpServer port ∈ reg.servers :=
      or_iff_left fun hv ↦ by cases hw.not_isServer_of_mem hv
    have hturn : (reg.seen log).openServer env (.tcpServer port) (.tcp port) =
        turnOf (if reg.keyOf (.tcpServer port) ∈ reg.servers
          then ⟨reg, [],
            .err (DomainError.idAlreadyInUse (ConnectionId.tcpServer port).display).message⟩
          else reg.openServer env (.tcpServer port) (.tcp port) none) log := openServer_turn
    rw [keyOf_tcpServer] at hturn
    simp only [Switchboard.command, handleCommand, hfree]
    exact hturn
  | openIpcServer path => exact openServer_turn
  | openTcpClient localPort remoteHost remotePort => exact openTcpClient_turn hw
  | openIpcClient remotePath => exact openIpcClient_turn hs.numbered
  | close token => exact close_turn hs hmembers
  | send token bytes => exact send_turn hw hmembers
  | label token name => exact label_turn hw
  | status =>
    have hstatus : (reg.seen log).status (commandTour hw env.order) = reg.renderStatus env.order :=
      status_eq hw rfl rfl fun _ ↦ rfl
    simp only [Switchboard.command, handleCommand, cmdStatus, hstatus]
    exact answer_eq Quiet.nil rfl

end Commands

section Others

theorem proceed_eq {board : Switchboard} (hq : Quiet effects) (hb : reg.seen log = board) :
    board.proceed effects = (reg.seen (log ++ effects)).proceed effects := by
  rw [seen_quiet hq, hb]

theorem event_turn (hw : WellFormed reg) (ev : NetEvent) :
    (reg.seen log).event ev = ((reg.handleEvent ev).1.seen (log ++ (reg.handleEvent ev).2)).proceed
      (reg.handleEvent ev).2 := by
  cases ev with
  | received id bytes =>
    simp only [Switchboard.event, view_name hw]
    exact proceed_eq (Quiet.say _) rfl
  | error id message =>
    simp only [Switchboard.event, view_name hw]
    exact proceed_eq (Quiet.say _) rfl
  | renamed newId oldId => exact proceed_eq Quiet.nil rfl
  | closed id =>
    simp only [Switchboard.event, handleEvent, onClosedEvent]
    by_cases hid : id ∈ reg.streams
    · rw [if_pos hid, if_pos (isSome_lines.mpr hid), view_name hw, view_hangUp, aborts_singleton]
      exact proceed_eq (Quiet.dropStream.append (Quiet.say _))
        (view_dropStream (hw.stream_not_server hid))
    · rw [if_neg hid, if_neg (mt isSome_lines.mp hid)]
      exact proceed_eq Quiet.nil rfl

/-- Of the changes an allocator makes only the rename of a line can be seen. -/
theorem Allocated.view {b : Base} {ev : Option NetEvent} (ht : Tracked reg)
    (h : reg.Allocated b reg' id ev) : reg'.view a n =
      if ev.isSome then (reg.view a n).move (b.accepted none) (b.accepted (some 1))
      else reg.view a n := by
  cases h with
  | first hsrv hbase hnext => exact view_setServer hsrv rfl rfl
  | next hsrv hbase hn => exact view_setServer hsrv rfl rfl
  | @second srv old _ hsrv hold hstreams hservers hlabels _ htyped =>
    cases ht.lookup_base hsrv hold
    have hnaming : reg'.naming = reg.naming := by
      funext name
      rw [naming, naming, hlabels, htyped]
    refine view_move _ _ hnaming hstreams fun k ↦ ?_
    rw [hservers, lookup_servers_rename, Option.map_map, Option.map_map]
    refine congrArg (fun f ↦ (reg.servers.lookup k).map f) (funext fun s ↦ ?_)
    simp only [Function.comp_apply]
    split_ifs <;> rfl

theorem admit_turn (hs : Sound reg log) {b : Base} {ev : Option NetEvent} {peerInfo : PeerInfo}
    {stream : BoxedStream} (h : reg.Allocated b reg' id ev) {registered : Registry × List Effect}
    (hr : register env b.server peerInfo stream (reg', id, ev) = registered) :
    (reg.seen log).welcome env b peerInfo stream =
      (registered.1.seen (log ++ registered.2)).proceed registered.2 := by
  have hview : reg'.view (fun b ↦ acceptsOf b log) (ipcOpens log) = _ := h.view hs.tracked
  obtain ⟨rfl, rfl, -⟩ := h.marks hs.tracked (hs.recorded.marks b)
  have haccepts : ∀ b', acceptsOf b' (log ++ registered.2) =
      Function.update (fun b ↦ acceptsOf b log) b (acceptsOf b log + 1) b' := by
    intro b'
    rw [← hr, acceptsOf, suffixesOf_register, Function.update_apply]
    by_cases hb : b = b'
    · rw [if_pos hb, if_pos hb.symm, List.length_append, ← hb]
      rfl
    · rw [if_neg hb, if_neg (Ne.symm hb)]
      rfl
  have hopens : ipcOpens (log ++ registered.2) = ipcOpens log := by
    rw [← hr, ipcOpens_append]
    exact Nat.add_eq_left.mpr (List.countP_eq_zero.mpr fun e he ↦ by simp [(aside_register e he).1])
  have hboard : registered.1.seen (log ++ registered.2) =
      (reg.seen log).accept b ⟨stream, env.spawn, some peerInfo, none⟩ := by
    have hlines : registered.1.seen log = (reg'.seen log).connect
        (b.accepted (suffixAfter (acceptsOf b log))) ⟨stream, env.spawn, some peerInfo, none⟩ := by
      rw [← hr]
      exact view_insertStream _
    have hcounted : registered.1.seen (log ++ registered.2) =
        { registered.1.seen log with
          accepts := Function.update (fun b ↦ acceptsOf b log) b (acceptsOf b log + 1) } := by
      rw [seen, hopens, funext haccepts]
      rfl
    have hmoved : (if (reg.seen log).accepts b = 1
        then (reg.seen log).move (b.accepted none) (b.accepted (some 1)) else reg.seen log) =
          reg'.seen log := by
      have hcount : (reg.seen log).accepts b = acceptsOf b log := rfl
      rw [hcount]
      refine Eq.trans ?_ hview.symm
      split_ifs <;> first | rfl | contradiction
    rw [hcounted, hlines]
    unfold Switchboard.accept
    simp only [hmoved]
    rfl
  have heffects : registered.2 = (if acceptsOf b log = 1
      then [say s!"[{b.accepted (some 1)}] RENAMED {b.accepted none}"] else []) ++
        [.spawnRead env.spawn (b.accepted (suffixAfter (acceptsOf b log))) stream,
          say s!"[{b.accepted (suffixAfter (acceptsOf b log))}] ACCEPT peer={peerInfo.render}"] := by
    rw [← hr]
    unfold register
    split_ifs <;> rfl
  rw [hboard, heffects]
  rfl

/-- The streams that closing every server takes along are those with a parent. -/
theorem group_of_visited (hw : WellFormed reg) (order : IterationOrder ConnectionId)
    {k : ConnectionId} (hk : k ∈ reg.streams) :
    (∃ sid ∈ order.visit reg.servers.keys, k ∈ Switchboard.group sid) ↔ k.parent? ≠ none := by
  simp only [order.mem_visit, Finmap.mem_keys]
  constructor
  · intro h hp
    obtain ⟨sid, hsid, hg⟩ := h
    rcases hg with he | he
    · exact hw.stream_not_server hk (he ▸ hsid)
    · cases hp.symm.trans he
  · intro hp
    obtain ⟨sid, hp⟩ := Option.ne_none_iff_exists'.mp hp
    exact ⟨sid, hw.parent_registered k sid hk hp, .inr hp⟩

theorem view_closed (hw : WellFormed reg) :
    (reg.dropServers order (order.visit reg.servers.keys)).1.view a n =
      (reg.view a n).remove {k | ∃ sid ∈ order.visit reg.servers.keys, k ∈ Switchboard.group sid} :=
  view_dropServers hw order (order.nodup _) fun k hk ↦
    Finmap.mem_keys.mp ((order.mem_visit _ k).mp hk)

theorem mem_streams_closed (hw : WellFormed reg) {k : ConnectionId} :
    k ∈ (reg.dropServers order (order.visit reg.servers.keys)).1.streams ↔
      k ∈ reg.streams ∧ k.parent? = none := by
  rw [← isSome_lines (a := fun _ ↦ 0) (n := 0), view_closed hw]
  by_cases hk : k ∈ reg.streams
  · simp only [Switchboard.remove, Set.mem_ofPred_eq, group_of_visited hw order hk]
    by_cases hp : k.parent? = none <;> simp [hp, hk, isSome_lines]
  · have hnone : (reg.view (fun _ ↦ 0) 0).lines k = none :=
      Option.not_isSome_iff_eq_none.mp (mt isSome_lines.mp hk)
    simp [Switchboard.remove, hk, hnone]

theorem lists_clients_closed (hw : WellFormed reg) (order : IterationOrder ConnectionId) :
    Lists (order.visit (reg.dropServers order (order.visit reg.servers.keys)).1.streams.keys)
      (reg.view a n).clients where
  nodup := order.nodup _
  mem_iff k := by
    rw [order.mem_visit, Finmap.mem_keys, mem_streams_closed hw]
    exact and_congr_left' isSome_lines.symm

def shutdownTour (hw : WellFormed reg) (order : IterationOrder ConnectionId) :
    (reg.view a n).Tour := reg.tour hw order _ (lists_clients_closed hw order)

theorem quiet_shutdown : Quiet (reg.shutdown order).2 := by
  have hlog : Quiet ([] ++ (reg.shutdown order).2) :=
    shutdown_invariant (P := fun _ log ↦ Quiet log)
      (fun _ _ _ h ↦ h.append Quiet.dropServer) (fun _ _ _ h ↦ h.append Quiet.dropStream) Quiet.nil
  exact hlog

theorem view_shutdown (hw : WellFormed reg) :
    (reg.shutdown order).1.view a n = (reg.view a n).remove Set.univ := by
  have hgone : ∀ k, k ∉ (reg.dropServers order (order.visit reg.servers.keys)).1.servers := by
    intro k hk
    obtain ⟨hk, hids⟩ := mem_servers_dropServers hk
    exact hids ((order.mem_visit _ k).mpr (Finmap.mem_keys.mpr hk))
  rw [shutdown, view_dropStreams fun k _ ↦ hgone k, view_closed hw, Switchboard.remove_remove]
  refine Switchboard.remove_congr fun k hk ↦ iff_of_true ?_ (Set.mem_univ k)
  simp only [order.mem_visit, Finmap.mem_keys, mem_streams_closed hw]
  rw [view_present, decide_eq_true_iff] at hk
  rcases hk with hk | hk
  · by_cases hp : k.parent? = none
    · exact .inr ⟨hk, hp⟩
    · obtain ⟨sid, hsid, hg⟩ := (group_of_visited hw order hk).mpr hp
      exact .inl ⟨sid, Finmap.mem_keys.mp ((order.mem_visit _ sid).mp hsid), hg⟩
  · exact .inl ⟨k, hk, .inl rfl⟩

theorem shutdown_effects (hs : Sound reg log) :
    (reg.shutdown order).2 =
      (order.visit reg.servers.keys).flatMap
          (fun sid ↦ (reg.seen log).dismiss (reg.children order sid) sid) ++
        (reg.seen log).hangUp
          (order.visit (reg.dropServers order (order.visit reg.servers.keys)).1.streams.keys) := by
  have hw := hs.wellFormed
  have hin : ∀ k ∈ order.visit reg.servers.keys, k ∈ reg.servers := fun k hk ↦
    Finmap.mem_keys.mp ((order.mem_visit _ k).mp hk)
  have hservers : (reg.dropServers order (order.visit reg.servers.keys)).2 =
      (order.visit reg.servers.keys).flatMap
        fun sid ↦ (reg.seen log).dismiss (reg.children order sid) sid := by
    rw [effects_dropServers hw (order.nodup _) hin]
    exact List.flatMap_congr fun k hk ↦ (view_dismiss hs.owned (hin k hk)).symm
  rw [shutdown, hservers, effects_dropStreams (order.nodup _),
    ← view_hangUp (a := fun _ ↦ 0) (n := 0), view_closed hw]
  refine congrArg _ (List.filterMap_congr fun k hk ↦ ?_)
  obtain ⟨hk, hp⟩ := (mem_streams_closed hw).mp (Finmap.mem_keys.mp ((order.mem_visit _ k).mp hk))
  simp only [Switchboard.remove, Set.mem_ofPred_eq, group_of_visited hw order hk, hp, ne_eq,
    not_true_eq_false, if_false]
  rfl

theorem shutdown_turn (hs : Sound reg log) :
    (reg.seen log).turn env (shutdownTour hs.wellFormed env.order) .shutdown =
      ⟨(reg.shutdown env.order).1.seen (log ++ (reg.shutdown env.order).2),
        ⟨(reg.shutdown env.order).2, none, .stopped⟩⟩ := by
  have hboard : (reg.shutdown env.order).1.seen log = (reg.seen log).remove Set.univ :=
    view_shutdown hs.wellFormed
  rw [seen_quiet quiet_shutdown, hboard, shutdown_effects hs]
  rfl

end Others

def turnOfWorld (w : World) (env : Environment) (input : RegistryInput) : Switchboard.Turn :=
  ⟨(w.handle env input).reg.seen (w.handle env input).log,
    ⟨(w.reg.handleInput env input).effects, (w.reg.handleInput env input).reply,
      (w.handle env input).phase⟩⟩

theorem turn_seen {w : World} (hs : Sound w.reg w.log) (env : Environment)
    (input : RegistryInput) :
    ∃ tour, (w.reg.seen w.log).turn env tour input = turnOfWorld w env input := by
  cases input with
  | shutdown => exact ⟨_, shutdown_turn hs⟩
  | command cmd => exact ⟨_, command_turn hs cmd⟩
  | event ev => exact ⟨commandTour hs.wellFormed env.order, event_turn hs.wellFormed ev⟩
  | accepted parent tentative peerInfo stream =>
    refine ⟨commandTour hs.wellFormed env.order, ?_⟩
    simp only [Switchboard.turn, turnOfWorld, World.handle, handleInput]
    cases hb : acceptedBase parent tentative with
    | none =>
      simp only [handleAccepted_of_no_base hb]
      exact proceed_eq (Quiet.say _) rfl
    | some b =>
      simp only [handleAccepted_of_base hb]
      by_cases hsrv : b.server ∈ w.reg.servers
      · rw [if_pos (isSome_stations.mpr hsrv)]
        cases ha : w.reg.allocate b with
        | none => exact (allocate_eq_none.mp ha hsrv).elim
        | some allocated => exact admit_turn hs (allocate_cases ha) rfl
      · rw [if_neg (mt isSome_stations.mp hsrv), allocate_eq_none.mpr hsrv]
        rfl

end Registry

theorem reachable_iff_observed {w : World} :
    Reachable observedRegistry w ↔ Reachable registrySystem w := by
  constructor
  · exact Reachable.invariant (fun _ hi ↦ .init hi) fun _ _ _ _ h hs ↦ h.step hs.1
  · refine Reachable.invariant (fun _ hi ↦ .init hi) fun w a w' _ h hs ↦ ?_
    exact Reachable.step (a := (a, ⟨(w.reg.handleInput a.1 a.2).effects,
      (w.reg.handleInput a.1 a.2).reply, w'.phase⟩)) h ⟨hs, rfl⟩

/-- The switchboard follows every turn of the registry. -/
theorem switchboard_simulates : Simulation observedRegistry switchboardSystem Eq
    fun w s ↦ s = (w.reg.seen w.log, w.phase) where
  init w hw := by
    cases hw
    exact ⟨_, rfl, rfl⟩
  step w a w' s _ hw hs ha hstep := by
    obtain ⟨⟨env, input⟩, seen⟩ := a
    subst ha
    obtain ⟨⟨hrun, -, rfl⟩, hseen⟩ := hstep
    subst hs
    have hsound := sound_of_reachable (reachable_iff_observed.mp hw)
    obtain ⟨tour, hturn⟩ := Registry.turn_seen hsound env input
    refine ⟨_, ⟨hrun, tour, (congrArg Switchboard.Turn.seen hturn).trans hseen.symm, rfl⟩, ?_⟩
    rw [hturn, show seen = _ from hseen]
    rfl

/-- In every run of the registry, whatever is asked of it and however the calls are
answered, each turn makes the calls and gives the reply of a turn of the switchboard:
the links between the entries of the registry, the states and paths it keeps with them,
and the marks and the counters it numbers by, can be seen nowhere else. -/
theorem registry_refines_switchboard
    {hist : List (World × (Environment × RegistryInput) × Observation)} {w : World}
    (hr : Run observedRegistry hist w) :
    ∃ hist', Run switchboardSystem hist' (w.reg.seen w.log, w.phase) ∧
      hist'.map Prod.snd = hist.map Prod.snd := by
  obtain ⟨hist', s, hrun, hlabels, rfl, -⟩ := switchboard_simulates.run hr (List.forall₂_refl _)
  exact ⟨hist', hrun, hlabels⟩

theorem registry_refines_switchboard_run :
    ∃ w hist, World.initial.play (fun _ _ ↦ true) [.command (.openTcpServer 3000),
        tcpHandoff 3000 10015 7, tcpHandoff 3000 10015 8, .command (.label "3000.10015#2" "cam"),
        .command (.close "3000.10015#1"), tcpHandoff 3000 10015 9] = some w ∧
      w.reg.streams.keys.card = 1 ∧ Run observedRegistry hist w ∧
      ∃ hist', Run switchboardSystem hist' (w.reg.seen w.log, w.phase) ∧
        hist'.map Prod.snd = hist.map Prod.snd := by
  have hrun : ∃ w ∈ World.initial.play (fun _ _ ↦ true) [.command (.openTcpServer 3000),
      tcpHandoff 3000 10015 7, tcpHandoff 3000 10015 8, .command (.label "3000.10015#2" "cam"),
      .command (.close "3000.10015#1"), tcpHandoff 3000 10015 9],
      w.reg.streams.keys.card = 1 := by decide +kernel
  obtain ⟨w, hw, hstreams⟩ := hrun
  obtain ⟨hist, hhist⟩ := (reachable_iff_observed.mpr (reachable_play hw)).run
  exact ⟨w, hist, hw, hstreams, hhist, registry_refines_switchboard hhist⟩

end WireDock
