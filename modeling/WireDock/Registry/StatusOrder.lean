import WireDock.Registry.StatusReport
import WireDock.Registry.Twins

namespace WireDock

open FiniteMap LabelledSystem

/-- While a TCP server and an IPC server on the path spelled as its port are
both registered, neither of them has an accepted connection. -/
def TellsServersApart (reg : Registry) : Prop :=
  ∀ port srv srv', reg.servers.lookup (.tcpServer port) = some srv →
    reg.servers.lookup (.ipcServer (toString port)) = some srv' →
    srv.children = ∅ ∧ srv'.children = ∅

namespace Registry

variable {reg : Registry} {order order' : IterationOrder ConnectionId}

section SharedKeys

theorem eq_of_client_display (hw : WellFormed reg) {a b : ConnectionId}
    (ha : a ∈ reg.streams ∧ reg.parentOf a = none) (hb : b ∈ reg.streams ∧ reg.parentOf b = none)
    (h : a.display = b.display) : a = b := by
  have hclient : ∀ {k}, k ∈ reg.streams ∧ reg.parentOf k = none →
      k.isServer = false ∧ k.parent? = none := fun hk ↦
    ⟨hw.not_isServer_of_mem hk.1, by rw [← hw.parentOf_eq hk.1, hk.2]⟩
  obtain ⟨hsa, hpa⟩ := hclient ha
  obtain ⟨hsb, hpb⟩ := hclient hb
  have htwin : ∀ {k k' : ConnectionId}, k.isServer = false → k.parent? = none →
      ConnectionId.twin k k' = false := fun {k k'} hs hp ↦ by
    cases k with
    | tcpServer | ipcServer => cases hs
    | acceptedTcp | acceptedIpc => cases hp
    | tcpClient | ipcClient => rfl
  exact ConnectionId.eq_of_display h (htwin hsa hpa) (htwin hsb hpb)

theorem eq_of_child_display {a b sid : ConnectionId} (ha : a.parent? = some sid)
    (hb : b.parent? = some sid) (h : a.display = b.display) : a = b := by
  have htwin : ∀ {k k' : ConnectionId}, k.parent? = some sid → k'.parent? = some sid →
      ConnectionId.twin k k' = false := fun {k k'} hk hk' ↦ by
    cases k <;> cases hk <;> cases k' <;> cases hk' <;> rfl
  exact ConnectionId.eq_of_display h (htwin ha hb) (htwin hb ha)

/-- The servers printed alike are the TCP server of a port and the IPC server
on the path spelled as the port. -/
theorem server_display {a b : ConnectionId} (ha : a.isServer = true) (hb : b.isServer = true)
    (h : a.display = b.display) : a = b ∨ ∃ port : UInt16,
      a = .tcpServer port ∧ b = .ipcServer (toString port) ∨
      a = .ipcServer (toString port) ∧ b = .tcpServer port := by
  cases a with
  | tcpServer port =>
    cases b with
    | tcpServer port' => exact .inl (congrArg _ (toString_u16_inj h))
    | ipcServer path => exact .inr ⟨port, .inl ⟨rfl, congrArg _ h.symm⟩⟩
    | _ => cases hb
  | ipcServer path =>
    cases b with
    | tcpServer port => exact .inr ⟨port, .inr ⟨congrArg _ h, rfl⟩⟩
    | ipcServer path' => exact .inl (congrArg _ h)
    | _ => cases hb
  | _ => cases ha

end SharedKeys

section Independence

theorem clientIds_order (hw : WellFormed reg) (order order' : IterationOrder ConnectionId) :
    reg.clientIds order = reg.clientIds order' := by
  have hmem : ∀ {id}, id ∈ (order.visit reg.streams.keys).filter (fun id ↦
      (reg.streams.lookup id).any fun h ↦ h.parent.isNone) →
        id ∈ reg.streams ∧ reg.parentOf id = none := fun hid ↦
    mem_clientIds.mp (mem_sortByKey.mpr hid)
  refine sortByKey_eq_of_perm ((order.visit_perm order' _).filter _) fun a ha b hb h ↦ ?_
  exact eq_of_client_display hw (hmem ha) (hmem hb) h

theorem childIds_order (hw : WellFormed reg) (order order' : IterationOrder ConnectionId)
    (sid : ConnectionId) : reg.childIds order sid = reg.childIds order' sid := by
  cases hsrv : reg.servers.lookup sid with
  | none => simp only [childIds, hsrv]
  | some srv =>
    simp only [childIds, hsrv]
    refine sortByKey_eq_of_perm (order.visit_perm order' _) fun a ha b hb h ↦ ?_
    rw [order.mem_visit, hw.children_iff sid srv hsrv] at ha hb
    exact eq_of_child_display ha.2 hb.2 h

def serverLines (order : IterationOrder ConnectionId) (reg : Registry) (sid : ConnectionId) :
    String :=
  StatusReport.serverText (sid, (reg.childIds order sid).filterMap reg.row?)

theorem clientsText_order (hw : WellFormed reg) (order order' : IterationOrder ConnectionId) :
    (reg.report order).clientsText = (reg.report order').clientsText := by
  rw [StatusReport.clientsText, StatusReport.clientsText, report, report,
    clientIds_order hw order order']

theorem serverLines_order (hw : WellFormed reg) (order order' : IterationOrder ConnectionId) :
    reg.serverLines order = reg.serverLines order' :=
  funext fun sid ↦ by rw [serverLines, serverLines, childIds_order hw order order']

theorem text_report (order : IterationOrder ConnectionId) (reg : Registry) :
    (reg.report order).text = "CLIENTS\n" ++ (reg.report order).clientsText ++ "\nSERVERS\n" ++
      StatusReport.sectionText ((reg.serverIds order).map (reg.serverLines order)) := by
  rw [StatusReport.text, StatusReport.serversText, report, List.map_map]
  rfl

theorem childIds_eq_nil_iff {sid : ConnectionId} {srv : ServerHandle}
    (hsrv : reg.servers.lookup sid = some srv) :
    reg.childIds order sid = [] ↔ srv.children = ∅ := by
  rw [List.eq_nil_iff_forall_not_mem, Finset.eq_empty_iff_forall_notMem]
  simp only [(childIds_perm hsrv).mem_iff, order.mem_visit]

theorem serverLines_twin (h : TellsServersApart reg) {port : UInt16}
    (hs : .tcpServer port ∈ reg.servers) (hs' : .ipcServer (toString port) ∈ reg.servers) :
    reg.serverLines order (.tcpServer port) =
      reg.serverLines order (.ipcServer (toString port)) := by
  obtain ⟨srv, hsrv⟩ := mem_iff_lookup.mp hs
  obtain ⟨srv', hsrv'⟩ := mem_iff_lookup.mp hs'
  obtain ⟨hc, hc'⟩ := h port srv srv' hsrv hsrv'
  rw [serverLines, serverLines, (childIds_eq_nil_iff hsrv).mpr hc,
    (childIds_eq_nil_iff hsrv').mpr hc']
  rfl

theorem serverLines_of_display (hw : WellFormed reg) (h : TellsServersApart reg)
    {a b : ConnectionId} (ha : a ∈ reg.servers) (hb : b ∈ reg.servers)
    (hd : a.display = b.display) : reg.serverLines order a = reg.serverLines order b := by
  rcases server_display (hw.isServer_of_mem ha) (hw.isServer_of_mem hb) hd with
    rfl | ⟨port, ⟨rfl, rfl⟩ | ⟨rfl, rfl⟩⟩
  · rfl
  · exact serverLines_twin h ha hb
  · exact (serverLines_twin h hb ha).symm

theorem renderStatus_order (hw : WellFormed reg) (hk : PeersKnown NoPidForClient reg)
    (h : TellsServersApart reg) (order order' : IterationOrder ConnectionId) :
    reg.renderStatus order = reg.renderStatus order' := by
  have hservers : (reg.serverIds order).map (reg.serverLines order) =
      (reg.serverIds order').map (reg.serverLines order') := by
    rw [serverLines_order hw order' order]
    refine map_sortByKey_of_perm (order.visit_perm order' _) fun a ha b hb hd ↦ ?_
    rw [order.mem_visit, Finmap.mem_keys] at ha hb
    exact serverLines_of_display hw h ha hb hd
  rw [renderStatus_eq hk, renderStatus_eq hk, text_report, text_report,
    clientsText_order hw order order', hservers]

end Independence

end Registry

namespace StatusReport

def childrenText (rows : List StreamRow) : List Char :=
  (String.join (rows.map StreamRow.childLine)).toList

theorem childrenText_cons (row : StreamRow) (rows : List StreamRow) :
    ∃ s, childrenText (row :: rows) = ' ' :: ' ' :: ' ' :: ' ' :: (row.id.display.toList ++
      ' ' :: ("   peer=".toList ++ (row.peer.render.toList ++ s))) := by
  obtain ⟨s, hs⟩ := row.toList_childLine
  refine ⟨s ++ childrenText rows, ?_⟩
  rw [childrenText, List.map_cons, String.join_cons, String.toList_append, hs, childrenText]
  simp only [List.cons_append, List.append_assoc]

variable {a b : ConnectionId} {rows rows' : List StreamRow}

/-- A connection is indented further than a server. -/
theorem childrenText_append_ne {name s s' : List Char} (hname : name ≠ []) (hspace : ' ' ∉ name)
    (hrows : rows ≠ []) : childrenText rows ++ s ≠ ' ' :: ' ' :: (name ++ s') := by
  obtain ⟨row, rest, rfl⟩ := List.exists_cons_of_ne_nil hrows
  obtain ⟨c, cs, rfl⟩ := List.exists_cons_of_ne_nil hname
  obtain ⟨t, ht⟩ := childrenText_cons row rest
  intro h
  simp only [ht, List.cons_append, List.cons.injEq, true_and] at h
  exact hspace (h.1 ▸ List.mem_cons_self)

/-- The blocks of two servers of one name do not commute, when one of them has
a connection and the connections of the two have peers that print differently. -/
theorem serverText_append_ne (hname : a.display = b.display) (hspace : ' ' ∉ a.display.toList)
    (hne : a.display.toList ≠ []) (hrows : ¬(rows = [] ∧ rows' = []))
    (hids : ∀ row ∈ rows ++ rows', ' ' ∉ row.id.display.toList)
    (hpeers : ∀ row ∈ rows, ∀ row' ∈ rows', ∀ s s',
      row.peer.render.toList ++ s ≠ row'.peer.render.toList ++ s') :
    serverText (a, rows) ++ serverText (b, rows') ≠
      serverText (b, rows') ++ serverText (a, rows) := by
  intro h
  have hlist := congrArg String.toList h
  rw [String.toList_append, String.toList_append, toList_serverText, toList_serverText,
    ← hname] at hlist
  -- the two blocks begin with one name: compare what follows it
  have hrest : childrenText rows ++ ' ' :: ' ' :: (a.display.toList ++ '\n' :: childrenText rows') =
      childrenText rows' ++ ' ' :: ' ' :: (a.display.toList ++ '\n' :: childrenText rows) := by
    simpa [childrenText] using hlist
  cases rows with
  | nil =>
    have hrows' : rows' ≠ [] := fun he ↦ hrows ⟨rfl, he⟩
    exact childrenText_append_ne hne hspace hrows' hrest.symm
  | cons row rows =>
    cases rows' with
    | nil => exact childrenText_append_ne hne hspace (List.cons_ne_nil row rows) hrest
    | cons row' rows' =>
      obtain ⟨s, hs⟩ := childrenText_cons row rows
      obtain ⟨s', hs'⟩ := childrenText_cons row' rows'
      rw [hs, hs'] at hrest
      simp only [List.cons_append, List.append_assoc, List.cons.injEq, true_and] at hrest
      have hrow := hids row (List.mem_append_left _ List.mem_cons_self)
      have hrow' := hids row' (List.mem_append_right _ List.mem_cons_self)
      have hpeer := List.append_cancel_left (Text.separator_append_inj hrow hrow' hrest).2
      exact hpeers row List.mem_cons_self row' List.mem_cons_self _ _ hpeer

end StatusReport

section Peers

/-- The text of a socket address begins with a digit or a bracket. -/
def PeerInfo.printed : PeerInfo → Bool
  | .tcpSocket addr => addr.toList.head?.any fun c ↦ c.isDigit || c == '['
  | _ => true

def handedOver : RegistryInput → Bool
  | .accepted parent child peerInfo stream =>
    acceptMessage parent (.ok ⟨stream, peerInfo⟩) =
      some (.accepted parent child peerInfo stream) ∧ peerInfo.printed
  | _ => true

inductive Meets : ConnectionId → PeerInfo → Prop
  | tcp {port : UInt16} {addr : String} (h : (PeerInfo.tcpSocket addr).printed = true) :
    Meets (.tcpServer port) (.tcpSocket addr)
  | ipc {path : PathBuf} {pid : Int32} : Meets (.ipcServer path) (.ipcPid pid)

def MetByParent (parent : Option ConnectionId) (peer : PeerInfo) : Prop :=
  ∀ sid, parent = some sid → Meets sid peer

theorem meets_of_handedOver {parent child : ConnectionId} {peerInfo : PeerInfo}
    {stream : BoxedStream} (h : handedOver (.accepted parent child peerInfo stream) = true) :
    Meets parent peerInfo := by
  obtain ⟨hmessage, hprinted⟩ := of_decide_eq_true h
  cases parent with
  | tcpServer port =>
    cases peerInfo with
    | tcpSocket addr => exact .tcp hprinted
    | ipcPid | ipcRemotePath => cases hmessage
  | ipcServer path =>
    cases peerInfo with
    | ipcPid pid => exact .ipc
    | tcpSocket | ipcRemotePath => cases hmessage
  | _ => cases hmessage

theorem metByParent_of_reachable {w : World}
    (hw : ReachableBy registrySystem (fun _ a ↦ handedOver a.2 = true) w) :
    PeersKnown MetByParent w.reg := by
  refine peersKnown_of_reachable (fun _ _ _ ↦ nofun) ?_ hw
  intro w env parent tentative peerInfo stream b hok hb sid hsid
  cases hsid
  exact meets_of_handedOver hok

theorem Meets.render_ne {port : UInt16} {path : PathBuf} {peer peer' : PeerInfo}
    (h : Meets (.tcpServer port) peer) (h' : Meets (.ipcServer path) peer') (s s' : List Char) :
    peer.render.toList ++ s ≠ peer'.render.toList ++ s' := by
  cases h with
  | @tcp _ addr hprinted =>
    cases h' with
    | @ipc _ pid =>
      have hpid : (PeerInfo.ipcPid pid).render.toList =
          'p' :: ("id=".toList ++ (toString pid).toList) := by
        simp only [PeerInfo.render, String.toList_append]
        rfl
      obtain ⟨c, hc, hfirst⟩ := (Option.any_eq_true _ _).mp hprinted
      obtain ⟨cs, hcs⟩ := List.head?_eq_some_iff.mp hc
      rw [hpid, PeerInfo.render, hcs]
      intro he
      rw [(List.cons.inj he).1] at hfirst
      cases hfirst

end Peers

namespace Registry

variable {reg : Registry}

section Ties

theorem serverIds_first {ids : List ConnectionId} (hn : ids.Nodup)
    (hmem : ∀ sid, sid ∈ ids ↔ sid ∈ reg.servers) (ha : Ascending ConnectionId.display ids) :
    reg.serverIds (.first ids) = ids := by
  rw [serverIds, IterationOrder.visit_first hn fun sid ↦ (hmem sid).trans Finmap.mem_keys.symm,
    sortById_eq, sortByKey_of_ascending ha]

theorem exists_serverIds (hw : WellFormed reg) {port : UInt16}
    (hs : .tcpServer port ∈ reg.servers) (hs' : .ipcServer (toString port) ∈ reg.servers) :
    ∃ p q order order',
      reg.serverIds order = p ++ .tcpServer port :: .ipcServer (toString port) :: q ∧
      reg.serverIds order' = p ++ .ipcServer (toString port) :: .tcpServer port :: q := by
  have hasc : Ascending ConnectionId.display (reg.serverIds (.first [])) := ascending_sortByKey _ _
  have honly : ∀ c ∈ reg.serverIds (.first []),
      c.display = (ConnectionId.tcpServer port).display →
        c = .tcpServer port ∨ c = .ipcServer (toString port) := by
    intro c hc hd
    rcases server_display (hw.isServer_of_mem (mem_serverIds.mp hc)) rfl hd with
      rfl | ⟨port', ⟨rfl, hport⟩ | ⟨rfl, hport⟩⟩
    · exact .inl rfl
    · cases hport
    · cases hport
      exact .inr rfl
  have hlisted : ∀ {x y p q}, reg.serverIds (.first []) = p ++ x :: y :: q →
      x.display = y.display → ∃ order, reg.serverIds order = p ++ y :: x :: q := by
    intro x y p q hids hd
    have hperm : (p ++ y :: x :: q).Perm (reg.serverIds (.first [])) := by
      rw [hids]
      exact (List.Perm.swap x y q).append_left p
    refine ⟨.first _, serverIds_first (hperm.nodup_iff.mpr nodup_serverIds)
      (fun sid ↦ hperm.mem_iff.trans mem_serverIds) ?_⟩
    exact Ascending.swap (hids ▸ hasc) hd
  obtain ⟨p, q, hids | hids⟩ := hasc.exists_neighbours nodup_serverIds (mem_serverIds.mpr hs)
    (mem_serverIds.mpr hs') nofun rfl honly
  · obtain ⟨order, hother⟩ := hlisted hids rfl
    exact ⟨p, q, .first [], order, hids, hother⟩
  · obtain ⟨order, hother⟩ := hlisted hids rfl
    exact ⟨p, q, order, .first [], hother, hids⟩

theorem serverLines_commute (hw : WellFormed reg) (hk : PeersKnown NoPidForClient reg)
    {a b : ConnectionId} {p q : List ConnectionId} {order order' : IterationOrder ConnectionId}
    (hids : reg.serverIds order = p ++ a :: b :: q)
    (hids' : reg.serverIds order' = p ++ b :: a :: q)
    (h : reg.renderStatus order = reg.renderStatus order') :
    reg.serverLines order a ++ reg.serverLines order b =
      reg.serverLines order b ++ reg.serverLines order a := by
  rw [renderStatus_eq hk, renderStatus_eq hk, text_report, text_report,
    serverLines_order hw order' order, clientsText_order hw order' order, hids, hids'] at h
  have hjoin := (String.append_right_inj _).mp h
  rw [List.map_append, List.map_append, List.map_cons, List.map_cons, List.map_cons, List.map_cons,
    StatusReport.sectionText_of_mem (List.mem_append_right _ List.mem_cons_self),
    StatusReport.sectionText_of_mem (List.mem_append_right _ List.mem_cons_self)] at hjoin
  simp only [String.join_append, String.join_cons] at hjoin
  have hmiddle := (String.append_right_inj _).mp hjoin
  rw [← String.append_assoc, ← String.append_assoc] at hmiddle
  exact (String.append_left_inj _).mp hmiddle

theorem row_of_child (hw : WellFormed reg) (hm : PeersKnown MetByParent reg)
    {order : IterationOrder ConnectionId} {sid : ConnectionId} {row : StreamRow}
    (h : row ∈ (reg.childIds order sid).filterMap reg.row?) :
    row.id.parent? = some sid ∧ Meets sid row.peer := by
  obtain ⟨id, hid, hrow⟩ := List.mem_filterMap.mp h
  obtain ⟨rfl, s, hs, hpeer, -⟩ := row?_eq_some_iff.mp hrow
  obtain ⟨peer, hpeer', hmet⟩ := hm _ s hs
  have hparent := (mem_childIds hw).mp hid
  rw [hpeer] at hpeer'
  cases hpeer'
  refine ⟨by rw [← hw.parentOf_eq (mem_of_lookup hs), hparent], hmet sid ?_⟩
  rwa [parentOf, hs, Option.bind_some] at hparent

theorem space_not_mem_display {id sid : ConnectionId} {port : UInt16}
    (hsid : sid.display = toString port) (h : id.parent? = some sid) :
    ' ' ∉ id.display.toList := by
  obtain ⟨b, hb, rfl⟩ := Option.map_eq_some_iff.mp h
  obtain ⟨d, rfl⟩ := ConnectionId.exists_accepted hb
  have hport : b.parentText = (toString port).toList := by
    rw [← hsid]
    cases b <;> rfl
  have hspace : (' ' : Char).isDigit = false := by decide
  rw [b.toList_display_accepted, hport]
  simp only [List.mem_append, List.mem_cons, not_or]
  exact ⟨not_mem_u16 port hspace, by decide, b.not_mem_remoteText (by decide) hspace,
    ConnectionId.not_mem_suffix d (by decide) hspace⟩

theorem children_of_rows_nil (hw : WellFormed reg) (hk : PeersKnown NoPidForClient reg)
    {order : IterationOrder ConnectionId} {sid : ConnectionId} {srv : ServerHandle}
    (hsrv : reg.servers.lookup sid = some srv)
    (h : (reg.childIds order sid).filterMap reg.row? = []) : srv.children = ∅ := by
  have hempty : ((reg.childIds order sid).filterMap reg.row?).isEmpty =
      (reg.childIds order sid).isEmpty :=
    isEmpty_rows hk fun _ hid ↦ mem_streams_of_mem_childIds hw hid
  rw [h] at hempty
  exact (childIds_eq_nil_iff hsrv).mp (List.isEmpty_iff.mp hempty.symm)

theorem renderStatus_ne (hw : WellFormed reg) (hk : PeersKnown NoPidForClient reg)
    (hm : PeersKnown MetByParent reg) {port : UInt16} {srv srv' : ServerHandle}
    (hsrv : reg.servers.lookup (.tcpServer port) = some srv)
    (hsrv' : reg.servers.lookup (.ipcServer (toString port)) = some srv')
    (hchild : ¬(srv.children = ∅ ∧ srv'.children = ∅))
    {p q : List ConnectionId} {order order' : IterationOrder ConnectionId}
    (hids : reg.serverIds order = p ++ .tcpServer port :: .ipcServer (toString port) :: q)
    (hids' : reg.serverIds order' = p ++ .ipcServer (toString port) :: .tcpServer port :: q) :
    reg.renderStatus order ≠ reg.renderStatus order' := by
  intro he
  have hcomm := serverLines_commute hw hk hids hids' he
  rw [serverLines, serverLines] at hcomm
  have hname : (ConnectionId.tcpServer port).display =
      (ConnectionId.ipcServer (toString port)).display := rfl
  refine StatusReport.serverText_append_ne hname (not_mem_u16 port (by decide)) ?_ ?_ ?_ ?_ hcomm
  · obtain ⟨c, cs, hc, -⟩ := toString_u16_cons port
    exact fun hnil ↦ by cases hc.symm.trans hnil
  · rintro ⟨hrows, hrows'⟩
    exact hchild ⟨children_of_rows_nil hw hk hsrv hrows, children_of_rows_nil hw hk hsrv' hrows'⟩
  · intro row hrow
    rcases List.mem_append.mp hrow with hrow | hrow
    · exact space_not_mem_display rfl (row_of_child hw hm hrow).1
    · exact space_not_mem_display rfl (row_of_child hw hm hrow).1
  · intro row hrow row' hrow'
    exact (row_of_child hw hm hrow).2.render_ne (row_of_child hw hm hrow').2

theorem mem_servers_of_pair {a b : ConnectionId} (h : reg.servers.keys = {a, b})
    (sid : ConnectionId) : sid ∈ reg.servers ↔ sid = a ∨ sid = b := by
  rw [← Finmap.mem_keys, h, Finset.mem_insert, Finset.mem_singleton]

end Ties

end Registry

/-- The status does not depend on the order in which the maps and sets are
visited, in every state reached that tells its servers apart; and in no other
state, where the connections are those that the accept loops hand over. -/
theorem status_order {w : World} (hw : Reachable registrySystem w) :
    (TellsServersApart w.reg →
      ∀ order order', w.reg.renderStatus order = w.reg.renderStatus order') ∧
    (ReachableBy registrySystem (fun _ a ↦ handedOver a.2 = true) w →
      ((∀ order order', w.reg.renderStatus order = w.reg.renderStatus order') ↔
        TellsServersApart w.reg)) := by
  have hwf := wellFormed_of_reachable hw
  have hpeers := noPidForClient_of_reachable hw
  have hsame : TellsServersApart w.reg →
      ∀ order order', w.reg.renderStatus order = w.reg.renderStatus order' :=
    Registry.renderStatus_order hwf hpeers
  refine ⟨hsame, fun hhanded ↦ ⟨fun horders port srv srv' hsrv hsrv' ↦ ?_, hsame⟩⟩
  by_contra hchild
  obtain ⟨p, q, order, order', hids, hids'⟩ :=
    Registry.exists_serverIds hwf (mem_of_lookup hsrv) (mem_of_lookup hsrv')
  exact Registry.renderStatus_ne hwf hpeers (metByParent_of_reachable hhanded) hsrv hsrv' hchild
    hids hids' (horders order order')

theorem status_order_on_two_servers :
    ∃ w, World.initial.play (fun _ a ↦ handedOver a.2) [.command (.openTcpServer 3000),
        .command (.openIpcServer "/tmp/a.sock"), tcpHandoff 3000 10015 7,
        ipcHandoff "/tmp/a.sock" 42 8] = some w ∧
      w.reg.streams.keys.card = 2 ∧ TellsServersApart w.reg ∧
      ∀ order order', w.reg.renderStatus order = w.reg.renderStatus order' := by
  have hrun : ∃ w ∈ World.initial.play (fun _ a ↦ handedOver a.2)
      [.command (.openTcpServer 3000), .command (.openIpcServer "/tmp/a.sock"),
        tcpHandoff 3000 10015 7, ipcHandoff "/tmp/a.sock" 42 8],
      w.reg.streams.keys.card = 2 ∧
        w.reg.servers.keys = {.tcpServer 3000, .ipcServer "/tmp/a.sock"} := by decide +kernel
  obtain ⟨w, hw, hcard, hservers⟩ := hrun
  have hreach : ReachableBy registrySystem (fun _ a ↦ handedOver a.2 = true) w :=
    reachableBy_play (fun _ _ hg ↦ hg) (.init rfl) hw
  have happart : TellsServersApart w.reg := by
    intro port srv srv' hsrv hsrv'
    rcases (Registry.mem_servers_of_pair hservers _).mp (mem_of_lookup hsrv) with h | h
    · cases h
      rcases (Registry.mem_servers_of_pair hservers _).mp (mem_of_lookup hsrv') with h' | h'
      · cases h'
      · have hport : toString (3000 : UInt16) ≠ "/tmp/a.sock" := by decide
        exact (hport (ConnectionId.ipcServer.inj h')).elim
    · cases h
  exact ⟨w, hw, hcard, happart, ((status_order hreach.reachable).2 hreach).mpr happart⟩

/-- The connection of one server is shown under another, or not, by the order of the servers. -/
theorem connection_shown_under_either_server :
    ∃ w, World.initial.play (fun _ a ↦ handedOver a.2) [.command (.openTcpServer 3000),
        .command (.openIpcServer "3000"), tcpHandoff 3000 10015 7] = some w ∧
      w.reg.renderStatus (.first [.tcpServer 3000, .ipcServer "3000"]) ≠
        w.reg.renderStatus (.first [.ipcServer "3000", .tcpServer 3000]) := by
  have hrun : ∃ w ∈ World.initial.play (fun _ a ↦ handedOver a.2) [.command (.openTcpServer 3000),
      .command (.openIpcServer "3000"), tcpHandoff 3000 10015 7],
      w.reg.servers.keys = {.tcpServer 3000, .ipcServer "3000"} ∧
      .acceptedTcp 3000 10015 none ∈ w.reg.streams := by decide +kernel
  obtain ⟨w, hw, hservers, hstream⟩ := hrun
  have hreach : ReachableBy registrySystem (fun _ a ↦ handedOver a.2 = true) w :=
    reachableBy_play (fun _ _ hg ↦ hg) (.init rfl) hw
  have hwf := wellFormed_of_reachable hreach.reachable
  have hmem := Registry.mem_servers_of_pair hservers
  obtain ⟨srv, hsrv⟩ := mem_iff_lookup.mp ((hmem _).mpr (.inl rfl))
  obtain ⟨srv', hsrv'⟩ := mem_iff_lookup.mp ((hmem _).mpr (.inr rfl))
  have hchild : ¬(srv.children = ∅ ∧ srv'.children = ∅) := fun h ↦ by
    have hmem := (hwf.children_iff _ srv hsrv _).mpr ⟨hstream, rfl⟩
    rw [h.1] at hmem
    exact Finset.notMem_empty _ hmem
  have hids : w.reg.serverIds (.first [.tcpServer 3000, .ipcServer "3000"]) =
      [.tcpServer 3000, .ipcServer "3000"] :=
    Registry.serverIds_first (by decide) (by simp [hmem]) (List.pairwise_pair.mpr le_rfl)
  have hids' : w.reg.serverIds (.first [.ipcServer "3000", .tcpServer 3000]) =
      [.ipcServer "3000", .tcpServer 3000] :=
    Registry.serverIds_first (by decide) (by simp [hmem, or_comm]) (List.pairwise_pair.mpr le_rfl)
  exact ⟨w, hw, Registry.renderStatus_ne (p := []) (q := []) hwf
    (noPidForClient_of_reachable hreach.reachable) (metByParent_of_reachable hreach) hsrv hsrv'
    hchild hids hids'⟩

end WireDock
