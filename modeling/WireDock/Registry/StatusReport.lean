import Mathlib.Data.String.Basic
import WireDock.Library.KeySort
import WireDock.Registry.Cascade
import WireDock.Registry.Peers
import WireDock.Registry.Spelling

namespace WireDock

open FiniteMap LabelledSystem

structure StreamRow where
  id : ConnectionId
  peer : PeerInfo
  status : ConnectionStatus
  label : Option String
deriving DecidableEq

namespace StreamRow

variable (row : StreamRow)

def clientLine : String :=
  s!"  {row.id} -> {row.peer.render}    [{renderStatusTag row.status}]{renderLabel row.label}\n"

def childLine : String :=
  let tag := renderStatusTag row.status
  s!"    {row.id}    peer={row.peer.render}    [{tag}]{renderLabel row.label}\n"

theorem arrow_mem_clientLine : '>' ∈ row.clientLine.toList := by
  have harrow : '>' ∈ (toString " -> ").toList := by decide
  -- `delta`, here and below: the equation lemma of a long interpolated string is slow to derive
  delta clientLine
  simp only [String.toList_append, List.mem_append, harrow, true_or, or_true]

theorem toList_childLine : ∃ rest, row.childLine.toList =
    ' ' :: ' ' :: ' ' :: ' ' :: (row.id.display.toList ++
      ' ' :: ("   peer=".toList ++ (row.peer.render.toList ++ rest))) := by
  refine ⟨s!"    [{renderStatusTag row.status}]{renderLabel row.label}\n".toList, ?_⟩
  delta childLine
  simp only [String.toList_append, List.append_assoc]
  rfl

/-- The row is about a registered stream and shows its own peer, status and label. -/
def Of (reg : Registry) : Prop :=
  ∃ h, reg.streams.lookup row.id = some h ∧ h.state.peerInfo = some row.peer ∧
    h.state.status = row.status ∧ h.state.label = row.label

end StreamRow

/-- The rows of a status text: the clients, and each server with its accepted connections. -/
structure StatusReport where
  clients : List StreamRow
  servers : List (ConnectionId × List StreamRow)
deriving DecidableEq

namespace StatusReport

def sectionText (lines : List String) : String :=
  if lines.isEmpty then "  (none)\n" else String.join lines

theorem sectionText_of_mem {line : String} {lines : List String} (h : line ∈ lines) :
    sectionText lines = String.join lines :=
  if_neg fun he ↦ List.ne_nil_of_mem h (List.isEmpty_iff.mp he)

def serverText (entry : ConnectionId × List StreamRow) : String :=
  s!"  {entry.1}\n" ++ String.join (entry.2.map StreamRow.childLine)

variable (r : StatusReport)

def clientsText : String := sectionText (r.clients.map StreamRow.clientLine)

def serversText : String := sectionText (r.servers.map serverText)

def text : String := "CLIENTS\n" ++ r.clientsText ++ "\nSERVERS\n" ++ r.serversText

def rows : List StreamRow := r.clients ++ r.servers.flatMap Prod.snd

/-- Every registered server and every registered stream has one row and
nothing else has one; a stream stands under its parent, or among the clients. -/
structure Exact (reg : Registry) (r : StatusReport) : Prop where
  servers_once : (r.servers.map Prod.fst).Nodup
  servers : ∀ sid, sid ∈ r.servers.map Prod.fst ↔ sid ∈ reg.servers
  streams_once : (r.rows.map StreamRow.id).Nodup
  streams : ∀ id, id ∈ r.rows.map StreamRow.id ↔ id ∈ reg.streams
  row_of : ∀ row ∈ r.rows, row.Of reg
  client : ∀ row ∈ r.clients, reg.parentOf row.id = none
  child : ∀ sid rows, (sid, rows) ∈ r.servers → ∀ row ∈ rows, reg.parentOf row.id = some sid

section Placeholder

variable {r : StatusReport}

theorem clientsText_eq_iff : r.clientsText = "  (none)\n" ↔ r.clients = [] := by
  constructor
  · intro h
    cases hr : r.clients with
    | nil => rfl
    | cons row rows =>
      have hmem : '>' ∈ r.clientsText.toList := by
        rw [clientsText, hr, List.map_cons, sectionText_of_mem List.mem_cons_self,
          String.join_cons, String.toList_append]
        exact List.mem_append_left _ row.arrow_mem_clientLine
      have hnone : '>' ∉ "  (none)\n".toList := by decide
      exact (hnone (h ▸ hmem)).elim
  · intro h
    rw [clientsText, h]
    rfl

theorem toList_serverText (entry : ConnectionId × List StreamRow) :
    (serverText entry).toList = ' ' :: ' ' :: (entry.1.display.toList ++
      '\n' :: (String.join (entry.2.map StreamRow.childLine)).toList) := by
  simp only [serverText, String.toList_append, List.append_assoc]
  rfl

theorem join_eq_empty {α : Type*} {line : α → String} {c : Char}
    (hline : ∀ a, ∃ rest, (line a).toList = c :: rest) {l : List α}
    (h : (String.join (l.map line)).toList = []) : l = [] := by
  cases l with
  | nil => rfl
  | cons a l =>
    obtain ⟨rest, ha⟩ := hline a
    rw [List.map_cons, String.join_cons, String.toList_append, ha] at h
    cases h

/-- The section of the servers reads as an empty one when there is no server,
or when the only one is called as the line is and has no connection. -/
theorem serversText_eq_iff : r.serversText = "  (none)\n" ↔
    r.servers = [] ∨ ∃ sid, sid.display = "(none)" ∧ r.servers = [(sid, [])] := by
  constructor
  · intro h
    cases hr : r.servers with
    | nil => exact .inl rfl
    | cons entry entries =>
      obtain ⟨sid, rows⟩ := entry
      have hlist := congrArg String.toList h
      rw [serversText, hr, List.map_cons, sectionText_of_mem List.mem_cons_self,
        String.join_cons, String.toList_append, toList_serverText] at hlist
      have hrest : sid.display.toList ++ '\n' :: ((String.join (rows.map
          StreamRow.childLine)).toList ++ (String.join (entries.map serverText)).toList) =
            "(none)".toList ++ '\n' :: [] := by simpa using hlist
      -- the line ends with its only line break, so nothing follows the name
      have hbreak : '\n' ∉ sid.display.toList := by
        intro hmem
        have hcount := congrArg (List.count '\n') hrest
        have hpos := List.count_pos_iff.mpr hmem
        simp only [List.count_append, List.count_cons_self] at hcount
        have hone : List.count '\n' "(none)".toList = 0 := by decide
        simp only [hone, List.count_nil] at hcount
        omega
      obtain ⟨hname, htail⟩ := Text.separator_append_inj hbreak (by decide) hrest
      obtain ⟨hrows, hentries⟩ := List.append_eq_nil_iff.mp htail
      have hrows : rows = [] := join_eq_empty (fun row ↦ by
        obtain ⟨rest, h⟩ := row.toList_childLine
        exact ⟨_, h⟩) hrows
      have hentries : entries = [] := join_eq_empty (fun e ↦ ⟨_, toList_serverText e⟩) hentries
      exact .inr ⟨sid, String.toList_inj.mp hname, by rw [hrows, hentries]⟩
  · rintro (h | ⟨sid, hsid, h⟩)
    · rw [serversText, h]
      rfl
    · rw [serversText, h, List.map_cons, sectionText_of_mem List.mem_cons_self, List.map_nil,
        String.join_cons, String.join_nil, String.append_empty, ← String.toList_inj,
        toList_serverText, hsid]
      rfl

end Placeholder

end StatusReport

namespace Registry

variable {reg : Registry} {order : IterationOrder ConnectionId}

theorem sortById_eq (ids : List ConnectionId) :
    sortById ids = sortByKey ConnectionId.display ids := rfl

def row? (reg : Registry) (id : ConnectionId) : Option StreamRow :=
  (reg.streams.lookup id).bind fun h ↦
    h.state.peerInfo.map fun peer ↦ ⟨id, peer, h.state.status, h.state.label⟩

theorem row?_eq_some_iff {id : ConnectionId} {row : StreamRow} :
    reg.row? id = some row ↔ row.id = id ∧ row.Of reg := by
  rw [row?, Option.bind_eq_some_iff]
  constructor
  · rintro ⟨h, hs, hrow⟩
    obtain ⟨peer, hpeer, rfl⟩ := Option.map_eq_some_iff.mp hrow
    exact ⟨rfl, h, hs, hpeer, rfl, rfl⟩
  · rintro ⟨rfl, h, hs, hpeer, hstatus, hlabel⟩
    refine ⟨h, hs, ?_⟩
    rw [hpeer, Option.map_some, hstatus, hlabel]

def childIds (order : IterationOrder ConnectionId) (reg : Registry) (sid : ConnectionId) :
    List ConnectionId :=
  match reg.servers.lookup sid with
  | some srv => sortById (order.visit srv.children)
  | none => []

def report (order : IterationOrder ConnectionId) (reg : Registry) : StatusReport where
  clients := (reg.clientIds order).filterMap reg.row?
  servers := (reg.serverIds order).map fun sid ↦ (sid, (reg.childIds order sid).filterMap reg.row?)

section Ids

theorem mem_clientIds {id : ConnectionId} :
    id ∈ reg.clientIds order ↔ id ∈ reg.streams ∧ reg.parentOf id = none := by
  rw [clientIds, sortById_eq, mem_sortByKey, List.mem_filter, order.mem_visit, Finmap.mem_keys,
    mem_iff_lookup, parentOf]
  refine and_congr_right fun hid ↦ ?_
  obtain ⟨h, hs⟩ := hid
  rw [hs, Option.any_some, Option.bind_some, Option.isNone_iff_eq_none]

theorem nodup_clientIds : (reg.clientIds order).Nodup :=
  (sortByKey_perm _ _).nodup_iff.mpr ((order.nodup _).filter _)

theorem mem_serverIds {sid : ConnectionId} : sid ∈ reg.serverIds order ↔ sid ∈ reg.servers := by
  rw [serverIds, sortById_eq, mem_sortByKey, order.mem_visit, Finmap.mem_keys]

theorem nodup_serverIds : (reg.serverIds order).Nodup :=
  (sortByKey_perm _ _).nodup_iff.mpr (order.nodup _)

theorem childIds_perm {sid : ConnectionId} {srv : ServerHandle}
    (hsrv : reg.servers.lookup sid = some srv) :
    (reg.childIds order sid).Perm (order.visit srv.children) := by
  simp only [childIds, hsrv]
  exact sortByKey_perm _ _

theorem mem_streams_of_parentOf {id sid : ConnectionId} (h : reg.parentOf id = some sid) :
    id ∈ reg.streams := by
  obtain ⟨s, hs, -⟩ := Option.bind_eq_some_iff.mp h
  exact mem_of_lookup hs

theorem mem_childIds (hw : WellFormed reg) {sid id : ConnectionId} :
    id ∈ reg.childIds order sid ↔ reg.parentOf id = some sid := by
  cases hsrv : reg.servers.lookup sid with
  | some srv =>
    rw [(childIds_perm hsrv).mem_iff]
    exact (reg.visitsChildren hw hsrv order).mem_iff
  | none =>
    simp only [childIds, hsrv, List.not_mem_nil, false_iff]
    intro hp
    have hid := mem_streams_of_parentOf hp
    rw [hw.parentOf_eq hid] at hp
    exact not_mem_iff_lookup.mpr hsrv (hw.parent_registered id sid hid hp)

theorem mem_streams_of_mem_childIds (hw : WellFormed reg) {sid id : ConnectionId}
    (h : id ∈ reg.childIds order sid) : id ∈ reg.streams :=
  mem_streams_of_parentOf ((mem_childIds hw).mp h)

theorem nodup_childIds {sid : ConnectionId} : (reg.childIds order sid).Nodup := by
  cases hsrv : reg.servers.lookup sid with
  | some srv => exact (childIds_perm hsrv).nodup_iff.mpr (order.nodup _)
  | none => simp only [childIds, hsrv, List.nodup_nil]

end Ids

section Rows

variable {Fits : Option ConnectionId → PeerInfo → Prop}

theorem row?_of_lookup (hk : PeersKnown Fits reg) {id : ConnectionId} {h : StreamHandle}
    (hs : reg.streams.lookup id = some h) : ∃ peer, h.state.peerInfo = some peer ∧
      Fits h.parent peer ∧ reg.row? id = some ⟨id, peer, h.state.status, h.state.label⟩ := by
  obtain ⟨peer, hpeer, hfits⟩ := hk id h hs
  refine ⟨peer, hpeer, hfits, ?_⟩
  rw [row?, hs, Option.bind_some, hpeer, Option.map_some]

theorem ids_of_rows (hk : PeersKnown Fits reg) {ids : List ConnectionId}
    (hids : ∀ id ∈ ids, id ∈ reg.streams) :
    (ids.filterMap reg.row?).map StreamRow.id = ids := by
  induction ids with
  | nil => rfl
  | cons id ids ih =>
    obtain ⟨h, hs⟩ := mem_iff_lookup.mp (hids id List.mem_cons_self)
    obtain ⟨peer, -, -, hrow⟩ := row?_of_lookup hk hs
    rw [List.filterMap_cons_some hrow, List.map_cons,
      ih fun k hk ↦ hids k (List.mem_cons_of_mem _ hk)]

theorem rows_eq {row : ConnectionId → StreamHandle → String} {line : StreamRow → String}
    {ids : List ConnectionId} (hids : ∀ id ∈ ids, ∀ h, reg.streams.lookup id = some h →
      ∃ r, reg.row? id = some r ∧ row id h = line r) :
    reg.rows row ids = String.join ((ids.filterMap reg.row?).map line) := by
  induction ids with
  | nil => rfl
  | cons id ids ih =>
    have hrest := ih fun k hk ↦ hids k (List.mem_cons_of_mem _ hk)
    rw [rows] at hrest ⊢
    rw [List.map_cons, String.join_cons, hrest]
    cases hs : reg.streams.lookup id with
    | none =>
      have hrow : reg.row? id = none := by rw [row?, hs, Option.bind_none]
      rw [List.filterMap_cons_none hrow, Option.map_none, Option.getD_none, String.empty_append]
    | some h =>
      obtain ⟨r, hr, hline⟩ := hids id List.mem_cons_self h hs
      rw [List.filterMap_cons_some hr, List.map_cons, String.join_cons, Option.map_some,
        Option.getD_some, hline]

theorem childRow_eq (hk : PeersKnown Fits reg) {ids : List ConnectionId} :
    reg.rows childRow ids = String.join ((ids.filterMap reg.row?).map StreamRow.childLine) := by
  refine rows_eq fun id _ h hs ↦ ?_
  obtain ⟨peer, hpeer, -, hrow⟩ := row?_of_lookup hk hs
  refine ⟨_, hrow, ?_⟩
  delta childRow
  rw [hpeer]
  rfl

/-- The peers that the row of a client can show: no client has a process id for a peer. -/
def NoPidForClient (parent : Option ConnectionId) (peer : PeerInfo) : Prop :=
  parent = none → ∀ pid, peer ≠ .ipcPid pid

theorem clientRow_eq (hk : PeersKnown NoPidForClient reg) :
    reg.rows clientRow (reg.clientIds order) =
      String.join (((reg.clientIds order).filterMap reg.row?).map StreamRow.clientLine) := by
  refine rows_eq fun id hid h hs ↦ ?_
  obtain ⟨peer, hpeer, hfits, hrow⟩ := row?_of_lookup hk hs
  have hparent : h.parent = none := by
    have hp := (mem_clientIds.mp hid).2
    rwa [parentOf, hs, Option.bind_some] at hp
  refine ⟨_, hrow, ?_⟩
  cases peer with
  | ipcPid pid => exact (hfits hparent pid rfl).elim
  | tcpSocket addr | ipcRemotePath path =>
    delta clientRow
    rw [hpeer]
    rfl

theorem serverRows_eq (hk : PeersKnown Fits reg) {sid : ConnectionId} (hsid : sid ∈ reg.servers) :
    reg.serverRows order sid =
      StatusReport.serverText (sid, (reg.childIds order sid).filterMap reg.row?) := by
  obtain ⟨srv, hsrv⟩ := mem_iff_lookup.mp hsid
  simp only [serverRows, hsrv, childIds, StatusReport.serverText]
  rw [childRow_eq hk]

theorem isEmpty_rows (hk : PeersKnown Fits reg) {ids : List ConnectionId}
    (hids : ∀ id ∈ ids, id ∈ reg.streams) :
    (ids.filterMap reg.row?).isEmpty = ids.isEmpty := by
  rw [← List.isEmpty_map (f := StreamRow.id), ids_of_rows hk hids]

theorem renderStatus_eq (hk : PeersKnown NoPidForClient reg) (order : IterationOrder ConnectionId) :
    reg.renderStatus order = (reg.report order).text := by
  have hclients : (reg.report order).clientsText = if (reg.clientIds order).isEmpty then
      "  (none)\n" else reg.rows clientRow (reg.clientIds order) := by
    rw [StatusReport.clientsText, StatusReport.sectionText, report, List.isEmpty_map,
      isEmpty_rows hk fun id hid ↦ (mem_clientIds.mp hid).1, clientRow_eq hk]
  have hservers : (reg.report order).serversText = if (reg.serverIds order).isEmpty then
      "  (none)\n" else String.join ((reg.serverIds order).map (reg.serverRows order)) := by
    rw [StatusReport.serversText, StatusReport.sectionText, report, List.isEmpty_map,
      List.isEmpty_map, List.map_map]
    rw [List.map_congr_left fun sid hsid ↦ serverRows_eq hk (mem_serverIds.mp hsid)]
    rfl
  rw [StatusReport.text, hclients, hservers, renderStatus]

end Rows

section Exactness

variable {Fits : Option ConnectionId → PeerInfo → Prop}

theorem servers_report : (reg.report order).servers.map Prod.fst = reg.serverIds order := by
  rw [report, List.map_map]
  exact List.map_id _

theorem ids_report (hw : WellFormed reg) (hk : PeersKnown Fits reg) :
    (reg.report order).rows.map StreamRow.id =
      reg.clientIds order ++ (reg.serverIds order).flatMap (reg.childIds order) := by
  rw [StatusReport.rows, report, List.map_append,
    ids_of_rows hk fun id hid ↦ (mem_clientIds.mp hid).1, List.map_flatMap, List.flatMap_map]
  congr 1
  exact List.flatMap_congr fun sid _ ↦ ids_of_rows hk fun id ↦ mem_streams_of_mem_childIds hw

theorem nodup_ids (hw : WellFormed reg) : (reg.clientIds order ++
    (reg.serverIds order).flatMap (reg.childIds order)).Nodup := by
  have hparent : ∀ {sid id}, id ∈ reg.childIds order sid → reg.parentOf id = some sid :=
    (mem_childIds hw).mp
  have hchildren : ((reg.serverIds order).flatMap (reg.childIds order)).Nodup := by
    refine List.nodup_flatMap.mpr ⟨fun _ _ ↦ nodup_childIds, nodup_serverIds.imp ?_⟩
    intro sid sid' hne id hid hid'
    exact hne (Option.some.inj ((hparent hid).symm.trans (hparent hid')))
  refine List.Nodup.append nodup_clientIds hchildren fun id hid hid' ↦ ?_
  obtain ⟨sid, -, hchild⟩ := List.mem_flatMap.mp hid'
  cases (mem_clientIds.mp hid).2.symm.trans (hparent hchild)

theorem exact_report (hw : WellFormed reg) (hk : PeersKnown Fits reg) :
    (reg.report order).Exact reg where
  servers_once := by
    rw [servers_report]
    exact nodup_serverIds
  servers sid := by rw [servers_report, mem_serverIds]
  streams_once := by
    rw [ids_report hw hk]
    exact nodup_ids hw
  streams id := by
    rw [ids_report hw hk, List.mem_append, mem_clientIds, List.mem_flatMap]
    simp only [mem_childIds hw, mem_serverIds]
    constructor
    · rintro (⟨hid, -⟩ | ⟨sid, -, hp⟩)
      · exact hid
      · exact mem_streams_of_parentOf hp
    · intro hid
      cases hp : reg.parentOf id with
      | none => exact .inl ⟨hid, rfl⟩
      | some sid =>
        have hparent : id.parent? = some sid := (hw.parentOf_eq hid).symm.trans hp
        exact .inr ⟨sid, hw.parent_registered id sid hid hparent, rfl⟩
  row_of row hrow := by
    rcases List.mem_append.mp hrow with hrow | hrow
    · obtain ⟨id, -, hid⟩ := List.mem_filterMap.mp hrow
      exact (row?_eq_some_iff.mp hid).2
    · obtain ⟨entry, hentry, hrow⟩ := List.mem_flatMap.mp hrow
      obtain ⟨sid, -, rfl⟩ := List.mem_map.mp hentry
      obtain ⟨id, -, hid⟩ := List.mem_filterMap.mp hrow
      exact (row?_eq_some_iff.mp hid).2
  client row hrow := by
    obtain ⟨id, hmem, hid⟩ := List.mem_filterMap.mp hrow
    rw [(row?_eq_some_iff.mp hid).1]
    exact (mem_clientIds.mp hmem).2
  child sid rows hentry row hrow := by
    obtain ⟨sid', -, he⟩ := List.mem_map.mp hentry
    cases he
    obtain ⟨id, hmem, hid⟩ := List.mem_filterMap.mp hrow
    rw [(row?_eq_some_iff.mp hid).1]
    exact (mem_childIds hw).mp hmem

theorem serverIds_eq_singleton {sid : ConnectionId} (h : ∀ k, k ∈ reg.servers ↔ k = sid) :
    reg.serverIds order = [sid] := by
  refine List.perm_singleton.mp ((List.perm_ext_iff_of_nodup nodup_serverIds
    (List.nodup_singleton sid)).mpr fun k ↦ ?_)
  rw [mem_serverIds, h, List.mem_singleton]

end Exactness

end Registry

theorem noPidForClient_of_reachable {w : World} (hw : Reachable registrySystem w) :
    PeersKnown Registry.NoPidForClient w.reg :=
  peersKnown_of_reachable (fun _ hpeer _ ↦ hpeer) (fun _ _ _ _ _ _ _ _ _ ↦ nofun) hw

theorem server_called_none {sid : ConnectionId} (hs : sid.isServer = true)
    (h : sid.display = "(none)") : sid = .ipcServer "(none)" := by
  cases sid with
  | ipcServer path => rw [← h, ConnectionId.display]
  | tcpServer port =>
    have hparen : '(' ∈ (toString port).toList := by
      rw [← ConnectionId.display_tcpServer, h]
      decide
    exact (not_mem_u16 port (by decide) hparen).elim
  | _ => cases hs

/-- The status of every state reached has each registered server and stream
once, where it belongs and with its own data, and nothing else. A section is
the line `(none)` when it is empty, and for a sole server of that name. -/
theorem status_complete {w : World} (hw : Reachable registrySystem w)
    (order : IterationOrder ConnectionId) : ∃ r : StatusReport,
      w.reg.renderStatus order = r.text ∧ r.Exact w.reg ∧
      (r.clientsText = "  (none)\n" ↔ r.clients = []) ∧
      (r.serversText = "  (none)\n" ↔
        r.servers = [] ∨ r.servers = [(.ipcServer "(none)", [])]) := by
  have hwf := wellFormed_of_reachable hw
  have hpeers := noPidForClient_of_reachable hw
  have hexact : (w.reg.report order).Exact w.reg := Registry.exact_report hwf hpeers
  refine ⟨w.reg.report order, Registry.renderStatus_eq hpeers order, hexact,
    StatusReport.clientsText_eq_iff, StatusReport.serversText_eq_iff.trans (or_congr_right ?_)⟩
  constructor
  · rintro ⟨sid, hsid, hr⟩
    have hmem : sid ∈ w.reg.servers := by
      rw [← hexact.servers, hr]
      exact List.mem_singleton_self sid
    rw [hr, server_called_none (hwf.isServer_of_mem hmem) hsid]
  · exact fun hr ↦ ⟨_, rfl, hr⟩

theorem status_complete_on_two_servers :
    ∃ w, World.initial.play (fun _ _ ↦ true) [.command (.openTcpServer 3000),
        .command (.openIpcServer "/tmp/a.sock"), .command (.openTcpClient 3001 "127.0.0.1" 80),
        tcpHandoff 3000 10015 7] = some w ∧
      w.reg.servers.keys.card = 2 ∧ w.reg.streams.keys.card = 2 ∧
      ∃ r : StatusReport, w.reg.renderStatus (.first []) = r.text ∧ r.Exact w.reg ∧
        (r.clientsText = "  (none)\n" ↔ r.clients = []) ∧
        (r.serversText = "  (none)\n" ↔
          r.servers = [] ∨ r.servers = [(.ipcServer "(none)", [])]) := by
  have hrun : ∃ w ∈ World.initial.play (fun _ _ ↦ true) [.command (.openTcpServer 3000),
      .command (.openIpcServer "/tmp/a.sock"), .command (.openTcpClient 3001 "127.0.0.1" 80),
      tcpHandoff 3000 10015 7], w.reg.servers.keys.card = 2 ∧ w.reg.streams.keys.card = 2 := by
    decide +kernel
  obtain ⟨w, hw, hservers, hstreams⟩ := hrun
  exact ⟨w, hw, hservers, hstreams, status_complete (reachable_play hw) (.first [])⟩

/-- The status of a server on the path `(none)` lists no server. -/
theorem server_called_none_not_shown :
    ∃ w, World.initial.play (fun _ _ ↦ true) [.command (.openIpcServer "(none)")] = some w ∧
      .ipcServer "(none)" ∈ w.reg.servers ∧ ∀ order,
        w.reg.renderStatus order = "CLIENTS\n  (none)\n\nSERVERS\n  (none)\n" := by
  have hrun : ∃ w ∈ World.initial.play (fun _ _ ↦ true) [.command (.openIpcServer "(none)")],
      w.reg.servers.keys = {.ipcServer "(none)"} ∧ w.reg.streams.keys = ∅ := by decide +kernel
  obtain ⟨w, hw, hservers, hstreams⟩ := hrun
  have hserver : ∀ k, k ∈ w.reg.servers ↔ k = .ipcServer "(none)" := fun k ↦ by
    rw [← Finmap.mem_keys, hservers, Finset.mem_singleton]
  have hstream : ∀ k, k ∉ w.reg.streams := fun k ↦ by
    rw [← Finmap.mem_keys, hstreams]
    exact Finset.notMem_empty k
  have hwf := wellFormed_of_reachable (reachable_play hw)
  refine ⟨w, hw, (hserver _).mpr rfl, fun order ↦ ?_⟩
  have hclients : (w.reg.report order).clients = [] := by
    have hids : w.reg.clientIds order = [] :=
      List.eq_nil_iff_forall_not_mem.mpr fun k hk ↦ hstream k (Registry.mem_clientIds.mp hk).1
    rw [Registry.report, hids, List.filterMap_nil]
  have hrows : (w.reg.report order).servers = [(.ipcServer "(none)", [])] := by
    have hids : w.reg.childIds order (.ipcServer "(none)") = [] :=
      List.eq_nil_iff_forall_not_mem.mpr fun k hk ↦
        hstream k (Registry.mem_streams_of_mem_childIds hwf hk)
    rw [Registry.report, Registry.serverIds_eq_singleton hserver, List.map_singleton, hids,
      List.filterMap_nil]
  rw [Registry.renderStatus_eq (noPidForClient_of_reachable (reachable_play hw)) order,
    StatusReport.text, StatusReport.clientsText_eq_iff.mpr hclients,
    StatusReport.serversText_eq_iff.mpr (.inr ⟨_, rfl, hrows⟩)]
  rfl

end WireDock
