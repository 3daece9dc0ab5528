import WireDock.Registry.Representation

namespace WireDock

open FiniteMap LabelledSystem

namespace Registry

variable {env : Environment} {reg : Registry} {sid id : ConnectionId} {bytes : List UInt8}

def sendTo (env : Environment) (reg : Registry) (bytes : List UInt8) (id : ConnectionId)
    (h : StreamHandle) : List Effect :=
  .write h.stream bytes :: match env.write h.stream bytes with
    | .ok () => []
    | .error e => [say s!"[{reg.displayName id}] ERROR {DomainError.io e}"]

structure VisitsChildren (reg : Registry) (sid : ConnectionId) (children : List ConnectionId) :
    Prop where
  once : children.Nodup
  all : ∀ id, id ∈ children ↔ ∃ h, reg.streams.lookup id = some h ∧ h.parent = some sid

/-- The payload goes to every child of the server, each write on its own. -/
structure ReachesChildren (env : Environment) (reg : Registry) (sid : ConnectionId)
    (bytes : List UInt8) (sent : Except DomainError Unit × List Effect) : Prop where
  ok : sent.1 = .ok ()
  effects : ∃ children, reg.VisitsChildren sid children ∧
    sent.2 = children.flatMap fun id ↦ ((reg.streams.lookup id).map (reg.sendTo env bytes id)).getD []
  writable : ∀ id h, reg.streams.lookup id = some h → h.parent = some sid →
    (reg.writeToStream env id bytes).1 = (env.write h.stream bytes).mapError .io

theorem writeToStream_connected {h : StreamHandle} (hid : reg.streams.lookup id = some h)
    (hc : h.state.status = .connected) :
    reg.writeToStream env id bytes =
      ((env.write h.stream bytes).mapError .io, [.write h.stream bytes]) := by
  have hw : ¬(h.state.status = .closed ∨ h.state.status = .closing) := by
    rw [hc]
    simp
  simp only [writeToStream, hid, if_neg hw]
  cases env.write h.stream bytes <;> rfl

/-- Over live children the loop neither stops early nor skips one. -/
theorem broadcast_eq (children : List ConnectionId)
    (hlive : ∀ id ∈ children, ∃ h, reg.streams.lookup id = some h ∧ h.state.status = .connected) :
    reg.broadcast env bytes children = children.flatMap fun id ↦
      ((reg.streams.lookup id).map (reg.sendTo env bytes id)).getD [] := by
  induction children with
  | nil => rfl
  | cons c children ih =>
    obtain ⟨⟨h, hc, hconn⟩, hrest⟩ := List.forall_mem_cons.mp hlive
    rw [broadcast, ih hrest, List.flatMap_cons, writeToStream_connected hc hconn, hc]
    simp only [Option.map_some, Option.getD_some, sendTo]
    cases env.write h.stream bytes <;> rfl

theorem visitsChildren (hw : WellFormed reg) {srv : ServerHandle}
    (hsrv : reg.servers.lookup sid = some srv) (order : IterationOrder ConnectionId) :
    reg.VisitsChildren sid (order.visit srv.children) where
  once := order.nodup _
  all id := by
    rw [order.mem_visit, hw.children_iff sid srv hsrv]
    constructor
    · rintro ⟨hid, hp⟩
      obtain ⟨h, hs⟩ := mem_iff_lookup.mp hid
      exact ⟨h, hs, (hw.parent_eq hs).trans hp⟩
    · rintro ⟨h, hs, hp⟩
      exact ⟨mem_of_lookup hs, (hw.parent_eq hs).symm.trans hp⟩

theorem reachesChildren (hw : WellFormed reg) {srv : ServerHandle}
    (hsrv : reg.servers.lookup sid = some srv) (hchild : srv.children.Nonempty)
    (hbytes : bytes ≠ []) (env : Environment) :
    reg.ReachesChildren env sid bytes (reg.sendBytes env sid bytes) := by
  have hvisit := reg.visitsChildren hw hsrv env.order
  have hsent : reg.sendBytes env sid bytes =
      (.ok (), reg.broadcast env bytes (env.order.visit srv.children)) := by
    obtain ⟨c, hc⟩ := hchild
    have hne : (env.order.visit srv.children).isEmpty = false :=
      List.isEmpty_eq_false_iff_exists_mem.mpr ⟨c, (env.order.mem_visit _ c).mpr hc⟩
    have hempty : bytes.isEmpty = false := List.isEmpty_eq_false_iff.mpr hbytes
    simp only [sendBytes, hempty, (hw.server_entry sid srv hsrv).1, hsrv, hne, Bool.false_eq_true,
      if_false, if_true]
  have hlive : ∀ id ∈ env.order.visit srv.children,
      ∃ h, reg.streams.lookup id = some h ∧ h.state.status = .connected := by
    intro id hid
    obtain ⟨h, hs, -⟩ := (hvisit.all id).mp hid
    exact ⟨h, hs, hw.stream_connected hs⟩
  rw [hsent]
  refine ⟨rfl, ⟨_, hvisit, broadcast_eq _ hlive⟩, fun id h hs _ ↦ ?_⟩
  rw [writeToStream_connected hs (hw.stream_connected hs)]

end Registry

/-- In every state reached a payload for a server goes to each of its children
once, whichever writes fail, and changes nothing in the registry. -/
theorem broadcast_reaches_children {w : World} (hw : Reachable registrySystem w)
    {sid : ConnectionId} {srv : ServerHandle} (hsrv : w.reg.servers.lookup sid = some srv)
    (hchild : srv.children.Nonempty) {bytes : List UInt8} (hbytes : bytes ≠ [])
    (env : Environment) :
    w.reg.ReachesChildren env sid bytes (w.reg.sendBytes env sid bytes) ∧
    ∀ token id, w.reg.resolveId token defaultTokenParser = .ok id → w.reg.entryOf token id = sid →
      w.reg.handleCommand env (.send token bytes) =
        { reg := w.reg, effects := (w.reg.sendBytes env sid bytes).2,
          outcome := .ok s!"sent {bytes.length} bytes to {id}" } := by
  have hreach := Registry.reachesChildren (wellFormed_of_reachable hw) hsrv hchild hbytes env
  refine ⟨hreach, fun token id ht he ↦ ?_⟩
  simp only [Registry.handleCommand, ht, he, hreach.ok]

theorem broadcast_past_a_failure :
    ∃ w env, World.initial.play (fun _ _ ↦ true) [.command (.openTcpServer 3000),
        tcpHandoff 3000 10015 7, tcpHandoff 3000 10016 8] = some w ∧
      (w.reg.sendBytes env (.tcpServer 3000) [72]).2 = [.write 7 [72],
        say "[3000.10015] ERROR io error: broken pipe", .write 8 [72]] ∧
      w.reg.ReachesChildren env (.tcpServer 3000) [72]
        (w.reg.sendBytes env (.tcpServer 3000) [72]) := by
  let env : Environment :=
    { Environment.granting 9 with
      write := fun stream _ ↦ if stream = 7 then .error "broken pipe" else .ok ()
      order := .first [.acceptedTcp 3000 10015 none, .acceptedTcp 3000 10016 none] }
  have hrun : ∃ w ∈ World.initial.play (fun _ _ ↦ true) [.command (.openTcpServer 3000),
      tcpHandoff 3000 10015 7, tcpHandoff 3000 10016 8],
      (∃ srv ∈ w.reg.servers.lookup (.tcpServer 3000), srv.children.Nonempty) ∧
        (w.reg.sendBytes env (.tcpServer 3000) [72]).2 = [.write 7 [72],
          say "[3000.10015] ERROR io error: broken pipe", .write 8 [72]] := by decide +kernel
  obtain ⟨w, hw, ⟨srv, hsrv, hchild⟩, hsent⟩ := hrun
  exact ⟨w, env, hw, hsent, (broadcast_reaches_children (reachable_play hw) hsrv
    hchild (by simp) env).1⟩

end WireDock
