import WireDock.Registry.Turns

namespace WireDock

open FiniteMap LabelledSystem

/-- The same input and the same answers, with the sets visited in any order. -/
def Reordered (a a' : Environment × RegistryInput) : Prop :=
  ∃ order, a' = ({ a.1 with order }, a.2)

/-- Two ways to handle an input that differ in the order of the calls, and in what
`status` shows. -/
inductive Handling.Alike (input : RegistryInput) : Handling → Handling → Prop
  | running {reg : Registry} {effects effects' : List Effect} {reply reply' : Option CommandOutcome}
      (he : effects.Perm effects') (hr : input ≠ .command .status → reply = reply') :
      Alike input (.running reg effects reply) (.running reg effects' reply')
  | stopped {reg : Registry} {effects effects' : List Effect} (he : effects.Perm effects') :
      Alike input (.stopped reg effects) (.stopped reg effects')
  | panicked : Alike input .panicked .panicked

theorem Handling.Alike.refl {input : RegistryInput} (h : Handling) : Handling.Alike input h h := by
  cases h with
  | running => exact .running (List.Perm.refl _) fun _ ↦ rfl
  | stopped => exact .stopped (List.Perm.refl _)
  | panicked => exact .panicked

theorem Lists.perm {α : Type*} {l l' : List α} {s : Set α} (h : Lists l s) (h' : Lists l' s) :
    l.Perm l' :=
  (List.perm_ext_iff_of_nodup h.nodup h'.nodup).mpr fun a ↦
    (h.mem_iff a).trans (h'.mem_iff a).symm

namespace Registry

variable {reg : Registry} {log : List Effect} {env : Environment}
  {order order' : IterationOrder ConnectionId}

theorem dropServer_reordered (hw : WellFormed reg) (order order' : IterationOrder ConnectionId)
    (id : ConnectionId) :
    (reg.dropServer order id).1 = (reg.dropServer order' id).1 ∧
      (reg.dropServer order id).2.Perm (reg.dropServer order' id).2 := by
  cases hsrv : reg.servers.lookup id with
  | none =>
    simp only [dropServer, hsrv, List.Perm.refl, and_self]
  | some srv =>
    exact (cascades_dropServer hw hsrv order).unique (cascades_dropServer hw hsrv order')
      (reg.visitsChildren hw hsrv order)

theorem sendBytes_reordered (hw : WellFormed reg) (env : Environment)
    (order : IterationOrder ConnectionId) (id : ConnectionId) (bytes : List UInt8) :
    (reg.sendBytes env id bytes).1 = (reg.sendBytes { env with order } id bytes).1 ∧
      (reg.sendBytes env id bytes).2.Perm (reg.sendBytes { env with order } id bytes).2 := by
  unfold sendBytes
  split_ifs with hempty hserver
  · exact ⟨rfl, .refl _⟩
  · cases hsrv : reg.servers.lookup id with
    | none => exact ⟨rfl, .refl _⟩
    | some srv =>
      have hlive : ∀ order : IterationOrder ConnectionId, ∀ c ∈ order.visit srv.children,
          ∃ h, reg.streams.lookup c = some h ∧ h.state.status = .connected := by
        intro order c hc
        obtain ⟨h, hs, -⟩ := ((reg.visitsChildren hw hsrv order).all c).mp hc
        exact ⟨h, hs, hw.stream_connected hs⟩
      have hperm := env.order.visit_perm order srv.children
      simp only [hperm.isEmpty_eq]
      split_ifs
      · exact ⟨rfl, .refl _⟩
      · refine ⟨rfl, ?_⟩
        rw [broadcast_eq _ (hlive env.order), broadcast_eq _ (hlive order)]
        exact hperm.flatMap_right _
  · exact ⟨rfl, .refl _⟩

theorem dismiss_perm {board : Switchboard} {members members' : List ConnectionId}
    {id : ConnectionId} (h : members.Perm members') :
    (board.dismiss members id).Perm (board.dismiss members' id) := by
  unfold Switchboard.dismiss
  cases board.stations id with
  | none => exact .refl _
  | some station => exact ((h.filterMap _).cons _).append_right _

theorem lookup_labels_eq (name : String) :
    reg.labels.lookup name = (reg.naming name).map Naming.id := by
  rw [naming, Option.map_map]
  exact Option.map_id'.symm

theorem labels_shutdown_reordered (hw : WellFormed reg) (name : String) :
    (reg.shutdown order).1.labels.lookup name = (reg.shutdown order').1.labels.lookup name := by
  have hview : (reg.shutdown order).1.view (fun _ ↦ 0) 0 =
      (reg.shutdown order').1.view (fun _ ↦ 0) 0 := (view_shutdown hw).trans (view_shutdown hw).symm
  have hnaming := congrFun (congrArg Switchboard.labels hview) name
  rw [lookup_labels_eq, lookup_labels_eq]
  exact congrArg (Option.map Naming.id) hnaming

theorem seq_shutdown : (reg.shutdown order).1.nextIpcClientSeq = reg.nextIpcClientSeq :=
  @shutdown_invariant (fun reg' _ ↦ reg'.nextIpcClientSeq = reg.nextIpcClientSeq) order
    (fun _ _ _ h ↦ seq_dropServer.trans h) (fun _ _ _ h ↦ seq_dropStream.trans h) reg [] rfl

theorem typed_shutdown : (reg.shutdown order).1.typed = reg.typed :=
  @shutdown_invariant (fun reg' _ ↦ reg'.typed = reg.typed) order
    (fun _ _ _ h ↦ typed_dropServer.trans h) (fun _ _ _ h ↦ typed_dropStream.trans h) reg [] rfl

theorem shutdown_reordered (hs : Sound reg log) (order order' : IterationOrder ConnectionId) :
    (reg.shutdown order).1 = (reg.shutdown order').1 ∧
      (reg.shutdown order).2.Perm (reg.shutdown order').2 := by
  have hw := hs.wellFormed
  constructor
  · obtain ⟨hservers, hstreams⟩ := shutdown_empty order reg
    obtain ⟨hservers', hstreams'⟩ := shutdown_empty order' reg
    refine ext_lookup (fun k ↦ ?_) (fun k ↦ ?_) (labels_shutdown_reordered hw)
      (typed_shutdown.trans typed_shutdown.symm) (seq_shutdown.trans seq_shutdown.symm)
    · rw [hstreams, hstreams']
    · rw [hservers, hservers']
  · rw [shutdown_effects hs, shutdown_effects hs]
    refine List.Perm.append ?_ ?_
    · refine (order.visit_perm order' _).flatMap fun sid _ ↦ dismiss_perm ?_
      unfold children
      cases reg.servers.lookup sid with
      | none => exact .refl _
      | some srv => exact order.visit_perm order' _
    · have hclients := lists_clients_closed (a := fun _ ↦ 0) (n := 0) hw order
      exact (hclients.perm (lists_clients_closed hw order')).filterMap _

theorem handleInput_reordered (hs : Sound reg log) (input : RegistryInput) :
    Handling.Alike input (reg.handleInput env input) (reg.handleInput { env with order } input) := by
  cases input with
  | shutdown =>
    obtain ⟨hreg, heffects⟩ := shutdown_reordered hs env.order order
    simp only [handleInput, ← hreg]
    exact .stopped heffects
  | event | accepted => exact .refl _
  | command cmd =>
    cases cmd with
    | status => exact .running (.refl _) fun h ↦ (h rfl).elim
    | close token =>
      simp only [handleInput, handleCommand]
      cases reg.resolveId token defaultTokenParser with
      | error e => exact .refl _
      | ok id =>
        obtain ⟨hreg, heffects⟩ :=
          dropServer_reordered hs.wellFormed env.order order (reg.entryOf token id)
        simp only [← hreg]
        split_ifs
        · exact .running (heffects.append_right _) fun _ ↦ rfl
        · exact .refl _
        · exact .refl _
    | send token bytes =>
      simp only [handleInput, handleCommand]
      cases reg.resolveId token defaultTokenParser with
      | error e => exact .refl _
      | ok id =>
        obtain ⟨hsent, heffects⟩ :=
          sendBytes_reordered hs.wellFormed env order (reg.entryOf token id) bytes
        simp only [← hsent]
        cases (reg.sendBytes env (reg.entryOf token id) bytes).1 with
        | ok u => exact .running heffects fun _ ↦ rfl
        | error e => exact .running heffects fun _ ↦ rfl
    | _ => exact .refl _

end Registry

structure World.Alike (w w' : World) : Prop where
  reg : w.reg = w'.reg
  phase : w.phase = w'.phase
  log : w.log.Perm w'.log

theorem World.Alike.handle {w w' : World} (h : w.Alike w') {env env' : Environment}
    {input : RegistryInput}
    (ha : Handling.Alike input (w.reg.handleInput env input) (w.reg.handleInput env' input)) :
    (w.handle env input).Alike (w'.handle env' input) := by
  unfold World.handle
  rw [← h.reg]
  generalize w.reg.handleInput env input = handling at ha
  generalize w.reg.handleInput env' input = handling' at ha
  cases ha with
  | running he => exact ⟨rfl, rfl, h.log.append he⟩
  | stopped he => exact ⟨rfl, rfl, h.log.append he⟩
  | panicked => exact ⟨rfl, rfl, h.log⟩

theorem reordered_simulates : Simulation registrySystem registrySystem Reordered World.Alike where
  init w hw := ⟨w, hw, rfl, rfl, .refl _⟩
  step w a w₁ w' b hw h hb hstep := by
    obtain ⟨env, input⟩ := a
    obtain ⟨order, rfl⟩ := hb
    obtain ⟨hrun, hfresh, rfl⟩ := hstep
    have hs := sound_of_reachable hw
    refine ⟨_, ⟨h.phase ▸ hrun, fun e he ↦ hfresh e (h.log.mem_iff.mpr he), rfl⟩, ?_⟩
    exact h.handle (Registry.handleInput_reordered hs input)

/-- The order in which the sets of the registry are gone through cannot be told from
what becomes of it: any other order at each turn leads through the same registries
with the same replies but for `status`, and only moves the calls within a turn. -/
theorem orders_unobservable {hist : List (World × Environment × RegistryInput)} {w : World}
    (hr : Run registrySystem hist w) {labels : List (Environment × RegistryInput)}
    (hl : List.Forall₂ Reordered (hist.map Prod.snd) labels) :
    ∃ hist' w', Run registrySystem hist' w' ∧ hist'.map Prod.snd = labels ∧ w.Alike w' ∧
      List.Forall₂ (fun p q ↦ p.1.Alike q.1 ∧ Handling.Alike p.2.2
        (p.1.reg.handleInput p.2.1 p.2.2) (q.1.reg.handleInput q.2.1 q.2.2)) hist hist' := by
  obtain ⟨hist', w', hrun, hlabels, hw, hall⟩ := reordered_simulates.run hr hl
  refine ⟨hist', w', hrun, hlabels, hw, hall.imp ?_⟩
  intro p q h
  obtain ⟨hp, halike, order, hq⟩ := h
  refine ⟨halike, ?_⟩
  rw [hq, ← halike.reg]
  exact Registry.handleInput_reordered (sound_of_reachable hp) p.2.2

theorem orders_unobservable_at_shutdown :
    ∃ w hist, World.initial.play (fun _ _ ↦ true) [.command (.openTcpServer 3000),
        tcpHandoff 3000 10015 7, tcpHandoff 3000 10016 8] = some w ∧
      w.reg.streams.keys.card = 2 ∧
      Run registrySystem hist (w.handle (.granting 9) .shutdown) ∧
      ∃ hist' w', Run registrySystem hist' w' ∧
        hist'.map Prod.snd = hist.map (fun p ↦
          ({ p.2.1 with order := .first [.acceptedTcp 3000 10016 none] }, p.2.2)) ∧
        (w.handle (.granting 9) .shutdown).Alike w' := by
  have hrun : ∃ w ∈ World.initial.play (fun _ _ ↦ true) [.command (.openTcpServer 3000),
      tcpHandoff 3000 10015 7, tcpHandoff 3000 10016 8],
      w.reg.streams.keys.card = 2 ∧ w.phase = .running ∧ w.Fresh 9 := by decide +kernel
  obtain ⟨w, hw, hcard, hphase, hfresh⟩ := hrun
  obtain ⟨hist, hhist⟩ := (reachable_play hw).run
  have hlast := hhist.step (a := (.granting 9, .shutdown)) ⟨hphase, hfresh, rfl⟩
  obtain ⟨hist', w', hrun', hlabels, halike, -⟩ :=
    orders_unobservable hlast (List.forall₂_map_right_iff.mpr (List.forall₂_same.mpr
      fun _ _ ↦ ⟨.first [.acceptedTcp 3000 10016 none], rfl⟩))
  exact ⟨w, _, hw, hcard, hlast, hist', w', hrun', by rw [hlabels, List.map_map]; rfl, halike⟩

end WireDock
