import WireDock.Registry.Clients
import WireDock.Registry.Writes

namespace WireDock

open FiniteMap LabelledSystem

def clientNumber (k : ℕ) : UInt32 := UInt32.ofNat (min (k + 1) (2 ^ 32 - 1))

def Effect.numbers : Effect → Option UInt32
  | spawnRead _ (.ipcClient seq) _ => some seq
  | _ => none

def numbersGiven (log : List Effect) : List UInt32 := log.filterMap Effect.numbers

theorem toNat_clientNumber (k : ℕ) : (clientNumber k).toNat = min (k + 1) (2 ^ 32 - 1) :=
  UInt32.toNat_ofNat_of_lt' (by
    rw [show UInt32.size = 2 ^ 32 from rfl]
    omega)

theorem numbersGiven_append (log effects : List Effect) :
    numbersGiven (log ++ effects) = numbersGiven log ++ numbersGiven effects :=
  List.filterMap_append

namespace Registry

variable {env : Environment} {reg reg' : Registry} {input : RegistryInput}
  {effects : List Effect}

theorem alloc_clientNumber {k : ℕ} (h : reg.nextIpcClientSeq = clientNumber k) :
    reg.allocIpcClientSeq.2.nextIpcClientSeq = clientNumber (k + 1) := by
  have hk := toNat_clientNumber k
  rw [← UInt32.toNat_inj, toNat_clientNumber]
  simp only [allocIpcClientSeq, h]
  split_ifs with hlast
  · rw [hlast] at hk
    replace hk : 2 ^ 32 - 1 = min (k + 1) (2 ^ 32 - 1) := hk
    change 2 ^ 32 - 1 = _
    omega
  · have hlt : (clientNumber k).toNat < 2 ^ 32 - 1 := by
      have hne : (clientNumber k).toNat ≠ (4294967295 : UInt32).toNat := fun he ↦
        hlast (UInt32.toNat_inj.mp he)
      replace hne : (clientNumber k).toNat ≠ 2 ^ 32 - 1 := hne
      omega
    rw [toNat_succ_u32 hlt, hk]
    omega

def Aside (e : Effect) : Prop := e.opensIpc = false ∧ e.numbers = none

/-- What one input does to the numbers of the IPC clients: nothing, or it takes the
next one, which a client gets or nobody does. -/
inductive Takes (reg : Registry) (effects : List Effect) (reg' : Registry) : Prop
  | none (hseq : reg'.nextIpcClientSeq = reg.nextIpcClientSeq) (he : ∀ e ∈ effects, Aside e)
  | next (hseq : reg'.nextIpcClientSeq = reg.allocIpcClientSeq.2.nextIpcClientSeq)
      (hopens : ipcOpens effects = 1)
      (hgiven : (numbersGiven effects).Sublist [reg.nextIpcClientSeq])

theorem aside_dropStream {id : ConnectionId} : ∀ e ∈ (reg.dropStream id).2, Aside e := by
  intro e he
  obtain ⟨task, rfl⟩ := abort_of_mem_dropStream he
  exact ⟨rfl, rfl⟩

theorem aside_dropServer {order : IterationOrder ConnectionId} {id : ConnectionId} :
    ∀ e ∈ (reg.dropServer order id).2, Aside e := by
  intro e he
  rcases abort_or_remove_of_mem_dropServer he with ⟨task, rfl⟩ | ⟨path, rfl⟩ <;> exact ⟨rfl, rfl⟩

theorem aside_say {text : String} (h : ∀ e ∈ effects, Aside e) :
    ∀ e ∈ effects ++ [say text], Aside e := by
  intro e he
  rcases List.mem_append.mp he with he | he
  · exact h e he
  · rw [List.mem_singleton.mp he]
    exact ⟨rfl, rfl⟩

theorem Sends.aside {e : Effect} (h : reg.Sends e) : Aside e := by
  cases h <;> exact ⟨rfl, rfl⟩

theorem aside_register {b : Base} {d : Option UInt32} {ev : Option NetEvent}
    {peerInfo : PeerInfo} {stream : BoxedStream} :
    ∀ e ∈ (register env b.server peerInfo stream (reg, b.accepted d, ev)).2, Aside e := by
  intro e he
  simp only [register, spawnStream, say, List.mem_append, List.mem_cons, List.not_mem_nil,
    or_false] at he
  rcases he with he | rfl | rfl
  · unfold renamedLine at he
    split at he
    · rw [List.mem_singleton.mp he]
      exact ⟨rfl, rfl⟩
    · cases he
  · cases b <;> exact ⟨rfl, rfl⟩
  · exact ⟨rfl, rfl⟩

theorem takes_openServer {id : ConnectionId} {endpoint : ServerEndpoint} {path : Option PathBuf} :
    reg.Takes (reg.openServer env id endpoint path).effects
      (reg.openServer env id endpoint path).reg := by
  unfold openServer
  cases env.bind endpoint with
  | ok listener => exact .none rfl (by simp [Aside, say, Effect.opensIpc, Effect.numbers])
  | error e => exact .none rfl (by simp [Aside, Effect.opensIpc, Effect.numbers])

theorem takes_command (cmd : Command) :
    reg.Takes (reg.handleCommand env cmd).effects (reg.handleCommand env cmd).reg := by
  have hquiet : reg.Takes [] reg := .none rfl fun _ h ↦ by cases h
  cases cmd with
  | openTcpServer | openIpcServer =>
    simp only [handleCommand]
    split_ifs
    · exact hquiet
    · exact takes_openServer
  | openTcpClient localPort remoteHost remotePort =>
    simp only [handleCommand]
    split_ifs
    · exact hquiet
    · cases env.connect (.tcp localPort remoteHost remotePort) with
      | ok stream =>
        exact .none rfl (by simp [Aside, say, spawnStream, Effect.opensIpc, Effect.numbers])
      | error e => exact .none rfl (by simp [Aside, Effect.opensIpc, Effect.numbers])
  | openIpcClient remotePath =>
    simp only [handleCommand]
    cases env.connect (.ipc remotePath) with
    | ok stream => exact .next rfl rfl (List.Sublist.refl _)
    | error e => exact .next rfl rfl (List.nil_sublist _)
  | close token =>
    simp only [handleCommand]
    cases reg.resolveId token defaultTokenParser with
    | error e => exact hquiet
    | ok id =>
      simp only
      split_ifs
      · exact .none seq_dropServer (aside_say aside_dropServer)
      · exact .none seq_dropStream (aside_say aside_dropStream)
      · exact hquiet
  | send token bytes =>
    simp only [handleCommand]
    cases reg.resolveId token defaultTokenParser with
    | error e => exact hquiet
    | ok id =>
      simp only
      cases (reg.sendBytes env (reg.entryOf token id) bytes).1 <;>
        exact .none rfl fun e he ↦ (sends_of_mem_sendBytes he).aside
  | label token name =>
    simp only [handleCommand]
    cases reg.resolveId token defaultTokenParser with
    | error e => exact hquiet
    | ok id =>
      refine .none ?_ fun e he ↦ by cases he
      simp only [cmdLabel]
      cases ha : (reg.applyLabel (reg.entryOf token id) id name).2 with
      | ok u =>
        simp only [(applyLabel_ok ha).2]
        exact seq_replaceLabel
      | error e => simp only [applyLabel_error ha]
  | status => exact hquiet

theorem takes_handleInput {reply : Option CommandOutcome}
    (hh : reg.handleInput env input = .running reg' effects reply) : reg.Takes effects reg' := by
  cases input with
  | shutdown => cases hh
  | command cmd =>
    cases hh
    exact takes_command cmd
  | event ev =>
    cases hh
    cases ev with
    | received | error =>
      refine .none rfl fun e he ↦ ?_
      rw [List.mem_singleton.mp he]
      exact ⟨rfl, rfl⟩
    | closed id =>
      simp only [handleEvent, onClosedEvent]
      split_ifs
      · exact .none seq_dropStream (aside_say aside_dropStream)
      · exact .none rfl fun e he ↦ by cases he
    | renamed => exact .none rfl fun e he ↦ by cases he
  | accepted parent child peerInfo stream =>
    unfold handleInput at hh
    cases hb : acceptedBase parent child with
    | none =>
      simp only [handleAccepted_of_no_base hb, Handling.running.injEq] at hh
      obtain ⟨rfl, rfl, -⟩ := hh
      exact .none rfl (by simp [Aside, say, Effect.opensIpc, Effect.numbers])
    | some b =>
      simp only [handleAccepted_of_base hb] at hh
      cases ha : reg.allocate b with
      | none => simp [ha] at hh
      | some allocated =>
        obtain ⟨reg₁, id, ev⟩ := allocated
        have hall := allocate_cases ha
        obtain ⟨d, rfl⟩ := hall.id_eq
        simp only [ha, Option.map_some, Handling.running.injEq] at hh
        obtain ⟨rfl, rfl, -⟩ := hh
        exact .none hall.seq aside_register

end Registry

/-- The counter stands at the number of the next attempt, and the numbers given
are those of the attempts that connected, in their order. -/
structure ClientsNumbered (reg : Registry) (log : List Effect) : Prop where
  next : reg.nextIpcClientSeq = clientNumber (ipcOpens log)
  given : (numbersGiven log).Sublist ((List.range (ipcOpens log)).map clientNumber)

namespace ClientsNumbered

variable {reg reg' : Registry} {log effects : List Effect}

theorem aside (h : ClientsNumbered reg log)
    (hseq : reg'.nextIpcClientSeq = reg.nextIpcClientSeq)
    (he : ∀ e ∈ effects, Registry.Aside e) : ClientsNumbered reg' (log ++ effects) := by
  have hopens : ipcOpens effects = 0 := List.countP_eq_zero.mpr fun e hm ↦ by
    rw [(he e hm).1]
    exact Bool.false_ne_true
  have hgiven : numbersGiven effects = [] :=
    List.filterMap_eq_nil_iff.mpr fun e hm ↦ (he e hm).2
  constructor
  · rw [hseq, ipcOpens_append, hopens, Nat.add_zero, h.next]
  · rw [numbersGiven_append, hgiven, List.append_nil, ipcOpens_append, hopens, Nat.add_zero]
    exact h.given

theorem takes (h : ClientsNumbered reg log) (ht : reg.Takes effects reg') :
    ClientsNumbered reg' (log ++ effects) := by
  cases ht with
  | none hseq he => exact h.aside hseq he
  | next hseq hopens hgiven =>
    constructor
    · rw [hseq, ipcOpens_append, hopens, Registry.alloc_clientNumber h.next]
    · rw [numbersGiven_append, ipcOpens_append, hopens, List.range_succ, List.map_append]
      rw [h.next] at hgiven
      exact h.given.append hgiven

end ClientsNumbered

theorem clientsNumbered_of_reachable {ok : World → Environment × RegistryInput → Prop} {w : World}
    (hw : ReachableBy registrySystem ok w) : ClientsNumbered w.reg w.log := by
  refine ReachableBy.invariant (P := fun w ↦ ClientsNumbered w.reg w.log) ?_ ?_ hw
  · rintro s rfl
    exact ⟨rfl, List.Sublist.refl _⟩
  · intro s a t _ h _ hstep
    obtain ⟨env, input⟩ := a
    obtain ⟨-, -, rfl⟩ := hstep
    cases hh : s.reg.handleInput env input with
    | running reg' effects reply =>
      rw [handle_running hh]
      exact h.takes (Registry.takes_handleInput hh)
    | stopped reg' effects =>
      simp only [World.handle, hh]
      cases input with
      | shutdown =>
        cases hh
        exact shutdown_invariant (P := ClientsNumbered)
          (fun _ _ _ h ↦ h.aside Registry.seq_dropServer Registry.aside_dropServer)
          (fun _ _ _ h ↦ h.aside Registry.seq_dropStream Registry.aside_dropStream) h
      | command cmd => cases hh
      | event ev => cases hh
      | accepted parent child peerInfo stream =>
        unfold Registry.handleInput at hh
        cases ha : s.reg.handleAccepted env parent child peerInfo stream <;> simp [ha] at hh
    | panicked =>
      simp only [World.handle, hh]
      exact h

theorem pairwise_clientNumber {n : ℕ} (h : n < 2 ^ 32) :
    ((List.range n).map clientNumber).Pairwise (· < ·) := by
  rw [List.pairwise_map]
  refine List.pairwise_lt_range.imp_of_mem fun {j k} _ hk hjk ↦ ?_
  rw [UInt32.lt_iff_toNat_lt, toNat_clientNumber, toNat_clientNumber]
  have hkn := List.mem_range.mp hk
  omega

/-- In every run the attempts to open an IPC client are numbered from one, failed
ones included; the numbers given only grow, so none is given twice, as long as
fewer than 2³² were tried. -/
theorem client_numbers_grow {w : World} (hw : Reachable registrySystem w) :
    w.reg.nextIpcClientSeq = clientNumber (ipcOpens w.log) ∧
      (numbersGiven w.log).Sublist ((List.range (ipcOpens w.log)).map clientNumber) ∧
      (ipcOpens w.log < 2 ^ 32 → (numbersGiven w.log).Pairwise (· < ·)) := by
  obtain ⟨hnext, hgiven⟩ := clientsNumbered_of_reachable hw
  exact ⟨hnext, hgiven, fun hlt ↦ (pairwise_clientNumber hlt).sublist hgiven⟩

theorem client_numbers_after_close :
    ∃ w, World.initial.play (fun _ _ ↦ true) [.command (.openIpcClient "/a"),
        .command (.openIpcClient "/b"), .command (.close "ipc:1"),
        .command (.openIpcClient "/c")] = some w ∧
      numbersGiven w.log = [1, 2, 3] ∧ w.reg.nextIpcClientSeq = clientNumber (ipcOpens w.log) := by
  have hrun : ∃ w ∈ World.initial.play (fun _ _ ↦ true) [.command (.openIpcClient "/a"),
      .command (.openIpcClient "/b"), .command (.close "ipc:1"),
      .command (.openIpcClient "/c")], numbersGiven w.log = [1, 2, 3] := by decide +kernel
  obtain ⟨w, hw, hg⟩ := hrun
  exact ⟨w, hw, hg, (client_numbers_grow (reachable_play hw)).1⟩

end WireDock
