import WireDock.Library.Custody
import WireDock.Registry.Cascade
import WireDock.Registry.Teardown

namespace WireDock

open Custody FiniteMap LabelledSystem Effect

namespace Effect

def taskMark : Effect → Option (JoinHandle × Mark)
  | spawnAccept task _ _ | spawnRead task _ _ => some (task, .acquired)
  | abort task => some (task, .released)
  | _ => none

def taskMarks (effects : List Effect) : List (JoinHandle × Mark) := effects.filterMap taskMark

theorem taskMarks_append (effects effects' : List Effect) :
    taskMarks (effects ++ effects') = taskMarks effects ++ taskMarks effects' := List.filterMap_append

theorem mem_taskMarks_acquired {task : JoinHandle} {log : List Effect}
    (h : (task, .acquired) ∈ taskMarks log) : ∃ e ∈ log, e.spawned = some task := by
  obtain ⟨e, he, hm⟩ := List.mem_filterMap.mp h
  refine ⟨e, he, ?_⟩
  cases e with
  | spawnAccept | spawnRead =>
    cases hm
    rfl
  | abort | _ => cases hm

end Effect

namespace Registry

variable {reg reg' : Registry} {log effects : List Effect} {id : ConnectionId}

/-- The task of an entry: the read task of a stream on the left, the accept task
of a server on the right. -/
def taskOf (reg : Registry) : ConnectionId ⊕ ConnectionId → Option JoinHandle
  | .inl id => reg.readTask id
  | .inr sid => (reg.owned sid).map Prod.fst

abbrev KeepsTasks (reg : Registry) (log : List Effect) : Prop := Kept reg.taskOf (taskMarks log)

theorem taskOf_server {srv : ServerHandle} (hsrv : reg.servers.lookup id = some srv) :
    reg.taskOf (.inr id) = some srv.acceptTask := by
  rw [taskOf, owned, hsrv]
  rfl

theorem taskMarks_aborts (ids : List ConnectionId) :
    taskMarks (reg.aborts ids) = (ids.filterMap reg.readTask).map fun task ↦ (task, .released) := by
  rw [taskMarks, aborts, List.filterMap_filterMap, List.map_filterMap]
  refine List.filterMap_congr fun k _ ↦ ?_
  rw [readTask]
  cases reg.streams.lookup k <;> rfl

theorem KeepsTasks.unmarked (h : reg.KeepsTasks log) {f : ConnectionId → ConnectionId}
    (hf : Function.Injective f) (hread : ∀ k, reg'.readTask k = reg.readTask (f k))
    (howned : ∀ sid, reg'.owned sid = reg.owned sid) (he : taskMarks effects = []) :
    reg'.KeepsTasks (log ++ effects) := by
  rw [KeepsTasks, taskMarks_append, he, List.append_nil]
  refine h.keep (f := Sum.map f id) (hf.sumMap Function.injective_id) fun k task hk ↦ ?_
  cases k with
  | inl k => exact (hread k).symm.trans hk
  | inr sid =>
    rw [taskOf, howned] at hk
    exact hk

theorem KeepsTasks.insertStream (h : reg.KeepsTasks log) {s : StreamHandle}
    (hfresh : ∀ e ∈ log, e.spawned ≠ some s.readTask)
    (he : taskMarks effects = [(s.readTask, .acquired)]) :
    (reg.insertStream s).KeepsTasks (log ++ effects) := by
  rw [KeepsTasks, taskMarks_append, he]
  refine h.acquire (j := .inl s.state.id) (fun hm ↦ ?_) fun k task hk ↦ ?_
  · obtain ⟨e, he, hs⟩ := Effect.mem_taskMarks_acquired hm
    exact hfresh e he hs
  · cases k with
    | inl k =>
      rw [taskOf, readTask_insertStream] at hk
      split_ifs at hk with hid
      · cases hk
        exact .inl ⟨congrArg _ hid, rfl⟩
      · exact .inr hk
    | inr sid =>
      rw [taskOf, owned_insertStream] at hk
      exact .inr hk

theorem KeepsTasks.openServer (h : reg.KeepsTasks log) {task : JoinHandle}
    {path : Option PathBuf} (hfresh : ∀ e ∈ log, e.spawned ≠ some task)
    (he : taskMarks effects = [(task, .acquired)]) :
    ({ reg with servers := reg.servers.insert id (.opened id task path) } : Registry).KeepsTasks
      (log ++ effects) := by
  rw [KeepsTasks, taskMarks_append, he]
  refine h.acquire (j := .inr id) (fun hm ↦ ?_) fun k task hk ↦ ?_
  · obtain ⟨e, he, hs⟩ := Effect.mem_taskMarks_acquired hm
    exact hfresh e he hs
  · cases k with
    | inl k => exact .inr hk
    | inr sid =>
      rw [taskOf, owned_openServer] at hk
      split_ifs at hk with hid
      · cases hk
        exact .inl ⟨congrArg _ hid, rfl⟩
      · exact .inr hk

theorem KeepsTasks.dropStream (h : reg.KeepsTasks log) (id : ConnectionId) :
    (reg.dropStream id).1.KeepsTasks (log ++ (reg.dropStream id).2) := by
  have he : taskMarks (reg.dropStream id).2 =
      (reg.readTask id).toList.map fun task ↦ (task, .released) := by
    rw [dropStream_effects, readTask]
    cases reg.streams.lookup id <;> rfl
  rw [KeepsTasks, taskMarks_append, he]
  refine h.release (by cases reg.readTask id <;> simp) (fun task ht ↦ ?_) fun k task hk ↦ ?_
  · exact ⟨.inl id, Option.mem_toList.mp ht⟩
  · cases k with
    | inl k =>
      rw [taskOf, readTask_dropStream] at hk
      split_ifs at hk with hne
      refine ⟨hk, fun ht ↦ hne ?_⟩
      exact Sum.inl.inj (h.distinct (.inl k) (.inl id) task hk (Option.mem_toList.mp ht))
    | inr sid =>
      rw [taskOf, owned_dropStream] at hk
      refine ⟨hk, fun ht ↦ ?_⟩
      cases h.distinct (.inr sid) (.inl id) task hk (Option.mem_toList.mp ht)

theorem KeepsTasks.dropServer (h : reg.KeepsTasks log) (order : IterationOrder ConnectionId)
    (id : ConnectionId) :
    (reg.dropServer order id).1.KeepsTasks (log ++ (reg.dropServer order id).2) := by
  cases hsrv : reg.servers.lookup id with
  | none =>
    have hsame : reg.dropServer order id = (reg, []) := by simp only [Registry.dropServer, hsrv]
    rwa [hsame, List.append_nil]
  | some srv =>
    have he : taskMarks (reg.dropServer order id).2 =
        (srv.acceptTask :: (order.visit srv.children).filterMap reg.readTask).map
          fun task ↦ (task, .released) := by
      rw [dropServer_effects hsrv, taskMarks_append, List.map_cons, ← taskMarks_aborts]
      cases srv.ipcPath <;> simp [taskMarks, taskMark]
    have hread : ∀ task ∈ (order.visit srv.children).filterMap reg.readTask,
        ∃ c ∈ srv.children, reg.taskOf (.inl c) = some task := by
      intro task ht
      obtain ⟨c, hc, hr⟩ := List.mem_filterMap.mp ht
      exact ⟨c, (order.mem_visit _ _).mp hc, hr⟩
    have haccept := taskOf_server hsrv
    rw [KeepsTasks, taskMarks_append, he]
    refine h.release ?_ ?_ ?_
    · refine List.nodup_cons.mpr ⟨fun ht ↦ ?_, ?_⟩
      · obtain ⟨c, -, hr⟩ := hread _ ht
        cases h.distinct _ _ _ hr haccept
      · refine (order.nodup srv.children).filterMap fun c c' task hc hc' ↦ ?_
        exact Sum.inl.inj (h.distinct (.inl c) (.inl c') task hc hc')
    · intro task ht
      rcases List.mem_cons.mp ht with rfl | ht
      · exact ⟨_, haccept⟩
      · obtain ⟨c, -, hr⟩ := hread _ ht
        exact ⟨_, hr⟩
    · intro k task hk
      have hkept : reg.taskOf k = some task ∧ k ≠ .inr id ∧ ∀ c ∈ srv.children, k ≠ .inl c := by
        cases k with
        | inl k =>
          rw [taskOf, readTask_dropServer hsrv] at hk
          split_ifs at hk with hc
          exact ⟨hk, Sum.inl_ne_inr, fun c hc' he ↦ hc (Sum.inl.inj he ▸ hc')⟩
        | inr sid =>
          rw [taskOf, owned_dropServer hsrv] at hk
          split_ifs at hk with hid
          · cases hk
          · exact ⟨hk, fun he ↦ hid (Sum.inr.inj he), fun _ _ ↦ Sum.inr_ne_inl⟩
      obtain ⟨hk, hid, hc⟩ := hkept
      refine ⟨hk, fun ht ↦ ?_⟩
      rcases List.mem_cons.mp ht with rfl | ht
      · exact hid (h.distinct _ _ _ hk haccept)
      · obtain ⟨c, hmem, hr⟩ := hread _ ht
        exact hc c hmem (h.distinct _ _ _ hk hr)

theorem taskMarks_silent (h : ∀ e ∈ effects, e.Silent) : taskMarks effects = [] := by
  refine List.filterMap_eq_nil_iff.mpr fun e he ↦ ?_
  have hs := h e he
  cases e <;> first | rfl | cases hs

theorem KeepsTasks.change {env : Environment} {input : RegistryInput}
    (h : reg.KeepsTasks log) (ht : Tracked reg) (hfresh : ∀ e ∈ log, e.spawned ≠ some env.spawn)
    (hc : Change env reg input effects reg') : reg'.KeepsTasks (log ++ effects) := by
  have hsay : ∀ {r : Registry} {l : List Effect} {text : String}, r.KeepsTasks l →
      r.KeepsTasks (l ++ [say text]) := fun hk ↦
    hk.unmarked Function.injective_id (fun _ ↦ rfl) (fun _ ↦ rfl) rfl
  cases hc with
  | silent hs =>
    exact h.unmarked Function.injective_id (fun _ ↦ rfl) (fun _ ↦ rfl) (taskMarks_silent hs)
  | bindRefused | connectRefused =>
    exact h.unmarked Function.injective_id (fun _ ↦ rfl) (fun _ ↦ rfl) rfl
  | serverOpened => exact h.openServer hfresh rfl
  | @clientOpened cmd id endpoint peer seq stream =>
    have hseq : ({ reg with nextIpcClientSeq := seq } : Registry).KeepsTasks log := h
    exact hseq.insertStream (s := .spawned id stream (some peer) none env.spawn) hfresh rfl
  | labelled =>
    exact h.unmarked Function.injective_id (fun _ ↦ readTask_replaceLabel) owned_replaceLabel rfl
  | streamDropped =>
    rw [← List.append_assoc]
    exact hsay (h.dropStream _)
  | serverDropped =>
    rw [← List.append_assoc]
    exact hsay (h.dropServer _ _)
  | @accepted _ _ peerInfo stream b reg₁ id ev hb ha =>
    obtain ⟨σ, hσ⟩ := ha.readTask ht
    -- the ids move first, then the new stream is entered
    have hkeyed : reg₁.KeepsTasks (log ++ []) := h.unmarked σ.injective hσ ha.owned rfl
    rw [List.append_nil] at hkeyed
    refine hkeyed.insertStream (s := .spawned id stream (some peerInfo) (some b.server) env.spawn)
      hfresh ?_
    have hrenamed : taskMarks (renamedLine ev) = [] := by
      unfold renamedLine
      split <;> rfl
    rw [register, taskMarks_append, hrenamed]
    rfl

end Registry

/-- In every run each task the registry starts is started once and aborted at most
once, after its start; every registered stream and server has a task that was started
and not aborted, and no two of them the same one. -/
theorem tasks_in_custody {w : World} (hw : Reachable registrySystem w) :
    Kept w.reg.taskOf (taskMarks w.log) := by
  refine registry_invariant (P := Registry.KeepsTasks) (.nil fun k ↦ ?_)
    (fun w env input effects reg' hr h _ hfresh hc ↦ h.change (tracked_of_reachable hr) hfresh hc)
    (fun order reg log id h ↦ h.dropServer order id) (fun reg log id h ↦ h.dropStream id) hw
  cases k <;> rfl

theorem tasks_in_custody_after_close :
    ∃ w, World.initial.play (fun _ _ ↦ true) [.command (.openTcpServer 3000),
        tcpHandoff 3000 10015 7, tcpHandoff 3000 10015 8,
        .event (.closed (.acceptedTcp 3000 10015 none)), .command (.close "3000.10015#2")] =
          some w ∧
      (taskMarks w.log).length = 4 ∧ Kept w.reg.taskOf (taskMarks w.log) := by
  have hrun : ∃ w ∈ World.initial.play (fun _ _ ↦ true) [.command (.openTcpServer 3000),
      tcpHandoff 3000 10015 7, tcpHandoff 3000 10015 8,
      .event (.closed (.acceptedTcp 3000 10015 none)), .command (.close "3000.10015#2")],
      (taskMarks w.log).length = 4 := by decide +kernel
  obtain ⟨w, hw, hl⟩ := hrun
  exact ⟨w, hw, hl, tasks_in_custody (reachable_play hw)⟩

end WireDock
