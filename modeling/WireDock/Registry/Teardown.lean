import WireDock.Registry.Ledger

namespace WireDock

open FiniteMap LabelledSystem

def LabelsHeld (reg : Registry) : Prop :=
  ∀ name ∈ reg.labels, ∃ id, reg.currentLabel id = some name

namespace LabelsHeld

variable {reg reg' : Registry}

theorem dropStream (h : LabelsHeld reg) (id : ConnectionId) : LabelsHeld (reg.dropStream id).1 := by
  intro name hn
  obtain ⟨k, hk⟩ := mem_iff_lookup.mp hn
  rw [Registry.lookup_labels_dropStream] at hk
  split_ifs at hk with hl
  obtain ⟨holder, hcur⟩ := h name (mem_of_lookup hk)
  exact ⟨holder, Registry.label_kept_dropStream hcur hl⟩

theorem dropServer (h : LabelsHeld reg) (hw : WellFormed reg)
    (order : IterationOrder ConnectionId) (id : ConnectionId) :
    LabelsHeld (reg.dropServer order id).1 := by
  cases hid : reg.servers.lookup id with
  | none => rwa [show (reg.dropServer order id).1 = reg by simp only [Registry.dropServer, hid]]
  | some srv =>
    intro name hn
    obtain ⟨k, hk⟩ := mem_iff_lookup.mp hn
    rw [Registry.lookup_labels_dropServer hid] at hk
    split_ifs at hk with hl
    obtain ⟨holder, hcur⟩ := h name (mem_of_lookup hk)
    exact ⟨holder, Registry.label_kept_dropServer hw hid hcur hl⟩

theorem replaceLabel (h : LabelsHeld reg) {id typed : ConnectionId} {name : String}
    (hok : (reg.applyLabel id typed name).2 = .ok ()) :
    LabelsHeld (reg.replaceLabel id typed name).1 := by
  rw [(Registry.applyLabel_ok hok).2] at hok
  intro n hn
  obtain ⟨k, hk⟩ := mem_iff_lookup.mp hn
  rw [Registry.lookup_labels_replaceLabel hok] at hk
  split_ifs at hk with he hc
  · subst he
    exact ⟨id, Registry.currentLabel_replaceLabel_self hok⟩
  · obtain ⟨holder, hcur⟩ := h n (mem_of_lookup hk)
    have hne : holder ≠ id := fun he ↦ hc (he ▸ hcur)
    exact ⟨holder, by rw [Registry.currentLabel_replaceLabel hne, hcur]⟩

theorem insertStream (h : LabelsHeld reg) {s : StreamHandle}
    (hs : reg.currentLabel s.state.id = none) : LabelsHeld (reg.insertStream s) := by
  intro name hn
  obtain ⟨k, hcur⟩ := h name hn
  have hne : k ≠ s.state.id := by
    rintro rfl
    cases hs.symm.trans hcur
  exact ⟨k, by rw [Registry.currentLabel_insertStream hne, hcur]⟩

theorem allocated (h : LabelsHeld reg) (hw : WellFormed reg) (ht : Tracked reg) {b : Base}
    {id : ConnectionId} {ev : Option NetEvent} (ha : reg.Allocated b reg' id ev) :
    LabelsHeld reg' := by
  have hlabels : reg'.labels = reg.labels := by cases ha <;> first | rfl | assumption
  intro name hn
  obtain ⟨k, hcur⟩ := h name (hlabels ▸ hn)
  have hkept := ha.currentLabel (k := k) ht
  cases ha with
  | first hsrv | next hsrv =>
    refine ⟨k, Eq.trans (Registry.currentLabel_setServer hsrv ?_) hcur⟩
    rfl
  | @second srv old _ hsrv hold hstreams =>
    cases ht.lookup_base hsrv hold
    by_cases hk : k = b.accepted none
    · subst hk
      have hlive : b.accepted none ∈ reg.streams := by
        by_contra hs
        cases (Registry.currentLabel_of_not_live hw (b.isServer_accepted _) hs).symm.trans hcur
      obtain ⟨s, hs⟩ := mem_iff_lookup.mp hlive
      refine ⟨b.accepted (some 1), ?_⟩
      simp only [Registry.currentLabel, hs] at hcur
      simp only [Registry.currentLabel, hstreams, Registry.lookup_streams_rename, hs, if_true, hcur]
    · refine ⟨k, (hkept hk fun _ he ↦ ?_).trans hcur⟩
      subst he
      have hone := Registry.not_live_of_unsuffixed (m := 1) ht hsrv hold
      cases (Registry.currentLabel_of_not_live hw (b.isServer_accepted _) hone).symm.trans hcur

end LabelsHeld

theorem labelsHeld_of_reachable {w : World}
    (hw : ReachableBy registrySystem DisplacesNone w) : LabelsHeld w.reg := by
  refine consistent_invariant (P := fun reg _ ↦ LabelsHeld reg)
    (fun _ h ↦ (Finmap.notMem_empty h).elim) ?_
    (fun order _ _ id hwf _ h ↦ h.dropServer hwf order id)
    (fun _ _ id _ _ h ↦ h.dropStream id) hw
  intro w env input effects reg' _ hwf ht h hok hc
  cases hc with
  | silent => exact h
  | bindRefused => exact h
  | serverOpened ho hid =>
    intro name hn
    obtain ⟨k, hcur⟩ := h name hn
    exact ⟨k, Registry.label_kept_openServer (Registry.not_server_of_keyOf hid)
      (Registry.opensServer_not_live hwf ho) hcur⟩
  | connectRefused => exact h
  | @clientOpened cmd id endpoint peer seq stream text ho hfree hconn =>
    have hid : id.isServer = false ∧ id ∉ w.reg.streams := by
      cases cmd <;> cases ho
      · exact ⟨rfl, hfree.resolve_right nofun⟩
      · exact ⟨rfl, hok.2 _ rfl (by rw [hconn]; rfl)⟩
    have hlabel := Registry.currentLabel_of_not_live hwf hid.1 hid.2
    have hseq : LabelsHeld { w.reg with nextIpcClientSeq := seq } := h
    exact hseq.insertStream hlabel
  | labelled _ happly => exact h.replaceLabel happly
  | streamDropped => exact h.dropStream _
  | serverDropped => exact h.dropServer hwf _ _
  | accepted hb ha =>
    obtain ⟨d, rfl⟩ := ha.id_eq
    refine (h.allocated hwf ht ha).insertStream ?_
    exact Registry.currentLabel_of_not_live (ha.wellFormed hwf ht) (Base.isServer_accepted _ d)
      (ha.id_free ht (hok.1 _ hb))

namespace Registry

variable {reg : Registry} {k : ConnectionId}

theorem mem_servers_dropServers {order : IterationOrder ConnectionId} {ids : List ConnectionId}
    (h : k ∈ (reg.dropServers order ids).1.servers) : k ∈ reg.servers ∧ k ∉ ids := by
  induction ids generalizing reg with
  | nil => exact ⟨h, List.not_mem_nil⟩
  | cons id ids ih =>
    obtain ⟨hk, hids⟩ := ih h
    obtain ⟨hk, hne⟩ := mem_servers_dropServer hk
    exact ⟨hk, fun hm ↦ (List.mem_cons.mp hm).elim hne hids⟩

theorem shutdown_empty (order : IterationOrder ConnectionId) (reg : Registry) :
    (reg.shutdown order).1.servers = ∅ ∧ (reg.shutdown order).1.streams = ∅ := by
  have hservers : ∀ k, k ∉ (reg.dropServers order (order.visit reg.servers.keys)).1.servers := by
    intro k hk
    obtain ⟨hk, hids⟩ := mem_servers_dropServers hk
    exact hids ((order.mem_visit _ k).mpr (Finmap.mem_keys.mpr hk))
  constructor <;> refine Finmap.ext_lookup fun k ↦ ?_ <;> rw [Finmap.lookup_empty, shutdown]
  · rw [lookup_servers_dropStreams, not_mem_iff_lookup.mp (hservers k), Option.map_none]
  · rw [lookup_streams_dropStreams]
    split_ifs with hk
    · rfl
    · rw [order.mem_visit, Finmap.mem_keys] at hk
      exact not_mem_iff_lookup.mp hk

end Registry

theorem phase_handle {w : World} {env : Environment} {input : RegistryInput}
    (h : (w.handle env input).phase = .stopped) :
    (w.handle env input).reg = (w.reg.shutdown env.order).1 := by
  cases input with
  | shutdown => rfl
  | command cmd => cases h
  | event ev => cases h
  | accepted parent child peerInfo stream =>
    unfold World.handle Registry.handleInput at h
    cases ha : w.reg.handleAccepted env parent child peerInfo stream <;> simp [ha] at h

theorem stopped_empty {ok : World → Environment × RegistryInput → Prop} {w : World}
    (hw : ReachableBy registrySystem ok w) (h : w.phase = .stopped) :
    w.reg.servers = ∅ ∧ w.reg.streams = ∅ := by
  cases hw with
  | init hi =>
    cases hi
    cases h
  | step _ _ hstep =>
    obtain ⟨-, -, rfl⟩ := hstep
    rw [phase_handle h]
    exact Registry.shutdown_empty _ _

theorem LabelsHeld.empty {reg : Registry} (h : LabelsHeld reg) (hv : reg.servers = ∅)
    (hs : reg.streams = ∅) : reg.labels = ∅ := by
  refine Finmap.ext_lookup fun name ↦ ?_
  rw [Finmap.lookup_empty, ← not_mem_iff_lookup]
  intro hn
  obtain ⟨id, hid⟩ := h name hn
  simp only [Registry.currentLabel, hv, hs, Finmap.lookup_empty] at hid
  cases hid

end WireDock
