import WireDock.Library.Simulation
import WireDock.Registry.Switchboard
import WireDock.Registry.Cascade

namespace WireDock

open FiniteMap LabelledSystem

namespace Switchboard

variable {board : Switchboard} {ids ids' : Set ConnectionId}

open Classical in
theorem label_remove (id : ConnectionId) :
    (board.remove ids).label id = if id ∈ ids then none else board.label id := by
  simp only [label, remove]
  split_ifs <;> rfl

open Classical in
theorem labels_remove (name : String) : (board.remove ids).labels name =
    if ∃ id ∈ ids, board.label id = some name then none else board.labels name := rfl

open Classical in
theorem remove_congr (h : ∀ id, board.present id → (id ∈ ids ↔ id ∈ ids')) :
    board.remove ids = board.remove ids' := by
  have hline : ∀ id, (board.lines id).isSome → (id ∈ ids ↔ id ∈ ids') := fun id hid ↦
    h id (by rw [present, hid, Bool.true_or])
  have hstation : ∀ id, (board.stations id).isSome → (id ∈ ids ↔ id ∈ ids') := fun id hid ↦
    h id (by rw [present, hid, Bool.or_true])
  have hlabel : ∀ id name, board.label id = some name → (id ∈ ids ↔ id ∈ ids') := by
    intro id name hid
    unfold label at hid
    cases hl : board.lines id with
    | some line => exact hline id (by rw [hl, Option.isSome_some])
    | none =>
      rw [hl] at hid
      obtain ⟨station, hs, -⟩ := Option.bind_eq_some_iff.mp hid
      exact hstation id (by rw [hs, Option.isSome_some])
  ext1 <;> try rfl
  · funext id
    simp only [remove]
    cases hl : board.lines id with
    | some line => exact if_congr (hline id (by rw [hl, Option.isSome_some])) rfl rfl
    | none => rw [ite_self, ite_self]
  · funext id
    simp only [remove]
    cases hl : board.stations id with
    | some station => exact if_congr (hstation id (by rw [hl, Option.isSome_some])) rfl rfl
    | none => rw [ite_self, ite_self]
  · funext name
    refine if_congr (exists_congr fun id ↦ ?_) rfl rfl
    exact ⟨fun hid ↦ ⟨(hlabel id name hid.2).mp hid.1, hid.2⟩,
      fun hid ↦ ⟨(hlabel id name hid.2).mpr hid.1, hid.2⟩⟩

theorem remove_empty : board.remove ∅ = board := by
  ext1 <;> try rfl
  · exact funext fun id ↦ if_neg (Set.notMem_empty id)
  · exact funext fun id ↦ if_neg (Set.notMem_empty id)
  · exact funext fun name ↦ if_neg fun ⟨id, hid, _⟩ ↦ Set.notMem_empty id hid

open Classical in
theorem remove_remove : (board.remove ids).remove ids' = board.remove (ids ∪ ids') := by
  ext1 <;> try rfl
  · funext id
    by_cases hid : id ∈ ids <;> by_cases hid' : id ∈ ids' <;> simp [remove, hid, hid']
  · funext id
    by_cases hid : id ∈ ids <;> by_cases hid' : id ∈ ids' <;> simp [remove, hid, hid']
  · funext name
    have hlater : (∃ id ∈ ids', (board.remove ids).label id = some name) ↔
        ∃ id ∈ ids', id ∉ ids ∧ board.label id = some name := by
      refine exists_congr fun id ↦ and_congr_right fun _ ↦ ?_
      rw [label_remove]
      split_ifs with hid <;> simp [hid]
    rw [labels_remove, labels_remove, labels_remove, if_congr hlater rfl rfl]
    by_cases hfirst : ∃ id ∈ ids, board.label id = some name
    · have hunion : ∃ id ∈ ids ∪ ids', board.label id = some name :=
        hfirst.imp fun id hid ↦ ⟨Set.mem_union_left _ hid.1, hid.2⟩
      rw [if_pos hfirst, if_pos hunion, ite_self]
    · rw [if_neg hfirst]
      refine if_congr ?_ rfl rfl
      constructor
      · intro h
        obtain ⟨id, hid, -, hn⟩ := h
        exact ⟨id, .inr hid, hn⟩
      · intro h
        obtain ⟨id, hid, hn⟩ := h
        have hnot : id ∉ ids := fun hin ↦ hfirst ⟨id, hin, hn⟩
        exact ⟨id, hid.resolve_left hnot, hnot, hn⟩

end Switchboard

def StreamHandle.line (h : StreamHandle) : Line :=
  ⟨h.stream, h.readTask, h.state.peerInfo, h.state.label⟩

def ServerHandle.station (srv : ServerHandle) : Station := ⟨srv.acceptTask, srv.state.label⟩

theorem ConnectionId.isServer_of_parent? {id sid : ConnectionId} (h : id.parent? = some sid) :
    id.isServer = false := by
  cases id <;> first | rfl | cases h

namespace Registry

def naming (reg : Registry) (name : String) : Option Naming :=
  (reg.labels.lookup name).map fun id ↦ ⟨id, (reg.typed.lookup name).getD id⟩

/-- The switchboard a registry stands for, given how many accepts and attempts
there have been. -/
def view (reg : Registry) (accepts : Base → ℕ) (opens : ℕ) : Switchboard where
  lines id := (reg.streams.lookup id).map StreamHandle.line
  stations id := (reg.servers.lookup id).map ServerHandle.station
  labels := reg.naming
  accepts := accepts
  opens := opens

variable {reg reg' : Registry} {a : Base → ℕ} {n : ℕ} {id : ConnectionId}

section Reading

theorem isSome_lines : ((reg.view a n).lines id).isSome ↔ id ∈ reg.streams := by
  rw [mem_iff_lookup, ← Option.isSome_iff_exists]
  exact Bool.eq_iff_iff.mp Option.isSome_map

theorem isSome_stations : ((reg.view a n).stations id).isSome ↔ id ∈ reg.servers := by
  rw [mem_iff_lookup, ← Option.isSome_iff_exists]
  exact Bool.eq_iff_iff.mp Option.isSome_map

theorem lines_of_lookup {h : StreamHandle} (hs : reg.streams.lookup id = some h) :
    (reg.view a n).lines id = some h.line := by
  simp only [view, hs, Option.map_some]

theorem view_label : (reg.view a n).label id = reg.currentLabel id := by
  unfold Switchboard.label currentLabel
  cases hs : reg.streams.lookup id with
  | some h => simp only [view, hs, Option.map_some, StreamHandle.line]
  | none =>
    simp only [view, hs, Option.map_none]
    cases reg.servers.lookup id <;> rfl

theorem view_present : (reg.view a n).present id = decide (id ∈ reg.streams ∨ id ∈ reg.servers) := by
  rw [Bool.eq_iff_iff, Switchboard.present, Bool.or_eq_true, isSome_lines, isSome_stations,
    decide_eq_true_iff]

theorem view_keyOf (id : ConnectionId) : (reg.view a n).keyOf id = reg.keyOf id := by
  have hp : ∀ k, (reg.view a n).present k = true ↔ k ∈ reg.registered := fun k ↦ by
    rw [view_present, decide_eq_true_iff, mem_registered]
  have hone : ∀ k, single? (reg.registered.filter (·.Same id)) = some k ↔
      ((reg.view a n).present k ∧ k.Same id) ∧
        ∀ k', (reg.view a n).present k' ∧ k'.Same id → k' = k := by
    intro k
    simp only [hp, single?_eq_some, Finset.eq_singleton_iff_unique_mem, Finset.mem_filter]
  unfold Switchboard.keyOf keyOf
  rw [if_congr (hp id) rfl rfl]
  split_ifs with hid h
  · rfl
  · rw [(hone h.choose).mpr h.choose_spec, Option.getD_some]
  · cases hs : single? (reg.registered.filter (·.Same id)) with
    | none => rfl
    | some k => exact (h ⟨k, (hone k).mp hs⟩).elim

theorem view_find (token : String) : (reg.view a n).find token =
    (reg.resolveId token defaultTokenParser).map fun typed ↦ ⟨reg.entryOf token typed, typed⟩ := by
  have hl : (reg.view a n).labels token = reg.naming token := rfl
  cases hlabel : reg.labels.lookup token with
  | some id =>
    simp only [Switchboard.find, resolveId, entryOf, hl, naming, hlabel, Option.map_some,
      Option.getD_some, view_keyOf]
    rfl
  | none =>
    simp only [Switchboard.find, resolveId, entryOf, hl, naming, hlabel, Option.map_none,
      Option.getD_none, view_keyOf, view_present]
    cases (defaultTokenParser token).find? fun id ↦
      decide (reg.keyOf id ∈ reg.streams ∨ reg.keyOf id ∈ reg.servers) <;> rfl

theorem view_name (hw : WellFormed reg) : (reg.view a n).name id = reg.displayName id := by
  rw [Switchboard.name, view_label, currentLabel, displayName]
  cases hs : reg.streams.lookup id with
  | some h =>
    have hv : reg.servers.lookup id = none :=
      not_mem_iff_lookup.mp (hw.stream_not_server (mem_of_lookup hs))
    simp only [Option.bind_some, hv, Option.bind_none]
    cases h.state.label <;> rfl
  | none =>
    cases hv : reg.servers.lookup id with
    | none => rfl
    | some srv =>
      simp only [Option.bind_some, Option.bind_none]
      cases srv.state.label <;> rfl

theorem currentLabel_of_stream (hid : id ∈ reg.streams) :
    reg.currentLabel id = reg.streamLabel id := by
  rw [currentLabel_eq, if_pos hid]

theorem currentLabel_of_server {srv : ServerHandle} (hw : WellFormed reg)
    (hsrv : reg.servers.lookup id = some srv) : reg.currentLabel id = srv.state.label := by
  have hs : id ∉ reg.streams := fun hs ↦ hw.stream_not_server hs (mem_of_lookup hsrv)
  rw [currentLabel_eq, if_neg hs, serverLabel, hsrv, Option.bind_some]

theorem view_hangUp (ids : List ConnectionId) : (reg.view a n).hangUp ids = reg.aborts ids := by
  refine List.filterMap_congr fun id _ ↦ ?_
  rw [view, Option.map_map]
  rfl

end Reading

section Operations

theorem naming_of_labels {name : String} {free : Prop} [Decidable free]
    (htyped : reg'.typed = reg.typed)
    (hlabels : reg'.labels.lookup name = if free then none else reg.labels.lookup name) :
    reg'.naming name = if free then none else reg.naming name := by
  simp only [naming, htyped, hlabels]
  split_ifs <;> rfl

theorem view_openServer {task : JoinHandle} {path : Option PathBuf} :
    ({ reg with servers := reg.servers.insert id (.opened id task path) } : Registry).view
      (fun b ↦ if b.server = id then 0 else a b) n = (reg.view a n).install id task := by
  ext1 <;> try rfl
  funext k
  simp only [view, Switchboard.install, lookup_insert, Function.update_apply]
  split_ifs <;> rfl

theorem view_setServer {srv srv' : ServerHandle} (hid : reg.servers.lookup id = some srv)
    (ht : srv'.acceptTask = srv.acceptTask) (hs : srv'.state = srv.state) :
    ({ reg with servers := reg.servers.insert id srv' } : Registry).view a n = reg.view a n := by
  ext1 <;> try rfl
  funext k
  simp only [view, lookup_insert]
  split_ifs with hk
  · rw [hk, hid, Option.map_some, Option.map_some, ServerHandle.station, ht, hs]
    rfl
  · rfl

theorem view_insertStream (h : StreamHandle) :
    (reg.insertStream h).view a n = (reg.view a n).connect h.state.id h.line := by
  ext1 <;> try rfl
  · funext k
    simp only [view, Switchboard.connect, insertStream, lookup_insert, Function.update_apply]
    split_ifs <;> rfl
  · funext k
    simp only [view, Switchboard.connect, lookup_servers_insertStream, Option.map_map]
    refine congrArg (fun f ↦ (reg.servers.lookup k).map f) (funext fun srv ↦ ?_)
    rw [Function.comp_apply]
    split_ifs <;> rfl

/-- Dropping a stream takes one entry out; dropping an id that is no entry, none. -/
theorem view_dropStream (hid : id ∉ reg.servers) :
    (reg.dropStream id).1.view a n = (reg.view a n).remove {id} := by
  ext1 <;> try rfl
  · funext k
    simp only [view, Switchboard.remove, dropStream_streams, lookup_erase, Set.mem_singleton_iff]
    split_ifs <;> rfl
  · funext k
    simp only [view, Switchboard.remove, lookup_servers_dropStream, Option.map_map,
      Set.mem_singleton_iff]
    by_cases hk : k = id
    · rw [if_pos hk, hk, not_mem_iff_lookup.mp hid, Option.map_none]
    · rw [if_neg hk]
      refine congrArg (fun f ↦ (reg.servers.lookup k).map f) (funext fun srv ↦ ?_)
      rw [Function.comp_apply]
      split_ifs <;> rfl
  · funext name
    simp only [Switchboard.remove, Set.mem_singleton_iff, exists_eq_left]
    rw [view_label]
    change (reg.dropStream id).1.naming name = if _ then _ else reg.naming name
    rw [naming_of_labels typed_dropStream (lookup_labels_dropStream reg id name)]
    by_cases hs : id ∈ reg.streams
    · rw [currentLabel_of_stream hs]
    · have hstream : reg.streamLabel id = none := by
        rw [streamLabel, not_mem_iff_lookup.mp hs, Option.bind_none]
      have hlabel : reg.currentLabel id = none := by
        rw [currentLabel_eq, if_neg hs, serverLabel, not_mem_iff_lookup.mp hid, Option.bind_none]
      rw [hstream, hlabel]

theorem groupHolds_iff_label (hw : WellFormed reg) {srv : ServerHandle}
    (hsrv : reg.servers.lookup id = some srv) {name : String} :
    reg.GroupHolds id srv name ↔
      ∃ k ∈ Switchboard.group id, (reg.view a n).label k = some name := by
  constructor
  · rintro (hl | ⟨k, hp, hl⟩)
    · exact ⟨id, .inl rfl, by rw [view_label, currentLabel_of_server hw hsrv, hl]⟩
    · obtain ⟨s, hs, -⟩ := Option.bind_eq_some_iff.mp hl
      have hk := mem_of_lookup hs
      rw [hw.parentOf_eq hk] at hp
      exact ⟨k, .inr hp, by rw [view_label, currentLabel_of_stream hk, hl]⟩
  · rintro ⟨k, rfl | hp, hl⟩
    · rw [view_label, currentLabel_of_server hw hsrv] at hl
      exact .inl hl
    · rw [view_label] at hl
      have hk : k ∈ reg.streams := by
        by_contra hk
        rw [currentLabel_eq, if_neg hk] at hl
        obtain ⟨srv', hsrv', -⟩ := Option.bind_eq_some_iff.mp hl
        cases (ConnectionId.isServer_of_parent? hp).symm.trans
          (hw.isServer_of_mem (mem_of_lookup hsrv'))
      rw [currentLabel_of_stream hk] at hl
      exact .inr ⟨k, by rw [hw.parentOf_eq hk, hp], hl⟩

theorem view_dropServer (hw : WellFormed reg) {srv : ServerHandle}
    (hsrv : reg.servers.lookup id = some srv) (order : IterationOrder ConnectionId) :
    (reg.dropServer order id).1.view a n = (reg.view a n).remove (Switchboard.group id) := by
  have hc := cascades_dropServer hw hsrv order
  have hstream : ∀ k ∈ reg.streams, (k ∈ Switchboard.group id ↔ reg.parentOf k = some id) := by
    intro k hk
    rw [hw.parentOf_eq hk]
    refine ⟨fun h ↦ h.resolve_left ?_, .inr⟩
    rintro rfl
    exact hw.stream_not_server hk (mem_of_lookup hsrv)
  ext1 <;> try rfl
  · funext k
    simp only [view, Switchboard.remove, hc.streams]
    by_cases hk : k ∈ reg.streams
    · by_cases hg : k ∈ Switchboard.group id
      · rw [if_pos hg, if_pos ((hstream k hk).mp hg), Option.map_none]
      · rw [if_neg hg, if_neg fun hp ↦ hg ((hstream k hk).mpr hp)]
    · rw [not_mem_iff_lookup.mp hk]
      split_ifs <;> rfl
  · funext k
    simp only [view, Switchboard.remove, hc.servers]
    by_cases hk : k ∈ reg.servers
    · have hg : k ∈ Switchboard.group id ↔ k = id := by
        refine ⟨fun h ↦ h.resolve_right fun hp ↦ ?_, .inl⟩
        cases (ConnectionId.isServer_of_parent? hp).symm.trans (hw.isServer_of_mem hk)
      by_cases he : k = id
      · rw [if_pos he, if_pos (hg.mpr he), Option.map_none]
      · rw [if_neg he, if_neg fun h ↦ he (hg.mp h)]
    · rw [not_mem_iff_lookup.mp hk]
      split_ifs <;> rfl
  · funext name
    simp only [Switchboard.remove]
    by_cases hheld : reg.GroupHolds id srv name
    · rw [if_pos ((groupHolds_iff_label hw hsrv).mp hheld)]
      simp only [view, naming, hc.freed name hheld, Option.map_none]
    · rw [if_neg fun h ↦ hheld ((groupHolds_iff_label hw hsrv).mpr h)]
      simp only [view, naming, hc.kept name hheld, hc.typed]

theorem view_dropStreams {ids : List ConnectionId} (h : ∀ k ∈ ids, k ∉ reg.servers) :
    (reg.dropStreams ids).1.view a n = (reg.view a n).remove {k | k ∈ ids} := by
  induction ids generalizing reg with
  | nil =>
    exact Switchboard.remove_empty.symm.trans (Switchboard.remove_congr fun k _ ↦ by simp)
  | cons c ids ih =>
    obtain ⟨hc, hids⟩ := List.forall_mem_cons.mp h
    rw [dropStreams, ih fun k hk ↦ mt mem_servers_dropStream.mp (hids k hk), view_dropStream hc,
      Switchboard.remove_remove]
    exact Switchboard.remove_congr fun k _ ↦ by simp

theorem lookup_server_dropServer (hw : WellFormed reg) {order : IterationOrder ConnectionId}
    {sid : ConnectionId} (hid : id ∈ reg.servers) (hne : sid ≠ id) :
    (reg.dropServer order id).1.servers.lookup sid = reg.servers.lookup sid := by
  obtain ⟨srv, hsrv⟩ := mem_iff_lookup.mp hid
  rw [(cascades_dropServer hw hsrv order).servers, if_neg hne]

theorem view_dropServers (hw : WellFormed reg) (order : IterationOrder ConnectionId)
    {ids : List ConnectionId} (hnd : ids.Nodup) (hids : ∀ k ∈ ids, k ∈ reg.servers) :
    (reg.dropServers order ids).1.view a n =
      (reg.view a n).remove {k | ∃ sid ∈ ids, k ∈ Switchboard.group sid} := by
  induction ids generalizing reg with
  | nil =>
    exact Switchboard.remove_empty.symm.trans (Switchboard.remove_congr fun k _ ↦ by simp)
  | cons sid ids ih =>
    obtain ⟨hsid, hnd⟩ := List.nodup_cons.mp hnd
    obtain ⟨hin, hids⟩ := List.forall_mem_cons.mp hids
    obtain ⟨srv, hsrv⟩ := mem_iff_lookup.mp hin
    have hkept : ∀ k ∈ ids, k ∈ (reg.dropServer order sid).1.servers := by
      intro k hk
      have hne : k ≠ sid := fun he ↦ hsid (he ▸ hk)
      rw [mem_iff_lookup, lookup_server_dropServer hw hin hne]
      exact mem_iff_lookup.mp (hids k hk)
    rw [dropServers, ih (hw.dropServer order sid) hnd hkept, view_dropServer hw hsrv order,
      Switchboard.remove_remove]
    exact Switchboard.remove_congr fun k _ ↦ by simp

theorem view_replaceLabel (hw : WellFormed reg) {typed : ConnectionId} {name : String}
    (hok : (reg.replaceLabel id typed name).2 = .ok ()) :
    (reg.replaceLabel id typed name).1.view a n = (reg.view a n).rename id typed name := by
  ext1
  · funext k
    simp only [view, Switchboard.rename, lookup_streams_replaceLabel, Option.map_map]
    refine congrArg (fun f ↦ (reg.streams.lookup k).map f) (funext fun s ↦ ?_)
    simp only [Function.comp_apply]
    split_ifs <;> rfl
  · funext k
    simp only [view, Switchboard.rename, lookup_servers_replaceLabel, Option.map_map]
    cases hk : reg.servers.lookup k with
    | none => rfl
    | some srv =>
      have hs : k = id → id ∉ reg.streams := by
        rintro rfl hs
        exact hw.stream_not_server hs (mem_of_lookup hk)
      simp only [Option.map_some, Function.comp_apply]
      by_cases he : k = id
      · rw [if_pos ⟨he, hs he⟩, if_pos he]
        rfl
      · rw [if_neg fun h ↦ he h.1, if_neg he]
  · funext m
    simp only [Switchboard.rename]
    rw [view_label]
    simp only [view, naming, lookup_labels_replaceLabel hok, lookup_typed_replaceLabel hok]
    split_ifs <;> rfl
  · unfold replaceLabel
    cases reg.streams.lookup id with
    | some s => rfl
    | none => cases reg.servers.lookup id <;> rfl
  · rfl

theorem view_move (old new : ConnectionId) (hlabels : reg'.naming = reg.naming)
    (hstreams : reg'.streams = (reg.renameAcceptedTcp old new).streams)
    (hservers : ∀ k, (reg'.servers.lookup k).map ServerHandle.station =
      (reg.servers.lookup k).map ServerHandle.station) :
    reg'.view a n = (reg.view a n).move old new := by
  unfold Switchboard.move
  cases hs : reg.streams.lookup old with
  | none =>
    have hnone : (reg.view a n).lines old = none := by simp only [view, hs, Option.map_none]
    rw [hnone]
    simp only [renameAcceptedTcp, hs] at hstreams
    simp only [view, hstreams, hlabels, funext hservers]
  | some s =>
    rw [lines_of_lookup hs]
    simp only [view, hlabels, funext hservers, Switchboard.mk.injEq, and_true]
    refine funext fun k ↦ ?_
    rw [hstreams, lookup_streams_rename, hs]
    simp only [Function.update_apply]
    split_ifs <;> rfl

end Operations

end Registry

end WireDock
