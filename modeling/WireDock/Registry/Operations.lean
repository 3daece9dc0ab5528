import WireDock.Repl.Runtime

namespace WireDock.Registry

open FiniteMap

def parentOf (reg : Registry) (id : ConnectionId) : Option ConnectionId :=
  (reg.streams.lookup id).bind (·.parent)

def streamLabel (reg : Registry) (id : ConnectionId) : Option String :=
  (reg.streams.lookup id).bind (·.state.label)

def serverLabel (reg : Registry) (id : ConnectionId) : Option String :=
  (reg.servers.lookup id).bind (·.state.label)

theorem currentLabel_eq (reg : Registry) (id : ConnectionId) :
    reg.currentLabel id = if id ∈ reg.streams then reg.streamLabel id else reg.serverLabel id := by
  unfold currentLabel streamLabel serverLabel
  cases hs : reg.streams.lookup id with
  | some h => rw [if_pos (mem_of_lookup hs)]; rfl
  | none =>
    rw [if_neg (not_mem_iff_lookup.mpr hs)]
    cases reg.servers.lookup id <;> rfl

section Keys

variable {reg reg' : Registry} {id : ConnectionId} {token : String}

theorem mem_registered : id ∈ reg.registered ↔ id ∈ reg.streams ∨ id ∈ reg.servers := by
  rw [registered, Finset.mem_union, Finmap.mem_keys, Finmap.mem_keys]

theorem keyOf_of_mem (h : id ∈ reg.registered) : reg.keyOf id = id := if_pos h

theorem keyOf_same (reg : Registry) (id : ConnectionId) : (reg.keyOf id).Same id := by
  unfold keyOf
  split_ifs
  · rfl
  · cases h : single? (reg.registered.filter (·.Same id)) with
    | none => rfl
    | some k =>
      have hk : k ∈ reg.registered.filter (·.Same id) := by
        rw [single?_eq_some.mp h]
        exact Finset.mem_singleton_self k
      exact (Finset.mem_filter.mp hk).2

theorem keyOf_tcpServer (port : UInt16) : reg.keyOf (.tcpServer port) = .tcpServer port := by
  have hsame := reg.keyOf_same (.tcpServer port)
  generalize reg.keyOf (.tcpServer port) = k at hsame
  cases k <;> cases hsame
  rfl

theorem keyOf_congr (h : reg'.registered = reg.registered) (id : ConnectionId) :
    reg'.keyOf id = reg.keyOf id := by
  simp only [keyOf, h]

theorem not_server_of_keyOf (h : reg.keyOf id ∉ reg.servers) : id ∉ reg.servers := by
  intro hid
  rw [keyOf_of_mem (mem_registered.mpr (.inr hid))] at h
  exact h hid

/-- The entry that a token stands for. -/
def target (reg : Registry) (token : String) : Except DomainError ConnectionId :=
  (reg.resolveId token defaultTokenParser).map (reg.entryOf token)

theorem target_of_resolved (h : reg.resolveId token defaultTokenParser = .ok id) :
    reg.target token = .ok (reg.entryOf token id) := by
  rw [target, h]
  rfl

theorem target_of_label (h : reg.labels.lookup token = some id) :
    reg.target token = .ok (reg.keyOf id) := by
  have hr : reg.resolveId token defaultTokenParser = .ok ((reg.typed.lookup token).getD id) := by
    simp only [resolveId, h]
  rw [target_of_resolved hr, entryOf, h, Option.getD_some]

/-- A token that is no label stands for a registered entry. -/
theorem mem_of_target (hl : reg.labels.lookup token = none) (h : reg.target token = .ok id) :
    id ∈ reg.registered := by
  cases hr : reg.resolveId token defaultTokenParser with
  | error e =>
    rw [target, hr] at h
    cases h
  | ok k =>
    rw [target_of_resolved hr, entryOf, hl, Option.getD_none] at h
    cases h
    simp only [resolveId, hl] at hr
    split at hr
    · rename_i hk
      cases hr
      have hk := List.find?_some hk
      exact mem_registered.mpr (of_decide_eq_true hk)
    · cases hr

end Keys

theorem lookup_freeLabel (labels : HashMap String ConnectionId) (label : Option String)
    (name : String) :
    (freeLabel labels label).lookup name =
      if label = some name then none else labels.lookup name := by
  cases label with
  | none => simp [freeLabel]
  | some l => simp only [freeLabel, lookup_erase, Option.some.injEq, eq_comm]

theorem lookup_updateParent (servers : HashMap ConnectionId ServerHandle)
    (parent : Option ConnectionId) (f : ServerHandle → ServerHandle) (sid : ConnectionId) :
    (updateParent servers parent f).lookup sid =
      (servers.lookup sid).map fun srv ↦ if parent = some sid then f srv else srv := by
  cases parent with
  | none => simp [updateParent]
  | some parent =>
    simp only [updateParent, lookup_modify, Option.some.injEq]
    by_cases hs : sid = parent
    · subst hs
      simp
    · simp [hs, Ne.symm hs]

theorem lookup_servers_insertStream (reg : Registry) (h : StreamHandle) (sid : ConnectionId) :
    (reg.insertStream h).servers.lookup sid = (reg.servers.lookup sid).map fun srv ↦
      if h.parent = some sid then { srv with children := insert h.state.id srv.children }
      else srv :=
  lookup_updateParent _ _ _ _

section Drop

variable (reg : Registry)

theorem dropStream_streams (id : ConnectionId) :
    (reg.dropStream id).1.streams = reg.streams.erase id := by
  unfold dropStream
  cases h : reg.streams.lookup id with
  | none => exact (erase_of_not_mem (not_mem_iff_lookup.mpr h)).symm
  | some h => rfl

theorem lookup_servers_dropStream (id sid : ConnectionId) :
    (reg.dropStream id).1.servers.lookup sid = (reg.servers.lookup sid).map fun srv ↦
      if reg.parentOf id = some sid then { srv with children := srv.children.erase id }
      else srv := by
  unfold dropStream parentOf
  cases reg.streams.lookup id with
  | none => simp
  | some h => exact lookup_updateParent _ _ _ _

theorem lookup_labels_dropStream (id : ConnectionId) (name : String) :
    (reg.dropStream id).1.labels.lookup name =
      if reg.streamLabel id = some name then none else reg.labels.lookup name := by
  unfold dropStream streamLabel
  cases reg.streams.lookup id with
  | none => simp
  | some h => exact lookup_freeLabel _ _ _

theorem dropStream_effects (id : ConnectionId) :
    (reg.dropStream id).2 =
      ((reg.streams.lookup id).map fun h ↦ Effect.abort h.readTask).toList := by
  unfold dropStream
  cases reg.streams.lookup id <;> rfl

theorem abort_of_mem_dropStream {reg : Registry} {id : ConnectionId} {e : Effect}
    (h : e ∈ (reg.dropStream id).2) : ∃ task, e = .abort task := by
  rw [dropStream_effects, Option.mem_toList, Option.map_eq_some_iff] at h
  obtain ⟨s, -, rfl⟩ := h
  exact ⟨_, rfl⟩

theorem parentOf_dropStream (id k : ConnectionId) :
    (reg.dropStream id).1.parentOf k = if k = id then none else reg.parentOf k := by
  unfold parentOf
  rw [dropStream_streams, lookup_erase]
  split_ifs <;> rfl

theorem streamLabel_dropStream (id k : ConnectionId) :
    (reg.dropStream id).1.streamLabel k = if k = id then none else reg.streamLabel k := by
  unfold streamLabel
  rw [dropStream_streams, lookup_erase]
  split_ifs <;> rfl

/-! Dropping a list of streams, by induction on the list. -/

theorem lookup_streams_dropStreams (ids : List ConnectionId) (k : ConnectionId) :
    (reg.dropStreams ids).1.streams.lookup k =
      if k ∈ ids then none else reg.streams.lookup k := by
  induction ids generalizing reg with
  | nil => simp [dropStreams]
  | cons c ids ih =>
    simp only [dropStreams, ih, dropStream_streams, lookup_erase, List.mem_cons]
    by_cases hk : k = c <;> simp [hk]

theorem lookup_servers_dropStreams (ids : List ConnectionId) (sid : ConnectionId) :
    (reg.dropStreams ids).1.servers.lookup sid = (reg.servers.lookup sid).map fun srv ↦
      { srv with
        children := srv.children.filter fun k ↦ ¬(k ∈ ids ∧ reg.parentOf k = some sid) } := by
  induction ids generalizing reg with
  | nil => simp [dropStreams]
  | cons c ids ih =>
    simp only [dropStreams, ih, lookup_servers_dropStream, Option.map_map]
    refine congrArg (fun f ↦ (reg.servers.lookup sid).map f) (funext fun srv ↦ ?_)
    simp only [Function.comp_apply, parentOf_dropStream]
    by_cases hp : reg.parentOf c = some sid
    · simp only [hp, if_true]
      congr 1
      ext k
      by_cases hk : k = c <;> simp [hk, hp]
    · simp only [hp, if_false]
      congr 1
      ext k
      by_cases hk : k = c <;> simp [hk, hp]

theorem lookup_labels_dropStreams (ids : List ConnectionId) (name : String) :
    (reg.dropStreams ids).1.labels.lookup name =
      if ∃ k ∈ ids, reg.streamLabel k = some name then none else reg.labels.lookup name := by
  induction ids generalizing reg with
  | nil => simp [dropStreams]
  | cons c ids ih =>
    simp only [dropStreams, ih, lookup_labels_dropStream, streamLabel_dropStream]
    by_cases hc : reg.streamLabel c = some name
    · simp [hc]
    · have he : (∃ k ∈ ids, (if k = c then none else reg.streamLabel k) = some name) ↔
          ∃ k ∈ c :: ids, reg.streamLabel k = some name := by
        constructor
        · rintro ⟨k, hk, hn⟩
          split_ifs at hn
          exact ⟨k, List.mem_cons_of_mem _ hk, hn⟩
        · rintro ⟨k, hk, hn⟩
          have hne : k ≠ c := fun he ↦ hc (he ▸ hn)
          exact ⟨k, (List.mem_cons.mp hk).resolve_left hne, by rw [if_neg hne, hn]⟩
      simp only [he, if_neg hc]

theorem mem_effects_dropStreams {ids : List ConnectionId} {e : Effect} :
    e ∈ (reg.dropStreams ids).2 ↔
      ∃ k ∈ ids, ∃ h, reg.streams.lookup k = some h ∧ e = .abort h.readTask := by
  induction ids generalizing reg with
  | nil => simp [dropStreams]
  | cons c ids ih =>
    simp only [dropStreams, List.mem_append, ih, dropStream_effects, dropStream_streams,
      lookup_erase, Option.mem_toList, Option.map_eq_some_iff, List.mem_cons]
    constructor
    · rintro (⟨h, hc, rfl⟩ | ⟨k, hk, h, hl, rfl⟩)
      · exact ⟨c, .inl rfl, h, hc, rfl⟩
      · split_ifs at hl
        exact ⟨k, .inr hk, h, hl, rfl⟩
    · rintro ⟨k, hk, h, hl, rfl⟩
      by_cases hkc : k = c
      · exact .inl ⟨h, hkc ▸ hl, rfl⟩
      · exact .inr ⟨k, hk.resolve_left hkc, h, by rw [if_neg hkc, hl], rfl⟩

end Drop

section DropServer

variable {order : IterationOrder ConnectionId} {reg : Registry} {id : ConnectionId}
  {srv : ServerHandle}

theorem lookup_streams_dropServer (h : reg.servers.lookup id = some srv) (k : ConnectionId) :
    (reg.dropServer order id).1.streams.lookup k =
      if k ∈ srv.children then none else reg.streams.lookup k := by
  unfold dropServer
  simp only [h, lookup_streams_dropStreams, order.mem_visit]

theorem lookup_servers_dropServer (h : reg.servers.lookup id = some srv) (sid : ConnectionId) :
    (reg.dropServer order id).1.servers.lookup sid =
      if sid = id then none else (reg.servers.lookup sid).map fun s ↦
        { s with
          children := s.children.filter fun k ↦
            ¬(k ∈ srv.children ∧ reg.parentOf k = some sid) } := by
  unfold dropServer
  simp only [h, lookup_servers_dropStreams, lookup_erase, order.mem_visit]
  by_cases hs : sid = id
  · simp [hs]
  · simp only [if_neg hs]
    rfl

theorem lookup_labels_dropServer (h : reg.servers.lookup id = some srv) (name : String) :
    (reg.dropServer order id).1.labels.lookup name =
      if srv.state.label = some name ∨ ∃ k ∈ srv.children, reg.streamLabel k = some name
      then none else reg.labels.lookup name := by
  have hd := lookup_labels_dropStreams { reg with servers := reg.servers.erase id }
    (order.visit srv.children) name
  simp only [order.mem_visit] at hd
  unfold dropServer
  simp only [h, lookup_freeLabel, hd]
  by_cases hl : srv.state.label = some name
  · simp [hl]
  · simp only [hl, if_false, false_or]
    rfl

theorem mem_effects_dropServer (h : reg.servers.lookup id = some srv) {e : Effect} :
    e ∈ (reg.dropServer order id).2 ↔
      e = .abort srv.acceptTask ∨
        (∃ k ∈ srv.children, ∃ s, reg.streams.lookup k = some s ∧ e = .abort s.readTask) ∨
        ∃ path, srv.ipcPath = some path ∧ e = .removeFile path := by
  unfold dropServer
  simp only [h, List.cons_append, List.mem_cons, List.mem_append, mem_effects_dropStreams,
    order.mem_visit]
  cases srv.ipcPath <;> simp

theorem abort_or_remove_of_mem_dropServer {e : Effect} (he : e ∈ (reg.dropServer order id).2) :
    (∃ task, e = .abort task) ∨ ∃ path, e = .removeFile path := by
  cases h : reg.servers.lookup id with
  | none =>
    simp only [dropServer, h] at he
    cases he
  | some srv =>
    rcases (mem_effects_dropServer h).mp he with rfl | ⟨k, -, s, -, rfl⟩ | ⟨path, -, rfl⟩
    · exact .inl ⟨_, rfl⟩
    · exact .inl ⟨_, rfl⟩
    · exact .inr ⟨path, rfl⟩

end DropServer

section Servers

variable {reg : Registry} {id k : ConnectionId}

theorem mem_servers_insertStream {h : StreamHandle} :
    k ∈ (reg.insertStream h).servers ↔ k ∈ reg.servers :=
  mem_iff_of_lookup_map (lookup_servers_insertStream reg h k)

theorem mem_servers_dropStream : k ∈ (reg.dropStream id).1.servers ↔ k ∈ reg.servers :=
  mem_iff_of_lookup_map (lookup_servers_dropStream reg id k)

theorem mem_servers_dropServer {order : IterationOrder ConnectionId}
    (h : k ∈ (reg.dropServer order id).1.servers) : k ∈ reg.servers ∧ k ≠ id := by
  cases hid : reg.servers.lookup id with
  | none =>
    rw [show (reg.dropServer order id).1 = reg by simp only [dropServer, hid]] at h
    refine ⟨h, ?_⟩
    rintro rfl
    exact not_mem_iff_lookup.mpr hid h
  | some srv =>
    obtain ⟨s, hs⟩ := mem_iff_lookup.mp h
    rw [lookup_servers_dropServer hid] at hs
    split_ifs at hs with hne
    obtain ⟨s', hs', -⟩ := Option.map_eq_some_iff.mp hs
    exact ⟨mem_of_lookup hs', hne⟩

end Servers

section Typed

variable {reg : Registry} {id : ConnectionId}

@[simp] theorem typed_dropStream : (reg.dropStream id).1.typed = reg.typed := by
  unfold dropStream
  cases reg.streams.lookup id <;> rfl

@[simp] theorem typed_dropStreams (ids : List ConnectionId) :
    (reg.dropStreams ids).1.typed = reg.typed := by
  induction ids generalizing reg with
  | nil => rfl
  | cons c ids ih => rw [dropStreams, ih, typed_dropStream]

@[simp] theorem typed_dropServer {order : IterationOrder ConnectionId} :
    (reg.dropServer order id).1.typed = reg.typed := by
  unfold dropServer
  cases reg.servers.lookup id with
  | none => rfl
  | some srv => exact typed_dropStreams _

end Typed

section Label

variable {reg : Registry} {id typed : ConnectionId} {name : String}

theorem applyLabel_ok (h : (reg.applyLabel id typed name).2 = .ok ()) :
    (∀ existing, reg.labels.lookup name = some existing → reg.keyOf existing = id) ∧
      reg.applyLabel id typed name = reg.replaceLabel id typed name := by
  unfold applyLabel at h ⊢
  cases hl : reg.labels.lookup name with
  | none => exact ⟨fun _ he ↦ (Option.some_ne_none _ he.symm).elim, rfl⟩
  | some existing =>
    rw [hl] at h
    by_cases he : reg.keyOf existing = id
    · exact ⟨fun e hn ↦ (Option.some.inj hn) ▸ he, by simp [he]⟩
    · simp [he] at h

theorem replaceLabel_ok (h : (reg.replaceLabel id typed name).2 = .ok ()) :
    id ∈ reg.streams ∨ id ∈ reg.servers := by
  unfold replaceLabel at h
  cases hs : reg.streams.lookup id with
  | some s => exact .inl (mem_of_lookup hs)
  | none =>
    cases hv : reg.servers.lookup id with
    | some s => exact .inr (mem_of_lookup hv)
    | none => simp [hs, hv] at h

theorem lookup_labels_replaceLabel (h : (reg.replaceLabel id typed name).2 = .ok ()) (n : String) :
    (reg.replaceLabel id typed name).1.labels.lookup n =
      if n = name then some id
      else if reg.currentLabel id = some n then none else reg.labels.lookup n := by
  unfold replaceLabel at h ⊢
  cases hs : reg.streams.lookup id with
  | some s => simp only [lookup_insert, lookup_freeLabel]
  | none =>
    cases hv : reg.servers.lookup id with
    | some s => simp only [lookup_insert, lookup_freeLabel]
    | none => simp [hs, hv] at h

theorem lookup_typed_replaceLabel (h : (reg.replaceLabel id typed name).2 = .ok ()) (n : String) :
    (reg.replaceLabel id typed name).1.typed.lookup n =
      if n = name then some typed else reg.typed.lookup n := by
  unfold replaceLabel at h ⊢
  cases hs : reg.streams.lookup id with
  | some s => simp only [lookup_insert]
  | none =>
    cases hv : reg.servers.lookup id with
    | some s => simp only [lookup_insert]
    | none => simp [hs, hv] at h

theorem lookup_streams_replaceLabel (k : ConnectionId) :
    (reg.replaceLabel id typed name).1.streams.lookup k = (reg.streams.lookup k).map fun h ↦
      if k = id then { h with state := { h.state with label := some name } } else h := by
  unfold replaceLabel
  cases hs : reg.streams.lookup id with
  | some s =>
    simp only [lookup_insert]
    by_cases hk : k = id
    · subst hk
      simp [hs]
    · simp [hk]
  | none =>
    have hk : ∀ h, reg.streams.lookup k = some h → k ≠ id := by
      rintro h hh rfl
      rw [hs] at hh
      cases hh
    cases hv : reg.servers.lookup id <;>
    · simp only
      cases hh : reg.streams.lookup k with
      | none => rfl
      | some h => simp [hk h hh]

/-- A server is relabelled only when no stream bears the id. -/
theorem lookup_servers_replaceLabel (k : ConnectionId) :
    (reg.replaceLabel id typed name).1.servers.lookup k = (reg.servers.lookup k).map fun s ↦
      if k = id ∧ id ∉ reg.streams then { s with state := { s.state with label := some name } }
      else s := by
  unfold replaceLabel
  cases hs : reg.streams.lookup id with
  | some s => simp [mem_of_lookup hs]
  | none =>
    have hm : id ∉ reg.streams := not_mem_iff_lookup.mpr hs
    cases hv : reg.servers.lookup id with
    | some s =>
      simp only [lookup_insert]
      by_cases hk : k = id
      · subst hk
        simp [hv, hm]
      · simp [hk]
    | none =>
      simp only
      cases hh : reg.servers.lookup k with
      | none => rfl
      | some s =>
        have hk : k ≠ id := by
          rintro rfl
          rw [hv] at hh
          cases hh
        simp [hk]

theorem mem_streams_replaceLabel {k : ConnectionId} :
    k ∈ (reg.replaceLabel id typed name).1.streams ↔ k ∈ reg.streams :=
  mem_iff_of_lookup_map (lookup_streams_replaceLabel k)

theorem mem_servers_replaceLabel {k : ConnectionId} :
    k ∈ (reg.replaceLabel id typed name).1.servers ↔ k ∈ reg.servers :=
  mem_iff_of_lookup_map (lookup_servers_replaceLabel k)

theorem keyOf_replaceLabel (k : ConnectionId) :
    (reg.replaceLabel id typed name).1.keyOf k = reg.keyOf k := by
  refine keyOf_congr (Finset.ext fun k ↦ ?_) k
  rw [mem_registered, mem_registered, mem_streams_replaceLabel, mem_servers_replaceLabel]

end Label

section Rename

variable (reg : Registry) (old newId : ConnectionId)

theorem lookup_streams_rename (k : ConnectionId) :
    (reg.renameAcceptedTcp old newId).streams.lookup k =
      match reg.streams.lookup old with
      | none => reg.streams.lookup k
      | some h =>
        if k = newId then some { h with state := { h.state with id := newId } }
        else if k = old then none else reg.streams.lookup k := by
  unfold renameAcceptedTcp
  cases reg.streams.lookup old with
  | none => rfl
  | some h => simp only [lookup_insert, lookup_erase]

theorem mem_streams_rename {k : ConnectionId} :
    k ∈ (reg.renameAcceptedTcp old newId).streams ↔
      (old ∈ reg.streams ∧ (k = newId ∨ k ≠ old ∧ k ∈ reg.streams)) ∨
        (old ∉ reg.streams ∧ k ∈ reg.streams) := by
  rw [mem_iff_lookup, lookup_streams_rename]
  cases hold : reg.streams.lookup old with
  | none => simp [not_mem_iff_lookup.mpr hold, mem_iff_lookup]
  | some s =>
    simp only [mem_of_lookup hold, true_and, not_true_eq_false, false_and, or_false]
    by_cases h₁ : k = newId
    · simp [h₁]
    · by_cases h₀ : k = old <;> simp [h₁, h₀, mem_iff_lookup]

theorem lookup_servers_rename (sid : ConnectionId) :
    (reg.renameAcceptedTcp old newId).servers.lookup sid =
      (reg.servers.lookup sid).map fun srv ↦
        if reg.parentOf old = some sid
        then { srv with children := insert newId (srv.children.erase old) } else srv := by
  unfold renameAcceptedTcp parentOf
  cases reg.streams.lookup old with
  | none => simp
  | some h => exact lookup_updateParent _ _ _ _

theorem rename_labels : (reg.renameAcceptedTcp old newId).labels = reg.labels := by
  unfold renameAcceptedTcp
  cases reg.streams.lookup old <;> rfl

theorem rename_seq :
    (reg.renameAcceptedTcp old newId).nextIpcClientSeq = reg.nextIpcClientSeq := by
  unfold renameAcceptedTcp
  cases reg.streams.lookup old <;> rfl

theorem rename_typed : (reg.renameAcceptedTcp old newId).typed = reg.typed := by
  unfold renameAcceptedTcp
  cases reg.streams.lookup old <;> rfl

end Rename

end WireDock.Registry
