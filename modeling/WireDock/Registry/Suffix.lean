import WireDock.Registry.WellFormed

namespace WireDock

open FiniteMap LabelledSystem

namespace Registry

def bookkeeping (reg : Registry) (sid : ConnectionId) :
    Option (HashMap String ConnectionId × HashMap String UInt32) :=
  (reg.servers.lookup sid).map fun srv ↦ (srv.baseNoSuffix, srv.disambigNext)

variable (reg : Registry)

theorem bookkeeping_of_lookup {sid : ConnectionId} {srv : ServerHandle}
    (h : reg.servers.lookup sid = some srv) :
    reg.bookkeeping sid = some (srv.baseNoSuffix, srv.disambigNext) := by
  rw [bookkeeping, h, Option.map_some]

theorem bookkeeping_insertStream (s : StreamHandle) (sid : ConnectionId) :
    (reg.insertStream s).bookkeeping sid = reg.bookkeeping sid := by
  rw [bookkeeping, bookkeeping, lookup_servers_insertStream, Option.map_map]
  refine congrArg (fun f ↦ (reg.servers.lookup sid).map f) (funext fun srv ↦ ?_)
  rw [Function.comp_apply]
  split_ifs <;> rfl

theorem bookkeeping_dropStream (id sid : ConnectionId) :
    (reg.dropStream id).1.bookkeeping sid = reg.bookkeeping sid := by
  rw [bookkeeping, bookkeeping, lookup_servers_dropStream, Option.map_map]
  refine congrArg (fun f ↦ (reg.servers.lookup sid).map f) (funext fun srv ↦ ?_)
  rw [Function.comp_apply]
  split_ifs <;> rfl

theorem bookkeeping_replaceLabel (id typed sid : ConnectionId) (name : String) :
    (reg.replaceLabel id typed name).1.bookkeeping sid = reg.bookkeeping sid := by
  rw [bookkeeping, bookkeeping, lookup_servers_replaceLabel, Option.map_map]
  refine congrArg (fun f ↦ (reg.servers.lookup sid).map f) (funext fun srv ↦ ?_)
  rw [Function.comp_apply]
  split_ifs <;> rfl

theorem bookkeeping_dropServer {order : IterationOrder ConnectionId} {id sid : ConnectionId}
    {maps : HashMap String ConnectionId × HashMap String UInt32}
    (h : (reg.dropServer order id).1.bookkeeping sid = some maps) :
    reg.bookkeeping sid = some maps := by
  cases hid : reg.servers.lookup id with
  | none =>
    have he : (reg.dropServer order id).1 = reg := by simp only [dropServer, hid]
    rwa [he] at h
  | some srv =>
    rw [bookkeeping, lookup_servers_dropServer hid] at h
    split_ifs at h
    · cases h
    · rw [Option.map_map] at h
      exact h

theorem mem_streams_of_dropServer {order : IterationOrder ConnectionId} {id k : ConnectionId}
    (h : k ∈ (reg.dropServer order id).1.streams) : k ∈ reg.streams := by
  cases hid : reg.servers.lookup id with
  | none =>
    have he : (reg.dropServer order id).1 = reg := by simp only [dropServer, hid]
    rwa [he] at h
  | some srv =>
    rw [mem_iff_lookup, lookup_streams_dropServer hid] at h
    obtain ⟨s, hs⟩ := h
    split_ifs at hs
    exact mem_of_lookup hs

end Registry

/-- The disambiguation maps of a server account for its live streams: a base
is unsuffixed or counted, never both, and no stream lives under any other base. -/
structure Tracked (reg : Registry) : Prop where
  unsuffixed : ∀ sid base next k old, reg.bookkeeping sid = some (base, next) →
    base.lookup k = some old → ∃ b : Base, b.server = sid ∧ b.key = k ∧ old = b.accepted none
  exclusive : ∀ sid base next k, reg.bookkeeping sid = some (base, next) →
    k ∈ base → k ∉ next
  live_unsuffixed : ∀ (b : Base) base next, reg.bookkeeping b.server = some (base, next) →
    b.accepted none ∈ reg.streams → b.key ∈ base
  live_suffixed : ∀ (b : Base) base next m, reg.bookkeeping b.server = some (base, next) →
    b.accepted (some m) ∈ reg.streams → b.key ∈ next

namespace Tracked

variable {reg reg' : Registry}

theorem new : Tracked .new where
  unsuffixed _ _ _ _ _ h := by cases h
  exclusive _ _ _ _ h := by cases h
  live_unsuffixed _ _ _ h := by cases h
  live_suffixed _ _ _ _ h := by cases h

theorem of_subset (h : Tracked reg) (hs : ∀ id, id ∈ reg'.streams → id ∈ reg.streams)
    (hb : ∀ sid maps, reg'.bookkeeping sid = some maps → reg.bookkeeping sid = some maps) :
    Tracked reg' where
  unsuffixed sid base next k old hk := h.unsuffixed sid base next k old (hb _ _ hk)
  exclusive sid base next k hk := h.exclusive sid base next k (hb _ _ hk)
  live_unsuffixed b base next hk hl := h.live_unsuffixed b base next (hb _ _ hk) (hs _ hl)
  live_suffixed b base next m hk hl := h.live_suffixed b base next m (hb _ _ hk) (hs _ hl)

theorem dropStream (h : Tracked reg) (id : ConnectionId) : Tracked (reg.dropStream id).1 :=
  h.of_subset
    (fun k hk ↦ by
      rw [Registry.dropStream_streams, Finmap.mem_erase] at hk
      exact hk.2)
    (fun sid maps hm ↦ by rwa [Registry.bookkeeping_dropStream] at hm)

theorem dropServer (h : Tracked reg) (order : IterationOrder ConnectionId) (id : ConnectionId) :
    Tracked (reg.dropServer order id).1 :=
  h.of_subset (fun _ ↦ reg.mem_streams_of_dropServer) fun _ _ ↦ reg.bookkeeping_dropServer

theorem replaceLabel (h : Tracked reg) (id typed : ConnectionId) (name : String) :
    Tracked (reg.replaceLabel id typed name).1 :=
  h.of_subset (fun _ ↦ reg.mem_streams_replaceLabel.mp)
    fun sid maps hm ↦ by rwa [Registry.bookkeeping_replaceLabel] at hm

theorem insertClient (h : Tracked reg) {s : StreamHandle} (hs : s.state.id.base? = none) :
    Tracked (reg.insertStream s) := by
  have hmem : ∀ (b : Base) d, b.accepted d ∈ (reg.insertStream s).streams →
      b.accepted d ∈ reg.streams := by
    intro b d hb
    refine (Finmap.mem_insert.mp hb).resolve_left fun he ↦ ?_
    rw [← he, Base.base?_accepted] at hs
    cases hs
  have hb : ∀ sid, (reg.insertStream s).bookkeeping sid = reg.bookkeeping sid :=
    reg.bookkeeping_insertStream s
  refine ⟨?_, ?_, ?_, ?_⟩
  · simpa only [hb] using h.unsuffixed
  · simpa only [hb] using h.exclusive
  · intro b base next hk hl
    exact h.live_unsuffixed b base next (hb _ ▸ hk) (hmem b _ hl)
  · intro b base next m hk hl
    exact h.live_suffixed b base next m (hb _ ▸ hk) (hmem b _ hl)

theorem openServer (h : Tracked reg) (hw : WellFormed reg) {id : ConnectionId}
    (hid : id ∉ reg.servers) (task : JoinHandle) (path : Option PathBuf) :
    Tracked { reg with servers := reg.servers.insert id (.opened id task path) } := by
  have hb : ∀ sid, ({ reg with servers := reg.servers.insert id (.opened id task path) } :
      Registry).bookkeeping sid = if sid = id then some (∅, ∅) else reg.bookkeeping sid := by
    intro sid
    rw [Registry.bookkeeping, Registry.bookkeeping, lookup_insert]
    split_ifs <;> rfl
  have hdead : ∀ (b : Base) d, b.server = id → b.accepted d ∉ reg.streams := by
    rintro b d rfl hl
    exact hid (hw.parent_registered _ _ hl (b.parent?_accepted d))
  refine ⟨?_, ?_, ?_, ?_⟩
  · intro sid base next k old hk hl
    rw [hb] at hk
    split_ifs at hk
    · cases hk
      cases hl
    · exact h.unsuffixed sid base next k old hk hl
  · intro sid base next k hk hl
    rw [hb] at hk
    split_ifs at hk
    · cases hk
      exact (Finmap.notMem_empty hl).elim
    · exact h.exclusive sid base next k hk hl
  · intro b base next hk hl
    rw [hb, if_neg fun he ↦ hdead b none he hl] at hk
    exact h.live_unsuffixed b base next hk hl
  · intro b base next m hk hl
    rw [hb, if_neg fun he ↦ hdead b (some m) he hl] at hk
    exact h.live_suffixed b base next m hk hl

theorem lookup_base (h : Tracked reg) {b : Base} {srv : ServerHandle} {old : ConnectionId}
    (hsrv : reg.servers.lookup b.server = some srv)
    (hold : srv.baseNoSuffix.lookup b.key = some old) : old = b.accepted none := by
  obtain ⟨b', hs, hk, he⟩ := h.unsuffixed _ _ _ _ _ (reg.bookkeeping_of_lookup hsrv) hold
  rw [he, Base.key_inj hs hk]

end Tracked

namespace Registry

variable {reg reg' : Registry} {b : Base} {id : ConnectionId} {ev : Option NetEvent}

theorem bookkeeping_setServer {sid : ConnectionId} {srv : ServerHandle} (k : ConnectionId) :
    ({ reg with servers := reg.servers.insert sid srv } : Registry).bookkeeping k =
      if k = sid then some (srv.baseNoSuffix, srv.disambigNext) else reg.bookkeeping k := by
  rw [bookkeeping, bookkeeping, lookup_insert]
  split_ifs <;> rfl

theorem bookkeeping_second {srv : ServerHandle} {old newId : ConnectionId}
    (hsrv : reg.servers.lookup b.server = some srv)
    (hservers : ∀ sid, reg'.servers.lookup sid =
      ((reg.renameAcceptedTcp old newId).servers.lookup sid).map fun s ↦
        if sid = b.server then
          { s with
            baseNoSuffix := srv.baseNoSuffix.erase b.key
            disambigNext := srv.disambigNext.insert b.key 2 }
        else s) (k : ConnectionId) :
    reg'.bookkeeping k = if k = b.server
      then some (srv.baseNoSuffix.erase b.key, srv.disambigNext.insert b.key 2)
      else reg.bookkeeping k := by
  rw [bookkeeping, bookkeeping, hservers, lookup_servers_rename, Option.map_map, Option.map_map]
  by_cases hk : k = b.server
  · subst hk
    simp [hsrv]
  · rw [if_neg hk]
    refine congrArg (fun f ↦ (reg.servers.lookup k).map f) (funext fun s ↦ ?_)
    simp only [Function.comp_apply, if_neg hk]
    split_ifs <;> rfl

end Registry

namespace Tracked

variable {reg reg' : Registry} {b : Base} {id : ConnectionId} {ev : Option NetEvent}

/-- An accept on a base is accounted for when it settles that base and leaves
every other base as it was. -/
theorem of_accept (h : Tracked reg) {srv : ServerHandle}
    {base' : HashMap String ConnectionId} {next' : HashMap String UInt32}
    (hsrv : reg.servers.lookup b.server = some srv)
    (hmaps : ∀ sid, reg'.bookkeeping sid =
      if sid = b.server then some (base', next') else reg.bookkeeping sid)
    (hbase : ∀ k, k ≠ b.key → base'.lookup k = srv.baseNoSuffix.lookup k)
    (hnext : ∀ k, k ≠ b.key → next'.lookup k = srv.disambigNext.lookup k)
    (hother : ∀ (b' : Base) d, b' ≠ b →
      b'.accepted d ∈ reg'.streams → b'.accepted d ∈ reg.streams)
    (hown : ∀ old, base'.lookup b.key = some old → old = b.accepted none)
    (hexcl : b.key ∈ base' → b.key ∉ next')
    (hlive : b.accepted none ∈ reg'.streams → b.key ∈ base')
    (hlives : ∀ m, b.accepted (some m) ∈ reg'.streams → b.key ∈ next') : Tracked reg' := by
  have hold := reg.bookkeeping_of_lookup hsrv
  refine ⟨?_, ?_, ?_, ?_⟩ <;> simp only [hmaps]
  · intro sid base next k old hk hl
    split_ifs at hk with he
    · cases hk
      by_cases hkey : k = b.key
      · exact ⟨b, he.symm, hkey.symm, hown old (hkey ▸ hl)⟩
      · exact he ▸ h.unsuffixed _ _ _ k old hold (hbase k hkey ▸ hl)
    · exact h.unsuffixed sid base next k old hk hl
  · intro sid base next k hk hl
    split_ifs at hk with he
    · cases hk
      by_cases hkey : k = b.key
      · exact hkey ▸ hexcl (hkey ▸ hl)
      · rw [mem_iff_lookup, hbase k hkey, ← mem_iff_lookup] at hl
        rw [mem_iff_lookup, hnext k hkey, ← mem_iff_lookup]
        exact h.exclusive _ _ _ k hold hl
    · exact h.exclusive sid base next k hk hl
  · intro b' base next hk hl
    by_cases hb : b' = b
    · subst hb
      cases (if_pos rfl).symm.trans hk
      exact hlive hl
    · have hl' := hother b' _ hb hl
      split_ifs at hk with he
      · cases hk
        rw [mem_iff_lookup, hbase _ fun hkey ↦ hb (Base.key_inj he hkey), ← mem_iff_lookup]
        exact h.live_unsuffixed b' _ _ (he ▸ hold) hl'
      · exact h.live_unsuffixed b' base next hk hl'
  · intro b' base next m hk hl
    by_cases hb : b' = b
    · subst hb
      cases (if_pos rfl).symm.trans hk
      exact hlives m hl
    · have hl' := hother b' _ hb hl
      split_ifs at hk with he
      · cases hk
        rw [mem_iff_lookup, hnext _ fun hkey ↦ hb (Base.key_inj he hkey), ← mem_iff_lookup]
        exact h.live_suffixed b' _ _ m (he ▸ hold) hl'
      · exact h.live_suffixed b' base next m hk hl'

theorem accepted (h : Tracked reg) (ha : reg.Allocated b reg' id ev) {s : StreamHandle}
    (hs : s.state.id = id) : Tracked (reg'.insertStream s) := by
  have hins : ∀ k, k ∈ (reg'.insertStream s).streams ↔ k = id ∨ k ∈ reg'.streams :=
    fun k ↦ hs ▸ Finmap.mem_insert
  cases ha with
  | @first srv hsrv hbase hnext =>
    refine h.of_accept hsrv
      (fun sid ↦ by rw [Registry.bookkeeping_insertStream, Registry.bookkeeping_setServer])
      (fun k hk ↦ by rw [lookup_insert, if_neg hk]) (fun _ _ ↦ rfl) ?_ ?_ ?_ ?_ ?_
    · intro b' d hb hl
      exact ((hins _).mp hl).resolve_left fun he ↦ hb (Base.accepted_inj he).1
    · intro old hl
      rw [lookup_insert, if_pos rfl] at hl
      exact (Option.some.inj hl).symm
    · exact fun _ ↦ hnext
    · exact fun _ ↦ Finmap.mem_insert.mpr (.inl rfl)
    · intro m hl
      have hl' := ((hins _).mp hl).resolve_left fun he ↦ by cases (Base.accepted_inj he).2
      exact h.live_suffixed b _ _ m (reg.bookkeeping_of_lookup hsrv) hl'
  | @second srv old _ hsrv hold hstreams hservers =>
    cases h.lookup_base hsrv hold
    refine h.of_accept hsrv
      (fun sid ↦ by
        rw [Registry.bookkeeping_insertStream, Registry.bookkeeping_second hsrv hservers])
      (fun k hk ↦ by rw [lookup_erase, if_neg hk])
      (fun k hk ↦ by rw [lookup_insert, if_neg hk]) ?_ ?_ ?_ ?_ ?_
    · intro b' d hb hl
      have hl' := ((hins _).mp hl).resolve_left fun he ↦ hb (Base.accepted_inj he).1
      rw [hstreams, Registry.mem_streams_rename] at hl'
      rcases hl' with ⟨-, he | ⟨-, hl'⟩⟩ | ⟨-, hl'⟩
      · exact (hb (Base.accepted_inj he).1).elim
      · exact hl'
      · exact hl'
    · intro old hl
      rw [lookup_erase, if_pos rfl] at hl
      cases hl
    · exact fun hl ↦ ((Finmap.mem_erase.mp hl).1 rfl).elim
    · -- the stream that had the unsuffixed id is renamed
      intro hl
      have hl' := ((hins _).mp hl).resolve_left fun he ↦ by cases (Base.accepted_inj he).2
      rw [hstreams, Registry.mem_streams_rename] at hl'
      rcases hl' with ⟨-, he | ⟨hne, -⟩⟩ | ⟨hn, hl'⟩
      · cases (Base.accepted_inj he).2
      · exact (hne rfl).elim
      · exact (hn hl').elim
    · exact fun m _ ↦ Finmap.mem_insert.mpr (.inl rfl)
  | @next srv n hsrv hbase hn =>
    refine h.of_accept hsrv
      (fun sid ↦ by rw [Registry.bookkeeping_insertStream, Registry.bookkeeping_setServer])
      (fun _ _ ↦ rfl) (fun k hk ↦ by rw [lookup_insert, if_neg hk]) ?_ ?_ ?_ ?_ ?_
    · intro b' d hb hl
      exact ((hins _).mp hl).resolve_left fun he ↦ hb (Base.accepted_inj he).1
    · intro old hl
      exact (hbase (mem_of_lookup hl)).elim
    · exact fun hl ↦ (hbase hl).elim
    · intro hl
      have hl' := ((hins _).mp hl).resolve_left fun he ↦ by cases (Base.accepted_inj he).2
      exact h.live_unsuffixed b _ _ (reg.bookkeeping_of_lookup hsrv) hl'
    · exact fun m _ ↦ Finmap.mem_insert.mpr (.inl rfl)

end Tracked

end WireDock
