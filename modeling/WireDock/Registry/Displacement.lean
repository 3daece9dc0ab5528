import WireDock.Registry.Representation

namespace WireDock

open FiniteMap LabelledSystem

def countAccept (server : ConnectionId) (n : ℕ) : Effect → ℕ
  | .spawnAccept _ id _ => if id = server then 0 else n
  | .spawnRead _ id _ => if id.parent? = some server then n + 1 else n
  | _ => n

def acceptsOn (server : ConnectionId) (log : List Effect) : ℕ := log.foldl (countAccept server) 0

section Count

variable {server : ConnectionId} {log effects : List Effect}

theorem foldl_countAccept (h : ∀ e ∈ effects, e.spawned = none) (n : ℕ) :
    effects.foldl (countAccept server) n = n := by
  induction effects generalizing n with
  | nil => rfl
  | cons e effects ih =>
    have he : countAccept server n e = n := by
      have hs := h e List.mem_cons_self
      cases e <;> first | rfl | cases hs
    rw [List.foldl_cons, he]
    exact ih (fun e' he' ↦ h e' (List.mem_cons_of_mem _ he')) n

theorem acceptsOn_append (h : ∀ e ∈ effects, e.spawned = none) :
    acceptsOn server (log ++ effects) = acceptsOn server log := by
  rw [acceptsOn, List.foldl_append, foldl_countAccept h, acceptsOn]

theorem acceptsOn_serverOpened {id : ConnectionId} {endpoint : ServerEndpoint}
    {task : JoinHandle} {listener : AcceptLoop} {text : String} (h : id ≠ server) :
    acceptsOn server (log ++ [.bind endpoint, .spawnAccept task id listener, say text]) =
      acceptsOn server log := by
  rw [acceptsOn, List.foldl_append]
  exact if_neg h

theorem acceptsOn_clientOpened {id : ConnectionId} {endpoint : Endpoint} {task : JoinHandle}
    {stream : BoxedStream} {text : String} (h : id.parent? = none) :
    acceptsOn server (log ++ [.connect endpoint, .spawnRead task id stream, say text]) =
      acceptsOn server log := by
  rw [acceptsOn, List.foldl_append]
  exact if_neg (by rw [h]; exact nofun)

theorem acceptsOn_register {env : Environment} {b : Base} {peerInfo : PeerInfo}
    {stream : BoxedStream} {reg : Registry} {d : Option UInt32} {ev : Option NetEvent} :
    acceptsOn server
        (log ++ (Registry.register env b.server peerInfo stream (reg, b.accepted d, ev)).2) =
      if b.server = server then acceptsOn server log + 1 else acceptsOn server log := by
  have hr : ∀ e ∈ Registry.renamedLine ev, e.spawned = none := by
    intro e he
    unfold Registry.renamedLine at he
    split at he
    · rw [List.mem_singleton.mp he]
      rfl
    · cases he
  rw [Registry.register, ← List.append_assoc, acceptsOn, List.foldl_append]
  have hcount : (log ++ Registry.renamedLine ev).foldl (countAccept server) 0 =
      acceptsOn server log := acceptsOn_append hr
  simp [hcount, spawnStream, countAccept, say]

end Count

namespace Registry

theorem spawned_silent {e : Effect} (h : e.Silent) : e.spawned = none := by
  cases e <;> first | rfl | exact h.elim

theorem spawned_dropStream {reg : Registry} {id : ConnectionId} :
    ∀ e ∈ (reg.dropStream id).2, e.spawned = none := by
  intro e he
  obtain ⟨task, rfl⟩ := abort_of_mem_dropStream he
  rfl

theorem spawned_dropServer {order : IterationOrder ConnectionId} {reg : Registry}
    {id : ConnectionId} : ∀ e ∈ (reg.dropServer order id).2, e.spawned = none := by
  intro e he
  rcases abort_or_remove_of_mem_dropServer he with ⟨task, rfl⟩ | ⟨path, rfl⟩ <;> rfl

end Registry

namespace Registry

def counter (reg : Registry) (b : Base) : Option UInt32 :=
  (reg.servers.lookup b.server).bind fun srv ↦ srv.disambigNext.lookup b.key

variable {reg reg' : Registry} {b : Base}

theorem counter_eq (reg : Registry) (b : Base) :
    reg.counter b = (reg.bookkeeping b.server).bind fun maps ↦ maps.2.lookup b.key := by
  rw [counter, bookkeeping, Option.bind_map]
  rfl

theorem counter_congr (h : reg'.bookkeeping b.server = reg.bookkeeping b.server) :
    reg'.counter b = reg.counter b := by
  rw [counter_eq, counter_eq, h]

theorem counter_of_lookup {srv : ServerHandle} (h : reg.servers.lookup b.server = some srv) :
    reg.counter b = srv.disambigNext.lookup b.key := by
  rw [counter, h, Option.bind_some]

theorem counter_of_dropServer {order : IterationOrder ConnectionId} {id : ConnectionId}
    {n : UInt32} (h : (reg.dropServer order id).1.counter b = some n) :
    reg.counter b = some n := by
  rw [counter_eq] at h ⊢
  obtain ⟨maps, hm, hn⟩ := Option.bind_eq_some_iff.mp h
  rw [bookkeeping_dropServer reg hm]
  exact hn

theorem counter_openServer {id : ConnectionId} {task : JoinHandle} {path : Option PathBuf}
    {n : UInt32} (h : ({ reg with servers := reg.servers.insert id (.opened id task path) } :
      Registry).counter b = some n) : id ≠ b.server ∧ reg.counter b = some n := by
  rw [counter, lookup_insert] at h
  split_ifs at h with he
  · cases h
  · exact ⟨fun hid ↦ he hid.symm, h⟩

theorem Allocated.counters {id : ConnectionId} {ev : Option NetEvent} (ht : Tracked reg)
    (h : reg.Allocated b reg' id ev) :
    (∀ b', b' ≠ b → reg'.counter b' = reg.counter b') ∧
      (id = b.accepted none ∧ reg.counter b = none ∧ reg'.counter b = none ∨
        id = b.accepted (some 2) ∧ reg.counter b = none ∧ reg'.counter b = some 2 ∨
        ∃ n, id = b.accepted (some n) ∧ reg.counter b = some n ∧
          reg'.counter b = some (n + 1)) := by
  have hother : ∀ b' : Base, b' ≠ b → b'.server = b.server → b'.key ≠ b.key :=
    fun b' hne hs hk ↦ hne (Base.key_inj hs hk)
  cases h with
  | @first srv hsrv _ hnext =>
    refine ⟨fun b' hne ↦ ?_, .inl ⟨rfl, ?_, ?_⟩⟩
    · rw [counter_eq, bookkeeping_setServer]
      split_ifs with hs
      · rw [Option.bind_some, counter, hs, hsrv, Option.bind_some]
      · rw [← counter_eq]
    · rw [counter_of_lookup hsrv, not_mem_iff_lookup.mp hnext]
    · rw [counter_eq, bookkeeping_setServer, if_pos rfl, Option.bind_some,
        not_mem_iff_lookup.mp hnext]
  | @second srv old _ hsrv hold _ hservers =>
    have hnone : srv.disambigNext.lookup b.key = none := not_mem_iff_lookup.mp
      (ht.exclusive _ _ _ _ (reg.bookkeeping_of_lookup hsrv) (mem_of_lookup hold))
    refine ⟨fun b' hne ↦ ?_, .inr (.inl ⟨rfl, ?_, ?_⟩)⟩
    · rw [counter_eq, bookkeeping_second hsrv hservers]
      split_ifs with hs
      · rw [Option.bind_some, lookup_insert, if_neg (hother b' hne hs), counter, hs, hsrv,
          Option.bind_some]
      · rw [← counter_eq]
    · rw [counter_of_lookup hsrv, hnone]
    · rw [counter_eq, bookkeeping_second hsrv hservers, if_pos rfl, Option.bind_some,
        lookup_insert, if_pos rfl]
  | @next srv n hsrv _ hn =>
    refine ⟨fun b' hne ↦ ?_, .inr (.inr ⟨n, rfl, ?_, ?_⟩)⟩
    · rw [counter_eq, bookkeeping_setServer]
      split_ifs with hs
      · rw [Option.bind_some, lookup_insert, if_neg (hother b' hne hs), counter, hs, hsrv,
          Option.bind_some]
      · rw [← counter_eq]
    · rw [counter_of_lookup hsrv, hn]
    · rw [counter_eq, bookkeeping_setServer, if_pos rfl, Option.bind_some, lookup_insert,
        if_pos rfl]

theorem Allocated.mem_streams {id : ConnectionId} {ev : Option NetEvent} {k : ConnectionId}
    (ht : Tracked reg) (h : reg.Allocated b reg' id ev) (hk : k ∈ reg'.streams) :
    k ∈ reg.streams ∨
      k = b.accepted (some 1) ∧ reg.counter b = none ∧ b.accepted none ∈ reg.streams := by
  cases h with
  | first | next => exact .inl hk
  | second hsrv hold hstreams =>
    have hnone := ht.exclusive _ _ _ _ (reg.bookkeeping_of_lookup hsrv) (mem_of_lookup hold)
    cases ht.lookup_base hsrv hold
    rw [hstreams, mem_streams_rename] at hk
    rcases hk with ⟨hlive, rfl | ⟨-, hk⟩⟩ | ⟨-, hk⟩
    · exact .inr ⟨rfl, (counter_of_lookup hsrv).trans (not_mem_iff_lookup.mp hnone), hlive⟩
    · exact .inl hk
    · exact .inl hk

end Registry

theorem Tracked.counter_of_live {reg : Registry} {b : Base} {m : UInt32} (ht : Tracked reg)
    (hs : b.server ∈ reg.servers) (hl : b.accepted (some m) ∈ reg.streams) :
    ∃ n, reg.counter b = some n := by
  obtain ⟨srv, hsrv⟩ := mem_iff_lookup.mp hs
  rw [Registry.counter_of_lookup hsrv]
  exact mem_iff_lookup.mp (ht.live_suffixed b _ _ m (reg.bookkeeping_of_lookup hsrv) hl)

theorem toNat_succ_u32 {n : UInt32} (h : n.toNat < 2 ^ 32 - 1) : (n + 1).toNat = n.toNat + 1 := by
  rw [UInt32.toNat_add, UInt32.toNat_one]
  exact Nat.mod_eq_of_lt (by omega)

/-- A law for the counter of a base, after so many accepts on its server, and
for the live suffixes beside it, that an allocation keeps. -/
structure CounterLaw (C : ℕ → UInt32 → Prop) (R : UInt32 → UInt32 → Prop) : Prop where
  seed : ∀ k, C (k + 1) 2
  seeded : R 1 2 ∧ R 2 2
  more : ∀ k n, C k n → C (k + 1) n
  next : ∀ k n, k + 1 < 2 ^ 32 - 2 → C k n →
    C (k + 1) (n + 1) ∧ R n (n + 1) ∧ ∀ m, R m n → R m (n + 1)

def Counters (C : ℕ → UInt32 → Prop) (R : UInt32 → UInt32 → Prop) (reg : Registry)
    (log : List Effect) : Prop :=
  ∀ (b : Base) n, acceptsOn b.server log < 2 ^ 32 - 2 → reg.counter b = some n →
    C (acceptsOn b.server log) n ∧ ∀ m, b.accepted (some m) ∈ reg.streams → R m n

namespace Counters

variable {C : ℕ → UInt32 → Prop} {R : UInt32 → UInt32 → Prop}
variable {reg reg' : Registry} {log effects : List Effect}

theorem of_subset (h : Counters C R reg log)
    (hs : ∀ (b : Base) d, b.accepted d ∈ reg'.streams → b.accepted d ∈ reg.streams)
    (hb : ∀ b n, reg'.counter b = some n → reg.counter b = some n ∧
      acceptsOn b.server (log ++ effects) = acceptsOn b.server log) :
    Counters C R reg' (log ++ effects) := by
  intro b n hlt hn
  obtain ⟨hn, he⟩ := hb b n hn
  rw [he] at hlt ⊢
  obtain ⟨hle, hm⟩ := h b n hlt hn
  exact ⟨hle, fun m hl ↦ hm m (hs b _ hl)⟩

theorem dropStream (h : Counters C R reg log) (id : ConnectionId)
    (he : ∀ e ∈ effects, e.spawned = none) : Counters C R (reg.dropStream id).1 (log ++ effects) := by
  refine h.of_subset (fun b d hk ↦ ?_) fun b n hn ↦ ⟨?_, acceptsOn_append he⟩
  · rw [Registry.dropStream_streams, Finmap.mem_erase] at hk
    exact hk.2
  · rwa [Registry.counter_congr (reg.bookkeeping_dropStream id b.server)] at hn

theorem dropServer (h : Counters C R reg log) (order : IterationOrder ConnectionId)
    (id : ConnectionId) (he : ∀ e ∈ effects, e.spawned = none) :
    Counters C R (reg.dropServer order id).1 (log ++ effects) :=
  h.of_subset (fun _ _ ↦ reg.mem_streams_of_dropServer) fun _ _ hn ↦
    ⟨Registry.counter_of_dropServer hn, acceptsOn_append he⟩

theorem accepted {b : Base} {id : ConnectionId} {ev : Option NetEvent} {s : StreamHandle}
    (hlaw : CounterLaw C R) (h : Counters C R reg log) (hw : WellFormed reg) (ht : Tracked reg)
    (ha : reg.Allocated b reg' id ev) (hs : s.state.id = id)
    (hcount : ∀ sid, acceptsOn sid (log ++ effects) =
      if b.server = sid then acceptsOn sid log + 1 else acceptsOn sid log) :
    Counters C R (reg'.insertStream s) (log ++ effects) := by
  intro b' n hlt hn
  rw [Registry.counter_congr (reg'.bookkeeping_insertStream s b'.server)] at hn
  have hmem : ∀ k, k ∈ (reg'.insertStream s).streams → k = id ∨ k ∈ reg.streams ∨
      k = b.accepted (some 1) ∧ reg.counter b = none ∧ b.accepted none ∈ reg.streams := fun k hk ↦
    (Finmap.mem_insert.mp hk).imp (fun he ↦ he.trans hs) (ha.mem_streams ht)
  obtain ⟨hother, hcases⟩ := ha.counters ht
  by_cases hb : b' = b
  · subst hb
    rw [hcount, if_pos rfl] at hlt ⊢
    rcases hcases with ⟨-, -, hn'⟩ | ⟨hid, hc, hn'⟩ | ⟨n₀, hid, hc, hn'⟩
    · cases hn'.symm.trans hn
    · cases hn'.symm.trans hn
      refine ⟨hlaw.seed _, fun m hm ↦ ?_⟩
      rcases hmem _ hm with he | hm | ⟨he, -⟩
      · cases (Base.accepted_inj (he.trans hid)).2
        exact hlaw.seeded.2
      · obtain ⟨k, hk⟩ := ht.counter_of_live
          (hw.parent_registered _ _ hm (b'.parent?_accepted (some m))) hm
        cases hc.symm.trans hk
      · cases (Base.accepted_inj he).2
        exact hlaw.seeded.1
    · cases hn'.symm.trans hn
      obtain ⟨hle, hm₀⟩ := h b' n₀ (by omega) hc
      obtain ⟨hnext, hgiven, hkept⟩ := hlaw.next _ n₀ hlt hle
      refine ⟨hnext, fun m hm ↦ ?_⟩
      rcases hmem _ hm with he | hm | ⟨-, hnone, -⟩
      · cases (Base.accepted_inj (he.trans hid)).2
        exact hgiven
      · exact hkept m (hm₀ m hm)
      · cases hnone.symm.trans hc
  · rw [hother b' hb] at hn
    have hle : acceptsOn b'.server log ≤ acceptsOn b'.server (log ++ effects) := by
      rw [hcount]
      split_ifs <;> omega
    obtain ⟨hn', hm'⟩ := h b' n (by omega) hn
    refine ⟨?_, fun m hm ↦ hm' m ?_⟩
    · rw [hcount]
      split_ifs
      · exact hlaw.more _ n hn'
      · exact hn'
    · obtain ⟨d, hd⟩ := ha.id_eq
      rcases hmem _ hm with he | hm | ⟨he, -⟩
      · exact (hb (Base.accepted_inj (he.trans hd)).1).elim
      · exact hm
      · exact (hb (Base.accepted_inj he).1).elim

end Counters

/-- Every law of the counters holds in every run with fewer than 2³² - 2 accepts on a server. -/
theorem counters_of_reachable {C : ℕ → UInt32 → Prop} {R : UInt32 → UInt32 → Prop}
    (hlaw : CounterLaw C R) {ok : World → Environment × RegistryInput → Prop} {w : World}
    (hw : ReachableBy registrySystem ok w) : Counters C R w.reg w.log := by
  refine registry_invariant (P := Counters C R) (fun b n _ hn ↦ by cases hn) ?_
    (fun order _ _ id h ↦ h.dropServer order id Registry.spawned_dropServer)
    (fun _ _ id h ↦ h.dropStream id Registry.spawned_dropStream) hw
  intro w env input effects reg' hr h _ _ hc
  have hquiet : ∀ text, (say text).spawned = none := fun _ ↦ rfl
  cases hc with
  | silent hs =>
    exact h.of_subset (fun _ _ hk ↦ hk) fun _ _ hn ↦
      ⟨hn, acceptsOn_append fun e he ↦ Registry.spawned_silent (hs e he)⟩
  | bindRefused =>
    exact h.of_subset (fun _ _ hk ↦ hk) fun _ _ hn ↦ ⟨hn, acceptsOn_append (by simp [Effect.spawned])⟩
  | serverOpened =>
    refine h.of_subset (fun _ _ hk ↦ hk) fun b n hn ↦ ?_
    obtain ⟨hid, hn⟩ := Registry.counter_openServer hn
    exact ⟨hn, acceptsOn_serverOpened hid⟩
  | connectRefused =>
    exact h.of_subset (fun _ _ hk ↦ hk) fun _ _ hn ↦ ⟨hn, acceptsOn_append (by simp [Effect.spawned])⟩
  | @clientOpened cmd id endpoint peer seq stream text ho =>
    have hid : id.base? = none := by
      unfold Registry.opensClient at ho
      split at ho <;> cases ho <;> rfl
    refine h.of_subset (fun b d hk ↦ (Finmap.mem_insert.mp hk).resolve_left fun he ↦ ?_)
      fun b n hn ↦ ⟨?_, acceptsOn_clientOpened (by rw [ConnectionId.parent?, hid]; rfl)⟩
    · have hb := b.base?_accepted d
      rw [he] at hb
      cases hid.symm.trans hb
    · exact (Registry.counter_congr (Registry.bookkeeping_insertStream _ _ _)).symm.trans hn
  | labelled =>
    rw [List.append_nil]
    intro b n hlt hn
    rw [Registry.counter_congr (Registry.bookkeeping_replaceLabel _ _ _ _ _)] at hn
    simpa only [Registry.mem_streams_replaceLabel] using h b n hlt hn
  | streamDropped =>
    exact h.dropStream _ (by
      simpa [or_imp, forall_and, hquiet] using Registry.spawned_dropStream)
  | serverDropped =>
    exact h.dropServer _ _ (by
      simpa [or_imp, forall_and, hquiet] using Registry.spawned_dropServer)
  | accepted hb ha =>
    obtain ⟨d, rfl⟩ := ha.id_eq
    exact h.accepted hlaw (wellFormed_of_reachable hr) (tracked_of_reachable hr) ha rfl
      fun _ ↦ acceptsOn_register

/-- The counter of a base and its live suffixes: the counter stays above them
except right after the second accept, when it repeats the suffix just given. -/
def Counted (reg : Registry) (log : List Effect) : Prop :=
  ∀ (b : Base) n, acceptsOn b.server log < 2 ^ 32 - 2 → reg.counter b = some n →
    n.toNat ≤ acceptsOn b.server log + 1 ∧
      ∀ m, b.accepted (some m) ∈ reg.streams → m.toNat ≤ n.toNat ∧ (m = n → n = 2)

theorem counted_of_reachable {ok : World → Environment × RegistryInput → Prop} {w : World}
    (hw : ReachableBy registrySystem ok w) : Counted w.reg w.log := by
  have hlaw : CounterLaw (fun k n ↦ n.toNat ≤ k + 1)
      fun m n ↦ m.toNat ≤ n.toNat ∧ (m = n → n = 2) := by
    refine ⟨fun k ↦ Nat.le_add_left 2 k, ⟨by decide, by decide⟩, fun k n h ↦ by omega, ?_⟩
    intro k n hk hn
    have hsucc : (n + 1).toNat = n.toNat + 1 := toNat_succ_u32 (by omega)
    have hstrict : ∀ m : UInt32, m.toNat ≤ n.toNat →
        m.toNat ≤ (n + 1).toNat ∧ (m = n + 1 → n + 1 = 2) := by
      refine fun m hm ↦ ⟨by omega, fun he ↦ ?_⟩
      subst he
      omega
    exact ⟨by omega, hstrict n le_rfl, fun m hm ↦ hstrict m hm.1⟩
  exact counters_of_reachable hlaw hw

def Rekeyed (before mid : HashMap ConnectionId StreamHandle) : Prop :=
  mid = before ∨ ∃ old newId h, before.lookup old = some h ∧ newId ∉ before ∧
    mid = (before.erase old).insert newId { h with state := { h.state with id := newId } }

/-- Exactly the streams of `before`, re-keyed at most once, and one more. -/
def AddsOneStream (before after : HashMap ConnectionId StreamHandle) (stream : BoxedStream) :
    Prop :=
  ∃ mid id h, Rekeyed before mid ∧ id ∉ mid ∧ h.stream = stream ∧ after = mid.insert id h

theorem Rekeyed.card_eq {before mid : HashMap ConnectionId StreamHandle} (h : Rekeyed before mid) :
    mid.keys.card = before.keys.card := by
  rcases h with rfl | ⟨old, newId, h, hold, hnew, rfl⟩
  · rfl
  · have hgone : newId ∉ before.erase old := fun hk ↦ hnew (Finmap.mem_erase.mp hk).2
    rw [card_keys_insert_of_not_mem hgone, card_keys_erase_of_mem (mem_of_lookup hold)]

theorem AddsOneStream.card_eq {before after : HashMap ConnectionId StreamHandle}
    {stream : BoxedStream} (h : AddsOneStream before after stream) :
    after.keys.card = before.keys.card + 1 := by
  obtain ⟨mid, id, s, hmid, hid, -, rfl⟩ := h
  rw [card_keys_insert_of_not_mem hid, hmid.card_eq]

namespace Registry

variable {reg reg' : Registry} {b : Base} {id : ConnectionId} {ev : Option NetEvent}

def FreshIds (reg : Registry) (b : Base) : Prop :=
  ∀ reg' id ev, reg.allocate b = some (reg', id, ev) →
    id ∉ reg'.streams ∧ ∀ newId old, ev = some (.renamed newId old) → newId ∉ reg.streams

def RepeatsSuffix (reg : Registry) (b : Base) : Prop :=
  reg.counter b = some 2 ∧ b.accepted (some 2) ∈ reg.streams

theorem not_live_of_unsuffixed {srv : ServerHandle} {old : ConnectionId} {m : UInt32}
    (ht : Tracked reg) (hsrv : reg.servers.lookup b.server = some srv)
    (hold : srv.baseNoSuffix.lookup b.key = some old) : b.accepted (some m) ∉ reg.streams :=
  fun hl ↦ ht.exclusive _ _ _ _ (reg.bookkeeping_of_lookup hsrv) (mem_of_lookup hold)
    (ht.live_suffixed b _ _ m (reg.bookkeeping_of_lookup hsrv) hl)

theorem Allocated.rename_fresh (ht : Tracked reg) (h : reg.Allocated b reg' id ev)
    {newId old : ConnectionId} (he : ev = some (.renamed newId old)) : newId ∉ reg.streams := by
  cases h with
  | first | next => cases he
  | second hsrv hold =>
    cases he
    exact not_live_of_unsuffixed ht hsrv hold

theorem Allocated.rekeyed (ht : Tracked reg) (h : reg.Allocated b reg' id ev) :
    Rekeyed reg.streams reg'.streams := by
  cases h with
  | first | next => exact .inl rfl
  | @second srv old _ hsrv hold hstreams =>
    rw [hstreams]
    cases hs : reg.streams.lookup old with
    | none => exact .inl (by simp only [renameAcceptedTcp, hs])
    | some s =>
      exact .inr ⟨old, b.accepted (some 1), s, hs, not_live_of_unsuffixed ht hsrv hold, by
        simp only [renameAcceptedTcp, hs]⟩

theorem Allocated.counter_of_renamed (ht : Tracked reg) (h : reg.Allocated b reg' id ev)
    (hev : ev ≠ none) : reg.counter b = none := by
  cases h with
  | first | next => exact (hev rfl).elim
  | second hsrv hold =>
    rw [counter_of_lookup hsrv]
    exact not_mem_iff_lookup.mp
      (ht.exclusive _ _ _ _ (reg.bookkeeping_of_lookup hsrv) (mem_of_lookup hold))

/-- The id an allocation returns is free, unless the counter names a live stream. -/
theorem Allocated.id_free (ht : Tracked reg) (h : reg.Allocated b reg' id ev)
    (hnext : ∀ n, reg.counter b = some n → b.accepted (some n) ∉ reg.streams) :
    id ∉ reg'.streams := by
  have hmem := fun k ↦ h.mem_streams (k := k) ht
  cases h with
  | first hsrv hbase =>
    exact fun hl ↦ hbase (ht.live_unsuffixed b _ _ (reg.bookkeeping_of_lookup hsrv) hl)
  | second hsrv hold =>
    intro hl
    rcases hmem _ hl with hl | ⟨he, -⟩
    · exact not_live_of_unsuffixed ht hsrv hold hl
    · cases (Base.accepted_inj he).2
  | next hsrv _ hn => exact hnext _ ((counter_of_lookup hsrv).trans hn)

theorem Allocated.fresh_iff {log : List Effect} (ht : Tracked reg) (hc : Counted reg log)
    (hcount : acceptsOn b.server log < 2 ^ 32 - 2) (h : reg.Allocated b reg' id ev) :
    id ∉ reg'.streams ↔ ¬reg.RepeatsSuffix b := by
  constructor
  · rintro hid ⟨htwo, hl⟩
    cases h with
    | first hsrv _ hnext =>
      rw [counter_of_lookup hsrv, not_mem_iff_lookup.mp hnext] at htwo
      cases htwo
    | second hsrv hold => exact not_live_of_unsuffixed ht hsrv hold hl
    | next hsrv _ hn =>
      cases ((counter_of_lookup hsrv).trans hn).symm.trans htwo
      exact hid hl
  · intro hr
    refine h.id_free ht fun n hn hl ↦ hr ?_
    cases ((hc b n hcount hn).2 n hl).2 rfl
    exact ⟨hn, hl⟩

theorem Allocated.adds_iff {env : Environment} {peerInfo : PeerInfo} {stream : BoxedStream}
    (ht : Tracked reg) (h : reg.Allocated b reg' id ev) :
    AddsOneStream reg.streams (register env b.server peerInfo stream (reg', id, ev)).1.streams
        stream ↔
      id ∉ reg'.streams := by
  refine ⟨fun hadds hl ↦ ?_, fun hid ↦ ⟨reg'.streams, id, _, h.rekeyed ht, hid, rfl, rfl⟩⟩
  have hcard := hadds.card_eq
  have hsame : (register env b.server peerInfo stream (reg', id, ev)).1.streams.keys.card =
      reg'.streams.keys.card := card_keys_insert_of_mem hl
  have hmid := (h.rekeyed ht).card_eq
  omega

end Registry

section Displacement

variable {w : World} {parent tentative : ConnectionId} {b : Base}

/-- Handling an accepted connection adds exactly one stream and displaces none
if and only if the suffix it is about to get is not the one just given. -/
theorem accepted_adds_one_stream_iff (hw : Reachable registrySystem w)
    (hb : Registry.acceptedBase parent tentative = some b) (hs : parent ∈ w.reg.servers)
    (hcount : acceptsOn parent w.log < 2 ^ 32 - 2) (env : Environment) (peerInfo : PeerInfo)
    (stream : BoxedStream) :
    ∃ reg' effects,
      w.reg.handleAccepted env parent tentative peerInfo stream = some (reg', effects) ∧
      (AddsOneStream w.reg.streams reg'.streams stream ↔ ¬w.reg.RepeatsSuffix b) ∧
      (w.reg.FreshIds b ↔ ¬w.reg.RepeatsSuffix b) := by
  obtain rfl := Registry.server_of_acceptedBase hb
  have ht := tracked_of_reachable hw
  obtain ⟨⟨reg₁, id, ev⟩, ha⟩ := Option.ne_none_iff_exists'.mp
    fun hn ↦ Registry.allocate_eq_none.mp hn hs
  have hall := Registry.allocate_cases ha
  have hfresh : id ∉ reg₁.streams ↔ ¬w.reg.RepeatsSuffix b :=
    hall.fresh_iff ht (counted_of_reachable hw) hcount
  refine ⟨_, _, by rw [Registry.handleAccepted_of_base hb, ha, Option.map_some], ?_, ?_⟩
  · rw [← hfresh]
    exact hall.adds_iff ht
  · rw [← hfresh]
    constructor
    · exact fun hids ↦ (hids _ _ _ ha).1
    · intro hid reg' id' ev' ha'
      cases ha.symm.trans ha'
      exact ⟨hid, fun _ _ he ↦ hall.rename_fresh ht he⟩

theorem second_accept_adds_one_stream :
    ∃ w, World.initial.play (fun _ _ ↦ true)
        [.command (.openTcpServer 3000), tcpHandoff 3000 10015 7] = some w ∧
      ∀ env, ∃ reg' effects, w.reg.handleAccepted env (.tcpServer 3000)
          (.acceptedTcp 3000 10015 none) (.tcpSocket "127.0.0.1:10015") 8 = some (reg', effects) ∧
        AddsOneStream w.reg.streams reg'.streams 8 := by
  have hrun : ∃ w ∈ World.initial.play (fun _ _ ↦ true)
      [.command (.openTcpServer 3000), tcpHandoff 3000 10015 7],
      .tcpServer 3000 ∈ w.reg.servers ∧ acceptsOn (.tcpServer 3000) w.log = 1 ∧
        w.reg.counter (.tcp 3000 10015) = none := by decide +kernel
  obtain ⟨w, hw, hs, hn, hcounter⟩ := hrun
  refine ⟨w, hw, fun env ↦ ?_⟩
  obtain ⟨reg', effects, ha, hadds, -⟩ := accepted_adds_one_stream_iff (reachable_play hw)
    (rfl : Registry.acceptedBase _ (.acceptedTcp 3000 10015 none) = _) hs (by omega) env
    (.tcpSocket "127.0.0.1:10015") 8
  exact ⟨reg', effects, ha, hadds.mpr fun hr ↦ by cases hcounter.symm.trans hr.1⟩

/-- Three accepts on one base leave two streams: the third takes the id of the second. -/
theorem third_accept_displaces_second :
    ∃ w w', World.initial.play (fun _ _ ↦ true) [.command (.openTcpServer 3000),
        tcpHandoff 3000 10015 7, tcpHandoff 3000 10015 8] = some w ∧
      w.play (fun _ _ ↦ true) [tcpHandoff 3000 10015 9] = some w' ∧
      .tcpServer 3000 ∈ w.reg.servers ∧ acceptsOn (.tcpServer 3000) w.log = 2 ∧
      ¬AddsOneStream w.reg.streams w'.reg.streams 9 := by
  have hrun : ∃ w ∈ World.initial.play (fun _ _ ↦ true) [.command (.openTcpServer 3000),
      tcpHandoff 3000 10015 7, tcpHandoff 3000 10015 8],
      ∃ w' ∈ w.play (fun _ _ ↦ true) [tcpHandoff 3000 10015 9],
        .tcpServer 3000 ∈ w.reg.servers ∧ acceptsOn (.tcpServer 3000) w.log = 2 ∧
          w.reg.streams.keys.card = 2 ∧ w'.reg.streams.keys.card = 2 := by decide +kernel
  obtain ⟨w, hw, w', hw', hs, hn, hcard, hcard'⟩ := hrun
  refine ⟨w, w', hw, hw', hs, hn, fun hadds ↦ ?_⟩
  have := hadds.card_eq
  omega

end Displacement

end WireDock
