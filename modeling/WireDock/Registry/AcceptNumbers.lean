import WireDock.Registry.Ledger

namespace WireDock

open FiniteMap LabelledSystem

def ConnectionId.disambig? : ConnectionId → Option UInt32
  | acceptedTcp _ _ d | acceptedIpc _ _ d => d
  | _ => none

@[simp] theorem Base.disambig?_accepted (b : Base) (d : Option UInt32) :
    (b.accepted d).disambig? = d := by
  cases b <;> rfl

/-- One effect in the record of the suffixes given on a base: opening its server
starts the record, the read task of a connection accepted on it adds an entry. -/
def recordSuffix (b : Base) (given : List (Option UInt32)) : Effect → List (Option UInt32)
  | .spawnAccept _ id _ => if id = b.server then [] else given
  | .spawnRead _ id _ => if id.base? = some b then given ++ [id.disambig?] else given
  | _ => given

def suffixesOf (b : Base) (log : List Effect) : List (Option UInt32) :=
  log.foldl (recordSuffix b) []

def acceptsOf (b : Base) (log : List Effect) : ℕ := (suffixesOf b log).length

def suffixAfter : ℕ → Option UInt32
  | 0 => none
  | 1 => some 2
  | k => some (UInt32.ofNat k)

def marksAfter (b : Base) : ℕ → Option ConnectionId × Option UInt32
  | 0 => (none, none)
  | 1 => (some (b.accepted none), none)
  | k => (none, some (UInt32.ofNat k))

/-- The suffix is the position of the accept, but that the second and the third
of a base are both given `#2`. -/
theorem suffixAfter_eq_iff {j k : ℕ} (hj : j < 2 ^ 32) (hk : k < 2 ^ 32) :
    suffixAfter j = suffixAfter k ↔ j = k ∨ j = 1 ∧ k = 2 ∨ j = 2 ∧ k = 1 := by
  have hnat : ∀ m n : ℕ, m < 2 ^ 32 → n < 2 ^ 32 → (UInt32.ofNat m = UInt32.ofNat n ↔ m = n) := by
    intro m n hm hn
    rw [← UInt32.toNat_inj, UInt32.toNat_ofNat_of_lt' hm, UInt32.toNat_ofNat_of_lt' hn]
  have hform : ∀ n, suffixAfter n =
      if n = 0 then none else some (UInt32.ofNat (if n = 1 then 2 else n)) := by
    intro n
    match n with
    | 0 | 1 | n + 2 => rfl
  rw [hform, hform]
  by_cases hj₀ : j = 0 <;> by_cases hk₀ : k = 0
  · simp [hj₀, hk₀]
  · simp [hj₀, hk₀, Ne.symm hk₀]
  · simp [hj₀, hk₀]
  · rw [if_neg hj₀, if_neg hk₀, Option.some.injEq, hnat _ _ (by split_ifs <;> omega)
      (by split_ifs <;> omega)]
    split_ifs <;> omega

section Record

variable {b : Base} {log effects : List Effect}

theorem suffixesOf_append (h : ∀ e ∈ effects, e.spawned = none) :
    suffixesOf b (log ++ effects) = suffixesOf b log := by
  rw [suffixesOf, List.foldl_append]
  have hfold : ∀ given, effects.foldl (recordSuffix b) given = given := by
    induction effects with
    | nil => exact fun _ ↦ rfl
    | cons e effects ih =>
      intro given
      have he : recordSuffix b given e = given := by
        have hs := h e List.mem_cons_self
        cases e <;> first | rfl | cases hs
      rw [List.foldl_cons, he]
      exact ih (fun e' he' ↦ h e' (List.mem_cons_of_mem _ he')) given
  exact hfold _

theorem suffixesOf_serverOpened {id : ConnectionId} {endpoint : ServerEndpoint}
    {task : JoinHandle} {listener : AcceptLoop} {text : String} :
    suffixesOf b (log ++ [.bind endpoint, .spawnAccept task id listener, say text]) =
      if id = b.server then [] else suffixesOf b log := by
  rw [suffixesOf, List.foldl_append]
  rfl

theorem suffixesOf_clientOpened {id : ConnectionId} {endpoint : Endpoint} {task : JoinHandle}
    {stream : BoxedStream} {text : String} (h : id.base? = none) :
    suffixesOf b (log ++ [.connect endpoint, .spawnRead task id stream, say text]) =
      suffixesOf b log := by
  rw [suffixesOf, List.foldl_append]
  exact if_neg (by rw [h]; exact nofun)

theorem spawned_renamedLine (ev : Option NetEvent) :
    ∀ e ∈ Registry.renamedLine ev, e.spawned = none := by
  intro e he
  unfold Registry.renamedLine at he
  split at he
  · rw [List.mem_singleton.mp he]
    rfl
  · cases he

theorem suffixesOf_register {b' : Base} {env : Environment} {peerInfo : PeerInfo}
    {stream : BoxedStream} {reg : Registry} {d : Option UInt32} {ev : Option NetEvent} :
    suffixesOf b
        (log ++ (Registry.register env b'.server peerInfo stream (reg, b'.accepted d, ev)).2) =
      if b' = b then suffixesOf b log ++ [d] else suffixesOf b log := by
  have hrenamed : (log ++ Registry.renamedLine ev).foldl (recordSuffix b) [] = suffixesOf b log :=
    suffixesOf_append (spawned_renamedLine ev)
  rw [Registry.register, ← List.append_assoc, suffixesOf, List.foldl_append, hrenamed]
  simp [spawnStream, recordSuffix, say]

end Record

namespace Registry

def marks (reg : Registry) (b : Base) : Option (Option ConnectionId × Option UInt32) :=
  (reg.bookkeeping b.server).map fun maps ↦ (maps.1.lookup b.key, maps.2.lookup b.key)

variable {reg reg' : Registry} {b : Base}

theorem marks_of_lookup {srv : ServerHandle} (h : reg.servers.lookup b.server = some srv) :
    reg.marks b = some (srv.baseNoSuffix.lookup b.key, srv.disambigNext.lookup b.key) := by
  rw [marks, bookkeeping_of_lookup reg h, Option.map_some]

theorem marks_openServer {id : ConnectionId} {task : JoinHandle} {path : Option PathBuf} :
    ({ reg with servers := reg.servers.insert id (.opened id task path) } : Registry).marks b =
      if b.server = id then some (none, none) else reg.marks b := by
  rw [marks, bookkeeping_setServer]
  split_ifs <;> rfl

/-- An accept on a base moves the marks of that base on by one and no others. -/
theorem Allocated.marks {id : ConnectionId} {ev : Option NetEvent} {k : ℕ} (ht : Tracked reg)
    (h : reg.Allocated b reg' id ev) (hk : ∀ m ∈ reg.marks b, m = marksAfter b k) :
    id = b.accepted (suffixAfter k) ∧
      ev = (if k = 1 then some (.renamed (b.accepted (some 1)) (b.accepted none)) else none) ∧
      reg'.marks b = some (marksAfter b (k + 1)) ∧
      ∀ b', b' ≠ b → reg'.marks b' = reg.marks b' := by
  have hother : ∀ b' : Base, b' ≠ b → b'.server = b.server → b'.key ≠ b.key :=
    fun b' hne hs hkey ↦ hne (Base.key_inj hs hkey)
  cases h with
  | @first srv hsrv hbase hnext =>
    have hm := hk _ (marks_of_lookup hsrv)
    rw [not_mem_iff_lookup.mp hbase, not_mem_iff_lookup.mp hnext] at hm
    match k with
    | 0 =>
      refine ⟨rfl, rfl, ?_, fun b' hne ↦ ?_⟩
      · rw [Registry.marks, bookkeeping_setServer, if_pos rfl, Option.map_some, lookup_insert,
          if_pos rfl, not_mem_iff_lookup.mp hnext]
        rfl
      · rw [Registry.marks, bookkeeping_setServer]
        split_ifs with hs
        · rw [Option.map_some, lookup_insert, if_neg (hother b' hne hs)]
          exact (marks_of_lookup (by rwa [hs])).symm
        · rfl
    | 1 | k + 2 => cases hm
  | @second srv old _ hsrv hold _ hservers =>
    cases ht.lookup_base hsrv hold
    have hm := hk _ (marks_of_lookup hsrv)
    rw [hold] at hm
    match k with
    | 1 =>
      refine ⟨rfl, rfl, ?_, fun b' hne ↦ ?_⟩
      · rw [Registry.marks, bookkeeping_second hsrv hservers, if_pos rfl, Option.map_some,
          lookup_erase, if_pos rfl, lookup_insert, if_pos rfl]
        rfl
      · rw [Registry.marks, bookkeeping_second hsrv hservers]
        split_ifs with hs
        · rw [Option.map_some, lookup_erase, if_neg (hother b' hne hs), lookup_insert,
            if_neg (hother b' hne hs)]
          exact (marks_of_lookup (by rwa [hs])).symm
        · rfl
    | 0 | k + 2 => cases hm
  | @next srv n hsrv hbase hn =>
    have hm := hk _ (marks_of_lookup hsrv)
    rw [not_mem_iff_lookup.mp hbase, hn] at hm
    match k with
    | k + 2 =>
      obtain rfl : n = UInt32.ofNat (k + 2) := Option.some.inj (congrArg Prod.snd hm)
      refine ⟨rfl, rfl, ?_, fun b' hne ↦ ?_⟩
      · have hsucc : UInt32.ofNat (k + 2) + 1 = UInt32.ofNat (k + 3) :=
          (UInt32.ofNat_add (k + 2) 1).symm
        rw [Registry.marks, bookkeeping_setServer, if_pos rfl, Option.map_some, lookup_insert,
          if_pos rfl, not_mem_iff_lookup.mp hbase, hsucc]
        rfl
      · rw [Registry.marks, bookkeeping_setServer]
        split_ifs with hs
        · rw [Option.map_some, lookup_insert, if_neg (hother b' hne hs)]
          exact (marks_of_lookup (by rwa [hs])).symm
        · rfl
    | 0 | 1 => cases hm

end Registry

/-- The maps of every registered server count the accepts on each base, and each
was given the suffix of its place. -/
structure Recorded (reg : Registry) (log : List Effect) : Prop where
  marks : ∀ b, ∀ m ∈ reg.marks b, m = marksAfter b (acceptsOf b log)
  given : ∀ b, suffixesOf b log = (List.range (acceptsOf b log)).map suffixAfter

theorem Recorded.of_bookkeeping {reg reg' : Registry} {log effects : List Effect}
    (h : Recorded reg log)
    (hb : ∀ sid maps, reg'.bookkeeping sid = some maps → reg.bookkeeping sid = some maps)
    (he : ∀ b, suffixesOf b (log ++ effects) = suffixesOf b log) :
    Recorded reg' (log ++ effects) := by
  constructor
  · intro b m hm
    rw [acceptsOf, he]
    obtain ⟨maps, hmaps, rfl⟩ := Option.map_eq_some_iff.mp hm
    exact h.marks b _ (Option.map_eq_some_iff.mpr ⟨maps, hb _ maps hmaps, rfl⟩)
  · intro b
    rw [acceptsOf, he]
    exact h.given b

theorem Recorded.openServer {reg : Registry} {log : List Effect} (h : Recorded reg log)
    {id : ConnectionId} {endpoint : ServerEndpoint} {task : JoinHandle} {listener : AcceptLoop}
    {path : Option PathBuf} {text : String} :
    Recorded { reg with servers := reg.servers.insert id (.opened id task path) }
      (log ++ [.bind endpoint, .spawnAccept task id listener, say text]) := by
  constructor
  · intro b m hm
    rw [Registry.marks_openServer] at hm
    rw [acceptsOf, suffixesOf_serverOpened]
    by_cases hb : b.server = id
    · rw [if_pos hb] at hm
      rw [if_pos hb.symm]
      exact (Option.some.inj hm).symm
    · rw [if_neg hb] at hm
      rw [if_neg (Ne.symm hb)]
      exact h.marks b m hm
  · intro b
    rw [acceptsOf, suffixesOf_serverOpened]
    split_ifs
    · rfl
    · exact h.given b

theorem Recorded.accepted {reg reg' : Registry} {log : List Effect} (h : Recorded reg log)
    (ht : Tracked reg) {b : Base} {id : ConnectionId} {ev : Option NetEvent}
    (ha : reg.Allocated b reg' id ev) (env : Environment) (peerInfo : PeerInfo)
    (stream : BoxedStream) :
    Recorded (Registry.register env b.server peerInfo stream (reg', id, ev)).1
      (log ++ (Registry.register env b.server peerInfo stream (reg', id, ev)).2) := by
  obtain ⟨rfl, -, hown, hother⟩ := ha.marks ht (h.marks b)
  have hlength : ∀ b', acceptsOf b' (log ++ (Registry.register env b.server peerInfo stream
      (reg', b.accepted (suffixAfter (acceptsOf b log)), ev)).2) =
        if b = b' then acceptsOf b' log + 1 else acceptsOf b' log := by
    intro b'
    rw [acceptsOf, suffixesOf_register]
    split_ifs
    · exact List.length_append
    · rfl
  constructor
  · intro b' m hm
    have hmarks : ∀ s : StreamHandle, (reg'.insertStream s).marks b' = reg'.marks b' := fun s ↦
      congrArg (Option.map _) (Registry.bookkeeping_insertStream reg' s b'.server)
    replace hm : m ∈ reg'.marks b' := hmarks _ ▸ hm
    rw [hlength]
    by_cases he : b = b'
    · subst he
      rw [hown] at hm
      rw [if_pos rfl]
      exact (Option.some.inj hm).symm
    · rw [if_neg he]
      exact h.marks b' m (hother b' (Ne.symm he) ▸ hm)
  · intro b'
    rw [hlength, suffixesOf_register]
    by_cases he : b = b'
    · subst he
      rw [if_pos rfl, if_pos rfl, List.range_succ, List.map_append, ← h.given b]
      rfl
    · rw [if_neg he, if_neg he]
      exact h.given b'

theorem recorded_of_reachable {ok : World → Environment × RegistryInput → Prop} {w : World}
    (hw : ReachableBy registrySystem ok w) : Recorded w.reg w.log := by
  refine consistent_invariant (P := Recorded) ⟨fun b m hm ↦ (by cases hm), fun _ ↦ rfl⟩ ?_
    (fun order reg _ id _ _ h ↦ h.of_bookkeeping (fun _ _ ↦ reg.bookkeeping_dropServer)
      fun _ ↦ suffixesOf_append Registry.spawned_dropServer)
    (fun reg _ id _ _ h ↦ h.of_bookkeeping
      (fun sid _ hm ↦ reg.bookkeeping_dropStream id sid ▸ hm)
      fun _ ↦ suffixesOf_append Registry.spawned_dropStream) hw
  intro w env input effects reg' _ _ ht h _ hc
  cases hc with
  | silent hs =>
    exact h.of_bookkeeping (fun _ _ hm ↦ hm) fun _ ↦
      suffixesOf_append fun e he ↦ Registry.spawned_silent (hs e he)
  | bindRefused | connectRefused =>
    exact h.of_bookkeeping (fun _ _ hm ↦ hm) fun _ ↦ suffixesOf_append (by simp [Effect.spawned])
  | serverOpened => exact h.openServer
  | @clientOpened cmd id endpoint peer seq stream text ho =>
    have hid : id.base? = none := by
      unfold Registry.opensClient at ho
      split at ho <;> cases ho <;> rfl
    exact h.of_bookkeeping (fun sid _ hm ↦ (Registry.bookkeeping_insertStream _ _ sid) ▸ hm)
      fun _ ↦ suffixesOf_clientOpened hid
  | labelled =>
    exact h.of_bookkeeping (fun sid _ hm ↦ (Registry.bookkeeping_replaceLabel _ _ _ sid _) ▸ hm)
      fun _ ↦ suffixesOf_append (by simp)
  | streamDropped =>
    exact h.of_bookkeeping (fun sid _ hm ↦ (Registry.bookkeeping_dropStream _ _ sid) ▸ hm)
      fun _ ↦ suffixesOf_append (spawned_say Registry.spawned_dropStream)
  | serverDropped =>
    exact h.of_bookkeeping (fun _ _ ↦ Registry.bookkeeping_dropServer _)
      fun _ ↦ suffixesOf_append (spawned_say Registry.spawned_dropServer)
  | accepted hb ha => exact h.accepted ht ha _ _ _

def Base.nextId (b : Base) (log : List Effect) : ConnectionId :=
  b.accepted (suffixAfter (acceptsOf b log))

def Base.nextRename (b : Base) (log : List Effect) : Option NetEvent :=
  if acceptsOf b log = 1 then some (.renamed (b.accepted (some 1)) (b.accepted none)) else none

theorem allocated_next {w : World} (hw : Reachable registrySystem w) {b : Base}
    (hs : b.server ∈ w.reg.servers) :
    ∃ reg', w.reg.allocate b = some (reg', b.nextId w.log, b.nextRename w.log) := by
  cases ha : w.reg.allocate b with
  | none => exact (Registry.allocate_eq_none.mp ha hs).elim
  | some allocated =>
    obtain ⟨reg', id, ev⟩ := allocated
    obtain ⟨rfl, rfl, -⟩ := (Registry.allocate_cases ha).marks (tracked_of_reachable hw)
      ((recorded_of_reachable hw).marks b)
    exact ⟨reg', rfl⟩

/-- In every state reached, the connections accepted on a base since its server was
opened were given the suffixes of their places, whatever was closed, labelled or
renamed meanwhile: of the first 2³² no two share one but the second and the third.
The next one gets the suffix of its own, and the second takes the bare id back. -/
theorem accepts_numbered {w : World} (hw : Reachable registrySystem w) (b : Base) :
    suffixesOf b w.log = (List.range (acceptsOf b w.log)).map suffixAfter ∧
      (∀ j k, j < k → k < acceptsOf b w.log → k < 2 ^ 32 →
        ((suffixesOf b w.log)[j]? = (suffixesOf b w.log)[k]? ↔ j = 1 ∧ k = 2)) ∧
      ∀ env parent tentative peerInfo stream,
        Registry.acceptedBase parent tentative = some b → b.server ∈ w.reg.servers →
        ∃ reg', w.reg.handleInput env (.accepted parent tentative peerInfo stream) =
          .running reg'
            ((if acceptsOf b w.log = 1
                then [say s!"[{b.accepted (some 1)}] RENAMED {b.accepted none}"] else []) ++
              [.spawnRead env.spawn (b.nextId w.log) stream,
                say s!"[{b.nextId w.log}] ACCEPT peer={peerInfo.render}"]) none := by
  have hgiven := (recorded_of_reachable hw).given b
  refine ⟨hgiven, fun j k hjk hk hlt ↦ ?_, ?_⟩
  · have hat : ∀ i, i < acceptsOf b w.log →
        (suffixesOf b w.log)[i]? = some (suffixAfter i) := fun i hi ↦ by
      rw [hgiven, List.getElem?_map, List.getElem?_range hi, Option.map_some]
    rw [hat j (hjk.trans hk), hat k hk, Option.some.injEq, suffixAfter_eq_iff (hjk.trans hlt) hlt]
    omega
  intro env parent tentative peerInfo stream hb hs
  obtain ⟨reg', ha⟩ := allocated_next hw hs
  have hline : Registry.renamedLine (b.nextRename w.log) =
      if acceptsOf b w.log = 1 then [say s!"[{b.accepted (some 1)}] RENAMED {b.accepted none}"]
      else [] := by
    unfold Base.nextRename
    split_ifs <;> rfl
  refine ⟨(Registry.register env b.server peerInfo stream
    (reg', b.nextId w.log, b.nextRename w.log)).1, ?_⟩
  simp only [Registry.handleInput, Registry.handleAccepted_of_base hb, ha, Option.map_some,
    Registry.register, spawnStream, hline]

theorem accepts_numbered_after_close :
    ∃ w, World.initial.play (fun _ _ ↦ true) [.command (.openTcpServer 3000),
        tcpHandoff 3000 10015 7, tcpHandoff 3000 10015 8, .command (.close "3000.10015#2"),
        tcpHandoff 3000 10015 9, tcpHandoff 3000 10015 10] = some w ∧
      suffixesOf (.tcp 3000 10015) w.log =
        (List.range (acceptsOf (.tcp 3000 10015) w.log)).map suffixAfter ∧
      suffixesOf (.tcp 3000 10015) w.log = [none, some 2, some 2, some 3] := by
  have hrun : ∃ w ∈ World.initial.play (fun _ _ ↦ true) [.command (.openTcpServer 3000),
      tcpHandoff 3000 10015 7, tcpHandoff 3000 10015 8, .command (.close "3000.10015#2"),
      tcpHandoff 3000 10015 9, tcpHandoff 3000 10015 10],
      suffixesOf (.tcp 3000 10015) w.log = [none, some 2, some 2, some 3] := by decide +kernel
  obtain ⟨w, hw, hs⟩ := hrun
  exact ⟨w, hw, (accepts_numbered (reachable_play hw) _).1, hs⟩

end WireDock
