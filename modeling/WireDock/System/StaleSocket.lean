import WireDock.System.SocketFiles

namespace WireDock

open FiniteMap LabelledSystem

namespace FileSystem

variable {fs : FileSystem} {path : PathBuf}

theorem removeFile_eq_self_iff : fs.removeFile path = fs ↔
    ∀ entry node, fs.locate path = some entry → fs.nodes entry = some node →
      node = .directory := by
  constructor
  · intro h entry node hl hn
    by_contra hd
    have hgone : (fs.removeFile path).nodes entry = _ := nodes_removeFile entry
    rw [h, hn, if_pos ⟨hl, fun he ↦ hd (Option.some.inj he)⟩] at hgone
    cases hgone
  · intro h
    unfold removeFile
    cases hl : fs.locate path with
    | none => rfl
    | some entry =>
      by_cases hd : fs.nodes entry = some .directory
      · exact if_pos hd
      · have hnone : fs.nodes entry = none := by
          refine Option.eq_none_iff_forall_ne_some.mpr fun node hn ↦ hd ?_
          rw [hn, h entry node hl hn]
        simp only [if_neg hd, set]
        rw [← hnone, Function.update_eq_self]

theorem unlinkIfStale_eq_self_iff {allowed : Bool} : fs.unlinkIfStale allowed path = fs ↔
    ∀ entry node, fs.locate path = some entry → fs.nodes entry = some node →
      node = .directory ∨ allowed = false := by
  unfold unlinkIfStale
  cases allowed <;> simp [removeFile_eq_self_iff]

end FileSystem

/-- Of what stood on disk stale sockets are gone at most, and after a failure nothing is. -/
structure SparesFiles (live : AcceptLoop → Prop) (fs fs' : FileSystem) (success : Bool) :
    Prop where
  removed : ∀ entry node, fs.nodes entry = some node → fs'.nodes entry ≠ some node →
    ∃ listener, node = .socket listener ∧ ¬live listener
  failure : success = false → fs' = fs

/-- What stands at the path cannot be removed, or it is a stale socket and the
bind that follows is not refused. -/
def UnlinkHarmless (answer : BindAnswer) (live : AcceptLoop → Prop) (fs : FileSystem)
    (path : PathBuf) : Prop :=
  ∀ entry node, fs.locate path = some entry → fs.nodes entry = some node →
    (node = .directory ∨ answer.mayUnlink = false) ∨
      ∃ listener, node = .socket listener ∧ ¬live listener ∧ answer.refuse (.ipc path) = none

section Bind

variable {answer : BindAnswer} {live : AcceptLoop → Prop} {fs : FileSystem} {path : PathBuf}

theorem spares_of_error {e : DomainError}
    (hb : TokioListener.bind answer fs (.ipc path) =
      (.error e, fs.unlinkIfStale answer.mayUnlink path))
    (hstands : ∀ entry, (fs.unlinkIfStale answer.mayUnlink path).locate path = some entry →
      answer.refuse (.ipc path) = none →
      (fs.unlinkIfStale answer.mayUnlink path).nodes entry ≠ none) :
    SparesFiles live fs (TokioListener.bind answer fs (.ipc path)).2 false ↔
      UnlinkHarmless answer live fs path := by
  rw [hb]
  constructor
  · intro h entry node hl hn
    exact .inl (FileSystem.unlinkIfStale_eq_self_iff.mp (h.failure rfl) entry node hl hn)
  · intro h
    have hself : fs.unlinkIfStale answer.mayUnlink path = fs := by
      refine FileSystem.unlinkIfStale_eq_self_iff.mpr fun entry node hl hn ↦ ?_
      by_cases hallowed : answer.mayUnlink = false
      · exact .inr hallowed
      · -- a stale socket would not have stood in the way of the bind
        refine (h entry node hl hn).resolve_right ?_
        rintro ⟨listener, rfl, -, hr⟩
        have hlocate : (fs.unlinkIfStale answer.mayUnlink path).locate = fs.locate := by
          refine FileSystem.locate_unlinkIfStale fun e he target ↦ ?_
          cases hl.symm.trans he
          rw [hn]
          nofun
        refine hstands entry (by rw [hlocate, hl]) hr ?_
        rw [FileSystem.nodes_unlinkIfStale, if_pos ⟨by simpa using hallowed, hl, by simp [hn]⟩]
    exact ⟨fun entry node hn hne ↦ (hne (by rw [hself, hn])).elim, fun _ ↦ hself⟩

theorem spares_of_bound {entry : Entry} (hnew : ¬live answer.listener)
    (hr : answer.refuse (.ipc path) = none)
    (hgone : (fs.unlinkIfStale answer.mayUnlink path).nodes entry = none)
    (hb : TokioListener.bind answer fs (.ipc path) = (.ok answer.listener,
      (fs.unlinkIfStale answer.mayUnlink path).create entry answer.listener)) :
    SparesFiles live fs (TokioListener.bind answer fs (.ipc path)).2 true ↔
      UnlinkHarmless answer live fs path := by
  rw [hb]
  constructor
  · intro h e node he hn
    by_cases hstays : node = .directory ∨ answer.mayUnlink = false
    · exact .inl hstays
    have hremoved : (fs.unlinkIfStale answer.mayUnlink path).nodes e = none := by
      rw [FileSystem.nodes_unlinkIfStale, if_pos]
      rw [not_or, Bool.not_eq_false] at hstays
      exact ⟨hstays.2, he, fun hd ↦ hstays.1 (Option.some.inj (hn.symm.trans hd))⟩
    refine .inr ?_
    by_cases hsame : node = .socket answer.listener
    · exact ⟨answer.listener, hsame, hnew, hr⟩
    · obtain ⟨listener, hsocket, hstale⟩ := h.removed e node hn (by
        rw [FileSystem.nodes_create, hremoved]
        split_ifs
        · exact fun hs ↦ hsame (Option.some.inj hs).symm
        · nofun)
      exact ⟨listener, hsocket, hstale, hr⟩
  · intro h
    refine ⟨fun e node hn hne ↦ ?_, fun hf ↦ by cases hf⟩
    -- what is not there any more was removed from the path
    have hremoved : (fs.unlinkIfStale answer.mayUnlink path).nodes e ≠ some node := by
      intro hkept
      by_cases he : e = entry
      · rw [he, hgone] at hkept
        cases hkept
      · rw [FileSystem.nodes_create, if_neg he] at hne
        exact hne hkept
    rw [FileSystem.nodes_unlinkIfStale] at hremoved
    split_ifs at hremoved with hc
    · obtain ⟨hallowed, he, hd⟩ := hc
      have hleaves : ¬(node = .directory ∨ answer.mayUnlink = false) := by
        rw [not_or, hallowed]
        exact ⟨fun hdir ↦ hd (hdir ▸ hn), nofun⟩
      obtain ⟨listener, hsocket, hstale, -⟩ := (h e node he hn).resolve_left hleaves
      exact ⟨listener, hsocket, hstale⟩
    · exact (hremoved hn).elim

end Bind

/-- On a free id, opening an IPC server spares the files of the disk if and only
if the unlink before the bind is harmless. -/
theorem open_ipc_server_spares_iff {reg : Registry} {path : PathBuf}
    (hid : reg.keyOf (.ipcServer path) ∉ reg.servers) (answers : Answers) (fs : FileSystem)
    (live : AcceptLoop → Prop) (hnew : ¬live answers.bind.listener) :
    SparesFiles live fs
        (fs.performAll answers.bind
          (reg.handleCommand (answers.environment fs) (.openIpcServer path)).effects)
        (reg.handleCommand (answers.environment fs) (.openIpcServer path)).outcome.success ↔
      UnlinkHarmless answers.bind live fs path := by
  simp only [Registry.handleCommand, if_neg hid, Registry.openServer, Answers.environment]
  rcases @TokioListener.bind_ipc answers.bind fs path with
    ⟨entry, -, hr, hgone, hb⟩ | ⟨⟨e, hb⟩, hstands⟩
  · rw [show (TokioListener.bind answers.bind fs (.ipc path)).1 = .ok answers.bind.listener by
      rw [hb]]
    simp only
    rw [FileSystem.performAll_bind (by simp [say, Effect.touches])]
    exact spares_of_bound hnew hr hgone hb
  · rw [show (TokioListener.bind answers.bind fs (.ipc path)).1 = .error e by rw [hb]]
    simp only
    rw [FileSystem.performAll_bind (by simp)]
    exact spares_of_error hb hstands

def FileSystem.single (entry : Entry) (node : Node) : FileSystem :=
  FileSystem.empty.set entry (some node)

/-- A regular file at the path is lost, and a socket takes its place. -/
theorem open_ipc_server_takes_a_file :
    (Registry.new.handleCommand ((Answers.granting 0 []).environment
        (.single "/root/notes.txt" .regular)) (.openIpcServer "/root/notes.txt")).outcome.success =
      true ∧
    ∀ live, ¬SparesFiles live (.single "/root/notes.txt" .regular)
      ((FileSystem.single "/root/notes.txt" .regular).performAll (Answers.granting 0 []).bind
        (Registry.new.handleCommand ((Answers.granting 0 []).environment
          (.single "/root/notes.txt" .regular)) (.openIpcServer "/root/notes.txt")).effects)
      true := by
  refine ⟨by decide +kernel, fun live h ↦ ?_⟩
  obtain ⟨listener, hsocket, -⟩ := h.removed "/root/notes.txt" .regular (by decide)
    (by decide +kernel)
  cases hsocket

def FileSystem.leftover : FileSystem :=
  (FileSystem.single "/tmp/a.sock" (.socket 3)).set "/tmp/b.sock" (some (.socket 5))

theorem open_ipc_server_replaces_stale_socket :
    SparesFiles (· = 5) .leftover
      (FileSystem.leftover.performAll (Answers.granting 7 []).bind
        (Registry.new.handleCommand ((Answers.granting 7 []).environment .leftover)
          (.openIpcServer "/tmp/a.sock")).effects)
      (Registry.new.handleCommand ((Answers.granting 7 []).environment .leftover)
        (.openIpcServer "/tmp/a.sock")).outcome.success := by
  refine (open_ipc_server_spares_iff Finmap.notMem_empty (Answers.granting 7 []) .leftover (· = 5)
    (by decide)).mpr fun entry node hl hn ↦ ?_
  cases hl
  cases (show some (.socket 3) = some node from hn)
  exact .inr ⟨3, rfl, by decide, rfl⟩

end WireDock
