import WireDock.Domain.Event

namespace WireDock

inductive ErrorKind
  | addrInUse
  | other
deriving DecidableEq, Repr

structure IoError where
  kind : ErrorKind
  message : String
deriving DecidableEq, Repr

inductive InfraError
  | io (e : IoError)
  | addressInUse (address : String)
deriving DecidableEq, Repr

def InfraError.toDomain : InfraError → DomainError
  | addressInUse s => .idAlreadyInUse s
  | io e => .io s!"io error: {e.message}"

def bindError (address : String) (e : IoError) : DomainError :=
  match e.kind with
  | .addrInUse => InfraError.toDomain (.addressInUse address)
  | .other => InfraError.toDomain (.io e)

/-- A directory entry, under the canonical path of its directory. -/
abbrev Entry := String

/-- What the resolution of a path goes through on its way to the last component. -/
inductive Waypoint
  | directory
  | symlink (target : PathBuf)
deriving DecidableEq, Repr

inductive Node
  | regular
  | directory
  | symlink (target : PathBuf)
  | socket (listener : AcceptLoop)
deriving DecidableEq, Repr

def Node.waypoint : Node → Option Waypoint
  | directory => some .directory
  | symlink target => some (.symlink target)
  | _ => none

/-- The part of a file system the program can tell: what stands at each entry, and
which entry a path resolves to, given the directories and the links on the way. The
last component is not followed. `created` records where binds have put a socket file. -/
structure FileSystem where
  resolve : (Entry → Option Waypoint) → PathBuf → Option Entry
  nodes : Entry → Option Node
  created : List Entry

namespace FileSystem

def waypoints (fs : FileSystem) (entry : Entry) : Option Waypoint :=
  (fs.nodes entry).bind Node.waypoint

def locate (fs : FileSystem) (path : PathBuf) : Option Entry := fs.resolve fs.waypoints path

def set (fs : FileSystem) (entry : Entry) (node : Option Node) : FileSystem :=
  { fs with nodes := Function.update fs.nodes entry node }

def create (fs : FileSystem) (entry : Entry) (listener : AcceptLoop) : FileSystem :=
  { fs.set entry (some (.socket listener)) with created := fs.created ++ [entry] }

/-- `std::fs::remove_file`, its error ignored: whatever is not a directory goes, of a
symbolic link the link itself. -/
def removeFile (fs : FileSystem) (path : PathBuf) : FileSystem :=
  match fs.locate path with
  | none => fs
  | some entry => if fs.nodes entry = some .directory then fs else fs.set entry none

/-- `unlink_if_stale`: when the removal is not allowed, its error is ignored. -/
def unlinkIfStale (allowed : Bool) (fs : FileSystem) (path : PathBuf) : FileSystem :=
  if allowed then fs.removeFile path else fs

def bindUnix (fs : FileSystem) (listener : AcceptLoop) (path : PathBuf) :
    Except IoError AcceptLoop × FileSystem :=
  match fs.locate path with
  | none => (.error ⟨.other, "No such file or directory (os error 2)"⟩, fs)
  | some entry =>
    if (fs.nodes entry).isSome then
      (.error ⟨.addrInUse, "Address already in use (os error 98)"⟩, fs)
    else (.ok listener, fs.create entry listener)

end FileSystem

/-- What the kernel says to a bind beyond the contents of the file system:
whether a file at the path may be removed, an error of its own, if any, and the
handle of the new socket. -/
structure BindAnswer where
  mayUnlink : Bool
  refuse : ServerEndpoint → Option IoError
  listener : AcceptLoop

def TokioListener.bind (answer : BindAnswer) (fs : FileSystem) :
    ServerEndpoint → Except DomainError AcceptLoop × FileSystem
  | .tcp port =>
    match answer.refuse (.tcp port) with
    | some e => (.error (bindError s!"{port}" e), fs)
    | none => (.ok answer.listener, fs)
  | .ipc path =>
    let fs := fs.unlinkIfStale answer.mayUnlink path
    match answer.refuse (.ipc path) with
    | some e => (.error (bindError path e), fs)
    | none =>
      let bound := fs.bindUnix answer.listener path
      match bound.1 with
      | .ok listener => (.ok listener, bound.2)
      | .error e => (.error (bindError path e), bound.2)

namespace FileSystem

variable {fs : FileSystem} {path : PathBuf} {entry : Entry} {allowed : Bool}

theorem nodes_set (node : Option Node) (e : Entry) :
    (fs.set entry node).nodes e = if e = entry then node else fs.nodes e :=
  Function.update_apply ..

theorem nodes_create (listener : AcceptLoop) (e : Entry) : (fs.create entry listener).nodes e =
    if e = entry then some (.socket listener) else fs.nodes e := nodes_set ..

/-- Only directories and links have a part in where the paths lead. -/
theorem locate_set {node : Option Node} (h : fs.waypoints entry = node.bind Node.waypoint) :
    (fs.set entry node).locate = fs.locate := by
  have hsame : (fs.set entry node).waypoints = fs.waypoints := by
    funext e
    rw [waypoints, nodes_set]
    split_ifs with he
    · rw [he, h]
    · rfl
  funext p
  rw [locate, hsame]
  rfl

theorem locate_create (h : fs.nodes entry = none) (listener : AcceptLoop) :
    (fs.create entry listener).locate = fs.locate := locate_set (by rw [waypoints, h]; rfl)

theorem nodes_removeFile (e : Entry) :
    (fs.removeFile path).nodes e =
      if fs.locate path = some e ∧ fs.nodes e ≠ some .directory then none else fs.nodes e := by
  unfold removeFile
  cases hl : fs.locate path with
  | none => simp
  | some entry =>
    simp only [Option.some.injEq]
    by_cases hd : fs.nodes entry = some .directory
    · rw [if_pos hd]
      split_ifs with h
      · exact (h.2 (h.1 ▸ hd)).elim
      · rfl
    · rw [if_neg hd, nodes_set]
      by_cases he : e = entry
      · rw [if_pos he, he, if_pos ⟨rfl, hd⟩]
      · rw [if_neg he, if_neg fun h ↦ he h.1.symm]

@[simp] theorem created_removeFile : (fs.removeFile path).created = fs.created := by
  unfold removeFile
  split
  · rfl
  · split_ifs <;> rfl

/-- The paths lead where they led when no link is removed. -/
theorem locate_removeFile (h : ∀ e, fs.locate path = some e → ∀ target,
    fs.nodes e ≠ some (.symlink target)) : (fs.removeFile path).locate = fs.locate := by
  unfold removeFile
  cases hl : fs.locate path with
  | none => rfl
  | some entry =>
    by_cases hd : fs.nodes entry = some .directory
    · simp only [if_pos hd]
    · simp only [if_neg hd]
      refine locate_set ?_
      rw [waypoints]
      cases hn : fs.nodes entry with
      | none => rfl
      | some node =>
        cases node with
        | directory => exact (hd hn).elim
        | symlink target => exact (h entry hl target hn).elim
        | _ => rfl

theorem locate_unlinkIfStale (h : ∀ e, fs.locate path = some e → ∀ target,
    fs.nodes e ≠ some (.symlink target)) : (fs.unlinkIfStale allowed path).locate = fs.locate := by
  unfold unlinkIfStale
  split_ifs
  · exact locate_removeFile h
  · rfl

theorem nodes_unlinkIfStale (e : Entry) :
    (fs.unlinkIfStale allowed path).nodes e =
      if allowed = true ∧ fs.locate path = some e ∧ fs.nodes e ≠ some .directory then none
      else fs.nodes e := by
  cases allowed with
  | true =>
    simp only [true_and]
    exact nodes_removeFile e
  | false => rfl

@[simp] theorem created_unlinkIfStale : (fs.unlinkIfStale allowed path).created = fs.created := by
  unfold unlinkIfStale
  split_ifs
  · exact created_removeFile
  · rfl

/-- Nothing comes to stand where nothing stood. -/
theorem nodes_unlinkIfStale_cases (e : Entry) :
    (fs.unlinkIfStale allowed path).nodes e = none ∨
      (fs.unlinkIfStale allowed path).nodes e = fs.nodes e := by
  rw [nodes_unlinkIfStale]
  split_ifs
  · exact .inl rfl
  · exact .inr rfl

end FileSystem

namespace TokioListener

variable {answer : BindAnswer} {fs : FileSystem}

theorem bind_tcp (port : UInt16) : (bind answer fs (.tcp port)).2 = fs := by
  simp only [bind]
  cases answer.refuse (.tcp port) <;> rfl

/-- A bind on a path removes what stands there, if it may, and succeeds when
nothing stands then where the path leads and nothing else is refused. -/
theorem bind_ipc (path : PathBuf) :
    (∃ entry, (fs.unlinkIfStale answer.mayUnlink path).locate path = some entry ∧
      answer.refuse (.ipc path) = none ∧
      (fs.unlinkIfStale answer.mayUnlink path).nodes entry = none ∧
      bind answer fs (.ipc path) = (.ok answer.listener,
        (fs.unlinkIfStale answer.mayUnlink path).create entry answer.listener)) ∨
    (∃ e, bind answer fs (.ipc path) =
        (.error e, fs.unlinkIfStale answer.mayUnlink path)) ∧
      ∀ entry, (fs.unlinkIfStale answer.mayUnlink path).locate path = some entry →
        answer.refuse (.ipc path) = none →
        (fs.unlinkIfStale answer.mayUnlink path).nodes entry ≠ none := by
  simp only [bind]
  cases hr : answer.refuse (.ipc path) with
  | some e => exact .inr ⟨⟨_, rfl⟩, fun _ _ h ↦ by cases h⟩
  | none =>
    simp only [FileSystem.bindUnix]
    cases hl : (fs.unlinkIfStale answer.mayUnlink path).locate path with
    | none => exact .inr ⟨⟨_, rfl⟩, fun _ h ↦ by cases h⟩
    | some entry =>
      by_cases hn : ((fs.unlinkIfStale answer.mayUnlink path).nodes entry).isSome = true
      · simp only [if_pos hn]
        refine .inr ⟨⟨_, rfl⟩, fun e he _ hnone ↦ ?_⟩
        cases he
        rw [hnone] at hn
        cases hn
      · simp only [if_neg hn]
        exact .inl ⟨entry, rfl, trivial, Option.not_isSome_iff_eq_none.mp hn, rfl⟩

theorem eq_listener_of_bind {endpoint : ServerEndpoint} {listener : AcceptLoop}
    (h : (bind answer fs endpoint).1 = .ok listener) : listener = answer.listener := by
  cases endpoint with
  | tcp port =>
    simp only [bind] at h
    cases hr : answer.refuse (.tcp port) <;> simp only [hr] at h <;> cases h
    rfl
  | ipc path =>
    rcases @bind_ipc answer fs path with ⟨entry, -, -, -, hb⟩ | ⟨⟨e, hb⟩, -⟩ <;>
      rw [hb] at h <;> cases h
    rfl

end TokioListener

end WireDock
