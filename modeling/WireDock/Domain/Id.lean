import WireDock.Library.Text

namespace WireDock

/-- A path as it is spelled, which is how it is printed and what the file system is asked for.
`==` on two paths compares their `components`. -/
abbrev PathBuf := String

/-- `Path::components`: whether the path starts at the root, and the names on it. A `.` is a
name at the head of a relative path only. -/
def PathBuf.components (path : PathBuf) : Bool × List (List Char) :=
  let pieces := path.toList.splitOn '/'
  let names := pieces.filter fun name ↦ name ≠ [] ∧ name ≠ ['.']
  (path.toList.head? = some '/', if pieces.head? = some ['.'] then ['.'] :: names else names)

example : PathBuf.components "/tmp//./a.sock/" = PathBuf.components "/tmp/a.sock" := by decide

inductive ConnectionId
  | tcpServer (port : UInt16)
  | ipcServer (path : PathBuf)
  | tcpClient (localPort : UInt16)
  | ipcClient (seq : UInt32)
  | acceptedTcp (parentPort remotePort : UInt16) (disambig : Option UInt32)
  | acceptedIpc (parentPath : PathBuf) (pid : Int32) (disambig : Option UInt32)
deriving DecidableEq, Repr

namespace ConnectionId

def isServer : ConnectionId → Bool
  | tcpServer _ | ipcServer _ => true
  | _ => false

def display : ConnectionId → String
  | tcpServer port => s!"{port}"
  | ipcServer path => path
  | tcpClient localPort => s!"{localPort}"
  | ipcClient seq => s!"ipc:{seq}"
  | acceptedTcp parentPort remotePort (some n) => s!"{parentPort}.{remotePort}#{n}"
  | acceptedTcp parentPort remotePort none => s!"{parentPort}.{remotePort}"
  | acceptedIpc parentPath pid (some n) => s!"{parentPath}.{pid}#{n}"
  | acceptedIpc parentPath pid none => s!"{parentPath}.{pid}"

instance : ToString ConnectionId := ⟨display⟩

def compared : ConnectionId → ConnectionId × Option (Bool × List (List Char))
  | ipcServer path => (ipcServer "", some (PathBuf.components path))
  | acceptedIpc parentPath pid disambig =>
    (acceptedIpc "" pid disambig, some (PathBuf.components parentPath))
  | id => (id, none)

/-- `==` on ids, which is not the equality of their spellings. -/
def Same (id id' : ConnectionId) : Prop := id.compared = id'.compared

instance (id id' : ConnectionId) : Decidable (id.Same id') :=
  inferInstanceAs (Decidable (id.compared = id'.compared))

end ConnectionId

/-- The part of an accepted id that two connections can share: the server
that accepted them and the remote port or pid they came from. -/
inductive Base
  | tcp (parentPort remotePort : UInt16)
  | ipc (parentPath : PathBuf) (pid : Int32)
deriving DecidableEq, Repr

namespace Base

def server : Base → ConnectionId
  | tcp parentPort _ => .tcpServer parentPort
  | ipc parentPath _ => .ipcServer parentPath

def accepted : Base → Option UInt32 → ConnectionId
  | tcp parentPort remotePort, d => .acceptedTcp parentPort remotePort d
  | ipc parentPath pid, d => .acceptedIpc parentPath pid d

/-- The key of a base in the maps `disambig_next` and `base_no_suffix`. -/
def key : Base → String
  | tcp parentPort remotePort => s!"{parentPort}.{remotePort}"
  | ipc parentPath pid => s!"{parentPath}.{pid}"

end Base

namespace ConnectionId

def base? : ConnectionId → Option Base
  | acceptedTcp parentPort remotePort _ => some (.tcp parentPort remotePort)
  | acceptedIpc parentPath pid _ => some (.ipc parentPath pid)
  | _ => none

def parent? (id : ConnectionId) : Option ConnectionId := id.base?.map Base.server

end ConnectionId

namespace Base

@[simp] theorem base?_accepted (b : Base) (d : Option UInt32) : (b.accepted d).base? = some b := by
  cases b <;> rfl

@[simp] theorem parent?_accepted (b : Base) (d : Option UInt32) :
    (b.accepted d).parent? = some b.server := by
  cases b <;> rfl

@[simp] theorem isServer_accepted (b : Base) (d : Option UInt32) :
    (b.accepted d).isServer = false := by
  cases b <;> rfl

theorem accepted_inj {b b' : Base} {d d' : Option UInt32}
    (h : b.accepted d = b'.accepted d') : b = b' ∧ d = d' := by
  cases b <;> cases b' <;> cases h <;> exact ⟨rfl, rfl⟩

theorem accepted_ne {b : Base} {d d' : Option UInt32} (h : d ≠ d') :
    b.accepted d ≠ b.accepted d' := fun he ↦ h (accepted_inj he).2

end Base

theorem ConnectionId.exists_accepted {id : ConnectionId} {b : Base} (h : id.base? = some b) :
    ∃ d, id = b.accepted d := by
  cases id with
  | acceptedTcp parentPort remotePort d | acceptedIpc parentPath pid d =>
    cases h
    exact ⟨d, rfl⟩
  | _ => cases h

section Printing

theorem toList_toString_u16 (n : UInt16) : (toString n).toList = (toString n.toNat).toList := rfl

theorem toString_u16_inj {m n : UInt16} (h : toString m = toString n) : m = n :=
  UInt16.toNat_inj.mp (Text.toString_nat_inj h)

theorem toString_u32_inj {m n : UInt32} (h : toString m = toString n) : m = n :=
  UInt32.toNat_inj.mp (Text.toString_nat_inj h)

theorem toString_i32_inj {m n : Int32} (h : toString m = toString n) : m = n :=
  Int32.toInt_inj.mp (Text.toString_int_inj h)

theorem char_of_mem_u16 {c : Char} {n : UInt16} (h : c ∈ (toString n).toList) :
    c.isDigit = true := Text.isDigit_of_mem_toString (n := n.toNat) h

theorem char_of_mem_u32 {c : Char} {n : UInt32} (h : c ∈ (toString n).toList) :
    c.isDigit = true := Text.isDigit_of_mem_toString (n := n.toNat) h

theorem char_of_mem_i32 {c : Char} {n : Int32} (h : c ∈ (toString n).toList) :
    c = '-' ∨ c.isDigit = true := Text.mem_toString_int (i := n.toInt) h

end Printing

/-- On one server the key determines the base. -/
theorem Base.key_inj {b b' : Base} (hs : b.server = b'.server) (hk : b.key = b'.key) : b = b' := by
  cases b with
  | tcp p r =>
    cases b' with
    | tcp p' r' =>
      cases hs
      have h := String.append_right_inj _ |>.mp hk
      rw [toString_u16_inj h]
    | ipc => cases hs
  | ipc p r =>
    cases b' with
    | tcp => cases hs
    | ipc p' r' =>
      cases hs
      have h := String.append_right_inj _ |>.mp hk
      rw [toString_i32_inj h]

end WireDock
