import WireDock.Registry.Labels

namespace WireDock

open FiniteMap LabelledSystem

namespace ConnectionId

def suffix : Option UInt32 → List Char
  | some n => '#' :: (toString n).toList
  | none => []

theorem display_tcpServer (port : UInt16) : (tcpServer port).display = toString port := rfl

theorem display_tcpClient (port : UInt16) : (tcpClient port).display = toString port := rfl

theorem display_ipcClient (seq : UInt32) :
    (ipcClient seq).display.toList = "ipc:".toList ++ (toString seq).toList := by
  simp only [display, String.toList_append]
  rfl

theorem display_acceptedTcp (parentPort remotePort : UInt16) (d : Option UInt32) :
    (acceptedTcp parentPort remotePort d).display.toList =
      (toString parentPort).toList ++ '.' :: ((toString remotePort).toList ++ suffix d) := by
  cases d <;>
  · simp only [display, String.toList_append, suffix, List.append_assoc, List.append_nil]
    rfl

theorem display_acceptedIpc (parentPath : PathBuf) (pid : Int32) (d : Option UInt32) :
    (acceptedIpc parentPath pid d).display.toList =
      parentPath.toList ++ '.' :: ((toString pid).toList ++ suffix d) := by
  cases d <;>
  · simp only [display, String.toList_append, suffix, List.append_assoc, List.append_nil]
    rfl

end ConnectionId

section Numerals

theorem parseU16_toString (n : UInt16) : parseU16 (toString n).toList = some n := by
  rw [parseU16, toList_toString_u16, Text.unsigned_toString, Option.bind_some,
    if_pos (UInt16.toNat_lt n), UInt16.ofNat_toNat]

theorem parseU32_toString (n : UInt32) : parseU32 (toString n).toList = some n := by
  have hn : Text.unsigned (toString n).toList = some n.toNat := Text.unsigned_toString n.toNat
  rw [parseU32, hn, Option.bind_some, if_pos (UInt32.toNat_lt n), UInt32.ofNat_toNat]

theorem parseI32_toString (n : Int32) : parseI32 (toString n).toList = some n := by
  have hn : Text.signed (toString n).toList = some n.toInt := Text.signed_toString n.toInt
  rw [parseI32, hn, Option.bind_some, if_pos ⟨Int32.le_toInt n, Int32.toInt_lt n⟩,
    Int32.ofInt_toInt]

variable {c : Char} {s : List Char}

theorem parseU16_eq_none (hc : c ∈ s) (hplus : c ≠ '+') (hdigit : c.isDigit = false) :
    parseU16 s = none := by
  unfold parseU16
  cases h : Text.unsigned s with
  | none => rfl
  | some n =>
    rcases Text.char_of_unsigned h hc with he | he
    · exact (hplus he).elim
    · cases hdigit.symm.trans he

end Numerals

section Typing

variable {token : String}

theorem dropPrefix_ipc_eq_none {c : Char} {cs : List Char} (h : c ≠ 'i') :
    Text.dropPrefix "ipc:".toList (c :: cs) = none := if_neg (Ne.symm h)

theorem defaultTokenParser_path (h : token.toList.head? = some '/') :
    defaultTokenParser token = parseDotted token.toList ++ [.ipcServer token] := by
  obtain ⟨cs, hcs⟩ := List.head?_eq_some_iff.mp h
  have hu : ∀ {r : List Char}, parseU16 ('/' :: r) = none :=
    parseU16_eq_none List.mem_cons_self (by decide) (by decide)
  have hs : parseSuffixed token.toList = none := by
    unfold parseSuffixed
    cases h₁ : Text.splitFirst '#' token.toList with
    | none => rfl
    | some p =>
      obtain ⟨left, right⟩ := p
      cases h₂ : Text.splitFirst '.' left with
      | none => simp [h₂]
      | some q =>
        obtain ⟨port, remote⟩ := q
        have h₃ := (Text.splitFirst_eq_some h₁).1
        rw [hcs, (Text.splitFirst_eq_some h₂).1, List.append_assoc] at h₃
        cases port with
        | nil => cases h₃
        | cons c port =>
          cases h₃
          simp [h₂, hu]
  unfold defaultTokenParser
  rw [hs, hcs, dropPrefix_ipc_eq_none (by decide), hu]
  rfl

theorem toString_u16_cons (n : UInt16) :
    ∃ c cs, (toString n).toList = c :: cs ∧ c.isDigit = true := by
  cases h : (toString n).toList with
  | nil =>
    have hn := parseU16_toString n
    rw [h] at hn
    cases hn
  | cons c cs => exact ⟨c, cs, rfl, char_of_mem_u16 (by rw [h]; exact List.mem_cons_self)⟩

theorem dropPrefix_ipc_of_port (n : UInt16) (rest : List Char) :
    Text.dropPrefix "ipc:".toList ((toString n).toList ++ rest) = none := by
  obtain ⟨c, cs, hc, hd⟩ := toString_u16_cons n
  rw [hc]
  exact dropPrefix_ipc_eq_none fun he ↦ absurd (he ▸ hd) (by decide)

theorem not_mem_u16 {c : Char} (n : UInt16) (h : c.isDigit = false) : c ∉ (toString n).toList :=
  fun hc ↦ by cases h.symm.trans (char_of_mem_u16 hc)

theorem defaultTokenParser_port (port : UInt16) :
    defaultTokenParser (toString port) = [.tcpServer port, .tcpClient port] := by
  have hi := dropPrefix_ipc_of_port port []
  rw [List.append_nil] at hi
  simp only [defaultTokenParser, hi, Option.bind_none, parseU16_toString]

theorem defaultTokenParser_ipcClient (seq : UInt32) :
    defaultTokenParser (ConnectionId.ipcClient seq).display = [.ipcClient seq] := by
  simp only [defaultTokenParser, ConnectionId.display_ipcClient, Text.dropPrefix_append,
    Option.bind_some, parseU32_toString]

theorem parseSuffixed_acceptedTcp (parentPort remotePort : UInt16) (n : UInt32) :
    parseSuffixed (ConnectionId.acceptedTcp parentPort remotePort (some n)).display.toList =
      some (.acceptedTcp parentPort remotePort (some n)) := by
  have hhash : '#' ∉ (toString parentPort).toList ++ '.' :: (toString remotePort).toList := by
    simp [not_mem_u16 parentPort (by decide : ('#' : Char).isDigit = false),
      not_mem_u16 remotePort (by decide : ('#' : Char).isDigit = false)]
  have hsplit := Text.splitFirst_append hhash (toString n).toList
  have hdot := Text.splitFirst_append (not_mem_u16 parentPort
    (by decide : ('.' : Char).isDigit = false)) (toString remotePort).toList
  rw [List.append_assoc, List.cons_append] at hsplit
  rw [ConnectionId.display_acceptedTcp, ConnectionId.suffix, parseSuffixed, hsplit]
  simp [hdot, parseU16_toString, parseU32_toString]

theorem defaultTokenParser_acceptedTcp (parentPort remotePort : UInt16) (d : Option UInt32) :
    defaultTokenParser (ConnectionId.acceptedTcp parentPort remotePort d).display =
      [.acceptedTcp parentPort remotePort d] := by
  have hdisplay := ConnectionId.display_acceptedTcp parentPort remotePort d
  have hi : Text.dropPrefix "ipc:".toList
      (ConnectionId.acceptedTcp parentPort remotePort d).display.toList = none := by
    rw [hdisplay, dropPrefix_ipc_of_port]
  have hu : parseU16 (ConnectionId.acceptedTcp parentPort remotePort d).display.toList = none := by
    rw [hdisplay]
    exact parseU16_eq_none (List.mem_append_right _ List.mem_cons_self) (by decide) (by decide)
  unfold defaultTokenParser
  rw [hi, hu]
  cases d with
  | some n =>
    rw [parseSuffixed_acceptedTcp]
    rfl
  | none =>
    have hdot : ∀ c : Char, c.isDigit = false → ∀ n : UInt16, c ∉ (toString n).toList :=
      fun c hc n ↦ not_mem_u16 n hc
    rw [ConnectionId.suffix, List.append_nil] at hdisplay
    have hs : parseSuffixed
        (ConnectionId.acceptedTcp parentPort remotePort none).display.toList = none := by
      have hhash : '#' ∉ (ConnectionId.acceptedTcp parentPort remotePort none).display.toList := by
        rw [hdisplay]
        simp [hdot '#' (by decide)]
      rw [parseSuffixed, Text.splitFirst_eq_none hhash]
      rfl
    have hslash : (toString parentPort).toList.head? ≠ some '/' := fun hh ↦
      hdot '/' (by decide) parentPort (List.mem_of_mem_head? hh)
    have hhead : ((toString parentPort).toList ++ '.' :: (toString remotePort).toList).head? ≠
        some '/' := by
      obtain ⟨c, cs, hc, -⟩ := toString_u16_cons parentPort
      rw [hc] at hslash ⊢
      exact hslash
    rw [hs, hdisplay]
    simp only [Option.bind_none, if_neg hhead, List.append_nil, parseDotted,
      Text.splitLast_append (hdot '.' (by decide) remotePort), parseU16_toString]
    split
    · exact (hslash ‹_›).elim
    · rfl

theorem defaultTokenParser_acceptedIpc {parentPath : PathBuf} (pid : Int32)
    (h : parentPath.toList.head? = some '/') :
    defaultTokenParser (ConnectionId.acceptedIpc parentPath pid none).display =
      [.acceptedIpc parentPath pid none,
        .ipcServer (ConnectionId.acceptedIpc parentPath pid none).display] := by
  have hdisplay := ConnectionId.display_acceptedIpc parentPath pid none
  rw [ConnectionId.suffix, List.append_nil] at hdisplay
  have hdot : '.' ∉ (toString pid).toList := fun hc ↦
    (char_of_mem_i32 hc).elim (fun he ↦ by cases he) fun he ↦ by cases he
  have hu : parseU16 parentPath.toList = none :=
    parseU16_eq_none (List.mem_of_mem_head? h) (by decide) (by decide)
  rw [defaultTokenParser_path (by rw [hdisplay, List.head?_append, h]; rfl), hdisplay, parseDotted,
    Text.splitLast_append hdot]
  simp only [h, hu, parseI32_toString, String.ofList_toList]
  rfl

theorem parseSuffixed_eq_some {s : List Char} {id : ConnectionId}
    (h : parseSuffixed s = some id) : ∃ parentPort remotePort d,
      id = .acceptedTcp parentPort remotePort d := by
  unfold parseSuffixed at h
  simp only [Option.bind_eq_bind, Option.bind_eq_some_iff, Option.pure_def,
    Option.some.injEq] at h
  obtain ⟨_, _, _, _, p, _, r, _, n, _, rfl⟩ := h
  exact ⟨p, r, some n, rfl⟩

theorem mem_parseDotted {s : List Char} {id : ConnectionId} (h : id ∈ parseDotted s) :
    (∃ parentPort remotePort, id = .acceptedTcp parentPort remotePort none) ∨
      ∃ path pid, id = .acceptedIpc path pid none ∧ path.toList.head? = some '/' := by
  unfold parseDotted at h
  split at h
  · cases h
  · rcases List.mem_append.mp h with h | h
    · split at h
      · exact .inl ⟨_, _, List.mem_singleton.mp h⟩
      · cases h
    · split at h
      · rename_i hhead _
        exact .inr ⟨_, _, List.mem_singleton.mp h, by rw [String.toList_ofList, hhead]⟩
      · cases h

/-- The parser reads paths off tokens that start with a slash, and no suffix of an IPC id. -/
theorem path_of_mem_defaultTokenParser {id : ConnectionId} (h : id ∈ defaultTokenParser token) :
    (∀ path, id = .ipcServer path → path = token ∧ path.toList.head? = some '/') ∧
      ∀ path pid d, id = .acceptedIpc path pid d → path.toList.head? = some '/' ∧ d = none := by
  unfold defaultTokenParser at h
  split at h
  · rw [List.mem_singleton.mp h]
    exact ⟨nofun, nofun⟩
  · split at h
    · rcases List.mem_cons.mp h with rfl | h
      · exact ⟨nofun, nofun⟩
      · rw [List.mem_singleton.mp h]
        exact ⟨nofun, nofun⟩
    · split at h
      · rename_i _ hs
        obtain ⟨_, _, _, rfl⟩ := parseSuffixed_eq_some hs
        rw [List.mem_singleton.mp h]
        exact ⟨nofun, nofun⟩
      · rcases List.mem_append.mp h with h | h
        · rcases mem_parseDotted h with ⟨_, _, rfl⟩ | ⟨path, pid, rfl, hpath⟩
          · exact ⟨nofun, nofun⟩
          · refine ⟨nofun, fun _ _ _ he ↦ ?_⟩
            cases he
            exact ⟨hpath, rfl⟩
        · split_ifs at h with hslash
          · rw [List.mem_singleton.mp h]
            refine ⟨fun _ he ↦ ?_, nofun⟩
            cases he
            exact ⟨rfl, hslash⟩
          · cases h

end Typing

/-- The ids whose spelling the token parser reads back: a path has to start
with a slash, and an id accepted over IPC has no suffix. -/
def ConnectionId.Addressable : ConnectionId → Prop
  | ipcServer path => path.toList.head? = some '/'
  | acceptedIpc parentPath _ disambig => parentPath.toList.head? = some '/' ∧ disambig = none
  | _ => True

/-- A printed id can be typed back if and only if it is addressable. -/
theorem mem_defaultTokenParser_display_iff (id : ConnectionId) :
    id ∈ defaultTokenParser id.display ↔ id.Addressable := by
  constructor
  · intro h
    obtain ⟨hserver, haccepted⟩ := path_of_mem_defaultTokenParser h
    cases id with
    | ipcServer path => exact (hserver path rfl).2
    | acceptedIpc parentPath pid d => exact haccepted parentPath pid d rfl
    | _ => trivial
  · intro h
    cases id with
    | tcpServer port =>
      rw [ConnectionId.display_tcpServer, defaultTokenParser_port]
      exact List.mem_cons_self
    | tcpClient port =>
      rw [ConnectionId.display_tcpClient, defaultTokenParser_port]
      exact List.mem_cons_of_mem _ List.mem_cons_self
    | ipcClient seq =>
      rw [defaultTokenParser_ipcClient]
      exact List.mem_cons_self
    | ipcServer path =>
      rw [ConnectionId.display, defaultTokenParser_path h]
      exact List.mem_append_right _ List.mem_cons_self
    | acceptedTcp parentPort remotePort d =>
      rw [defaultTokenParser_acceptedTcp]
      exact List.mem_cons_self
    | acceptedIpc parentPath pid d =>
      obtain ⟨hpath, rfl⟩ := h
      rw [defaultTokenParser_acceptedIpc pid hpath]
      exact List.mem_cons_self

def ipcHandoff (path : PathBuf) (pid : Int32) (stream : BoxedStream) : RegistryInput :=
  .accepted (.ipcServer path) (.acceptedIpc path pid none) (.ipcPid pid) stream

/-- Two peers of one process on an IPC server, neither of which can be typed. -/
theorem suffixed_ipc_id_not_typed_back :
    ∃ w, World.initial.play (fun _ _ ↦ true) [.command (.openIpcServer "/tmp/a.sock"),
        ipcHandoff "/tmp/a.sock" 42 7, ipcHandoff "/tmp/a.sock" 42 8] = some w ∧
      .acceptedIpc "/tmp/a.sock" 42 (some 1) ∈ w.reg.streams ∧
      .acceptedIpc "/tmp/a.sock" 42 (some 1) ∉ defaultTokenParser
        (ConnectionId.acceptedIpc "/tmp/a.sock" 42 (some 1)).display := by
  change ∃ w ∈ World.initial.play (fun _ _ ↦ true) [.command (.openIpcServer "/tmp/a.sock"),
      ipcHandoff "/tmp/a.sock" 42 7, ipcHandoff "/tmp/a.sock" 42 8],
      .acceptedIpc "/tmp/a.sock" 42 (some 1) ∈ w.reg.streams ∧
        .acceptedIpc "/tmp/a.sock" 42 (some 1) ∉ defaultTokenParser
          (ConnectionId.acceptedIpc "/tmp/a.sock" 42 (some 1)).display
  decide +kernel

end WireDock
