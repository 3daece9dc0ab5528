import WireDock.Registry.Closing

namespace WireDock

open FiniteMap LabelledSystem

/-- The close command and the `Closed` event of a stream lead to one registry
and to one line, which carries the label there is. -/
structure ClosesAlike (w : World) (env env' : Environment) (token : String) (id : ConnectionId)
    (label : Option String) : Prop where
  registry : (w.handle env (.command (.close token))).reg =
    (w.handle env' (.event (.closed id))).reg
  line : ∃ l, w.lines (env, .command (.close token)) = [l] ∧
    w.lines (env', .event (.closed id)) = [l]
  labelled : ∀ name, label = some name →
    w.lines (env', .event (.closed id)) = [⟨s!"[{name}] CLOSED"⟩]

section Stream

variable {w : World} (env : Environment) {id typed : ConnectionId} {s : StreamHandle}
  {token : String}

/-- The close command reports the id as it was typed, whatever the label. -/
theorem handleInput_close (hw : WellFormed w.reg) (hs : w.reg.streams.lookup id = some s)
    (hr : w.reg.resolveId token defaultTokenParser = .ok typed)
    (he : w.reg.entryOf token typed = id) :
    ∃ reply, w.reg.handleInput env (.command (.close token)) = .running (w.reg.dropStream id).1
      ((w.reg.dropStream id).2 ++ [say s!"[{typed}] CLOSED"]) reply := by
  have hmem := mem_of_lookup hs
  refine ⟨some (.ok s!"closed {typed}"), ?_⟩
  simp only [Registry.handleInput, Registry.handleCommand, hr, he,
    if_neg (hw.stream_not_server hmem), if_pos hmem]

theorem handleInput_closed (hs : w.reg.streams.lookup id = some s) :
    w.reg.handleInput env (.event (.closed id)) = .running (w.reg.dropStream id).1
      ((w.reg.dropStream id).2 ++ [say s!"[{w.reg.displayName id}] CLOSED"]) none := by
  simp only [Registry.handleInput, Registry.handleEvent, Registry.onClosedEvent,
    if_pos (mem_of_lookup hs)]

variable {env}

theorem lines_of_drop {input : RegistryInput} {name : String} {reply : Option CommandOutcome}
    (h : w.reg.handleInput env input = .running (w.reg.dropStream id).1
      ((w.reg.dropStream id).2 ++ [say s!"[{name}] CLOSED"]) reply) :
    w.lines (env, input) = [⟨s!"[{name}] CLOSED"⟩] := by
  simp only [World.lines, h, Handling.effects, List.filterMap_append,
    Registry.displayed_dropStream]
  rfl

theorem displayName_of_stream (hw : WellFormed w.reg) (hs : w.reg.streams.lookup id = some s) :
    w.reg.displayName id = s.state.label.getD id.display := by
  have hv := not_mem_iff_lookup.mp (hw.stream_not_server (mem_of_lookup hs))
  cases hl : s.state.label with
  | some name => simp only [Registry.displayName, hs, Option.bind_some, hl, Option.getD_some]
  | none => simp only [Registry.displayName, hs, hv, Option.bind_some, Option.bind_none, hl,
      Option.getD_none]

end Stream

theorem closedLine_inj {name other : String}
    (h : [(⟨s!"[{name}] CLOSED"⟩ : DisplayLine)] = [⟨s!"[{other}] CLOSED"⟩]) : name = other := by
  have htext := congrArg DisplayLine.text (List.singleton_inj.mp h)
  exact String.append_right_inj _ |>.mp (String.append_left_inj _ |>.mp htext)

/-- In every state reached, an explicit close and a hang-up of a stream agree
if and only if what the stream is shown as, its label or else the id it is registered
under, is the id that the token resolves to as it is spelled. -/
theorem closes_alike_iff {w : World} (hw : Reachable registrySystem w) (env env' : Environment)
    {id typed : ConnectionId} {s : StreamHandle} {token : String}
    (hs : w.reg.streams.lookup id = some s)
    (hr : w.reg.resolveId token defaultTokenParser = .ok typed)
    (he : w.reg.entryOf token typed = id) :
    ClosesAlike w env env' token id s.state.label ↔
      s.state.label.getD id.display = typed.display := by
  have hwf := wellFormed_of_reachable hw
  obtain ⟨reply, hclose⟩ := handleInput_close env hwf hs hr he
  have hclosed := handleInput_closed env' hs
  rw [displayName_of_stream hwf hs] at hclosed
  have hlines := lines_of_drop hclose
  have hlines' := lines_of_drop hclosed
  constructor
  · rintro ⟨-, ⟨l, hl, hl'⟩, -⟩
    rw [hlines', ← hl, hlines] at hl'
    exact closedLine_inj hl'
  · intro hname
    refine ⟨?_, ⟨_, hlines, ?_⟩, fun name hl ↦ ?_⟩
    · rw [handle_running hclose, handle_running hclosed]
    · rw [hlines', hname]
    · rw [hlines', hl, Option.getD_some]

/-- The session of the README: the close reports the port, not the label. -/
theorem labelled_close_reports_id :
    ∃ w env s, World.initial.play (fun _ _ ↦ true)
        [.command (.openTcpClient 10016 "192.168.1.10" 22),
          .command (.label "10016" "ssh_target")] = some w ∧
      w.reg.streams.lookup (.tcpClient 10016) = some s ∧ s.state.label = some "ssh_target" ∧
      w.reg.resolveId "ssh_target" defaultTokenParser = .ok (.tcpClient 10016) ∧
      ¬ClosesAlike w env env "ssh_target" (.tcpClient 10016) s.state.label := by
  have hrun : ∃ w ∈ World.initial.play (fun _ _ ↦ true)
      [.command (.openTcpClient 10016 "192.168.1.10" 22),
        .command (.label "10016" "ssh_target")],
      w.reg.streamLabel (.tcpClient 10016) = some "ssh_target" ∧
        w.reg.resolveId "ssh_target" defaultTokenParser = .ok (.tcpClient 10016) ∧
        w.lines (.granting 2, .command (.close "ssh_target")) = [⟨"[10016] CLOSED"⟩] := by
    decide +kernel
  obtain ⟨w, hw, hlabel, hr, hlines⟩ := hrun
  obtain ⟨s, hs, hl⟩ := Option.bind_eq_some_iff.mp hlabel
  refine ⟨w, .granting 2, s, hw, hs, hl, hr, fun h ↦ ?_⟩
  obtain ⟨l, hclose, hclosed⟩ := h.line
  rw [h.labelled "ssh_target" hl] at hclosed
  rw [hlines, ← hclosed] at hclose
  exact absurd hclose (by decide)

theorem unlabelled_closes_alike :
    ∃ w s, World.initial.play (fun _ _ ↦ true) [.command (.openTcpServer 3000),
        tcpHandoff 3000 10015 7] = some w ∧
      w.reg.streams.lookup (.acceptedTcp 3000 10015 none) = some s ∧
      ∀ env env', ClosesAlike w env env' "3000.10015" (.acceptedTcp 3000 10015 none)
        s.state.label := by
  have hrun : ∃ w ∈ World.initial.play (fun _ _ ↦ true) [.command (.openTcpServer 3000),
      tcpHandoff 3000 10015 7],
      (w.reg.streams.lookup (.acceptedTcp 3000 10015 none)).map (·.state.label) = some none ∧
        w.reg.resolveId "3000.10015" defaultTokenParser = .ok (.acceptedTcp 3000 10015 none) ∧
        w.reg.entryOf "3000.10015" (.acceptedTcp 3000 10015 none) =
          .acceptedTcp 3000 10015 none := by decide +kernel
  obtain ⟨w, hw, hlabel, hr, he⟩ := hrun
  obtain ⟨s, hs, hl⟩ := Option.map_eq_some_iff.mp hlabel
  refine ⟨w, s, hw, hs, fun env env' ↦ ?_⟩
  refine (closes_alike_iff (reachable_play hw) env env' hs hr he).mpr ?_
  rw [hl, Option.getD_none]

/-- A connection closed under another spelling of its path is reported as it was typed. -/
example : ∃ w ∈ World.initial.play (fun _ _ ↦ true) [.command (.openIpcServer "/tmp/a"),
    ipcHandoff "/tmp/a" 5 7],
    .acceptedIpc "/tmp/a" 5 none ∈ w.reg.streams ∧
      w.lines (.granting 2, .command (.close "/tmp//a.5")) = [⟨"[/tmp//a.5] CLOSED"⟩] := by
  decide +kernel

end WireDock
