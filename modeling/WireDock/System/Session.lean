import WireDock.System.Reopen
import WireDock.System.Transcript

namespace WireDock

open LabelledSystem

def command? (line : String) : Option Command :=
  match parseLine line with
  | .ok cmd => cmd
  | .error _ => none

/-- What the REPL shows for the lines typed in: an error for each one it does
not understand, and for each command the next outcome, up to the first command
that has none yet. -/
def dialogue : List String → List CommandOutcome → List DisplayLine
  | [], _ => []
  | line :: lines, outcomes =>
    match parseLine line with
    | .ok none => dialogue lines outcomes
    | .ok (some _) =>
      match outcomes with
      | outcome :: outcomes => outcome.line :: dialogue lines outcomes
      | [] => []
    | .error e => ⟨s!"ERR {e}"⟩ :: dialogue lines outcomes

def ConsoleAction.typed : ConsoleAction → Option String
  | submit line => some line
  | _ => none

def Console.handles (c : Console) (a : ConsoleAction) : Option (Command × CommandOutcome) :=
  match a, c.machine.queue.head? with
  | .take answers, some ⟨.command cmd, _⟩ =>
    (c.handling answers (.command cmd)).reply.map (cmd, ·)
  | _, _ => none

def typed (hist : History) : List String := hist.filterMap fun p ↦ p.2.typed

def handled (hist : History) : List (Command × CommandOutcome) :=
  hist.filterMap fun p ↦ p.1.handles p.2

def Message.command? (msg : Message) : Option Command :=
  match msg.input with
  | .command cmd => some cmd
  | _ => none

def Repl.commands : Repl → List Command
  | sending cmd => [cmd]
  | _ => []

def RegistryTask.reply : RegistryTask → Option CommandOutcome
  | displaying _ reply => reply
  | receiving => none

def Console.unhandled (c : Console) : List Command :=
  c.machine.queue.filterMap Message.command? ++ c.repl.commands

def Console.owed (c : Console) : List CommandOutcome :=
  c.reply.toList ++ c.registry.reply.toList

def Repl.asking : Repl → Bool
  | sending _ | awaiting => true
  | _ => false

/-- Once every command of the first lines is answered, the rest goes on by itself. -/
theorem dialogue_append {before after : List String} {outcomes later : List CommandOutcome}
    (h : (before.filterMap command?).length = outcomes.length) :
    dialogue (before ++ after) (outcomes ++ later) =
      dialogue before outcomes ++ dialogue after later := by
  induction before generalizing outcomes with
  | nil =>
    cases List.length_eq_zero_iff.mp h.symm
    rfl
  | cons line before ih =>
    simp only [List.cons_append, dialogue]
    cases hl : parseLine line with
    | error e =>
      rw [List.filterMap_cons_none (by simp only [command?, hl])] at h
      simp only [ih h, List.cons_append]
    | ok cmd =>
      cases cmd with
      | none =>
        rw [List.filterMap_cons_none (by simp only [command?, hl])] at h
        exact ih h
      | some cmd =>
        rw [List.filterMap_cons_some (b := cmd) (by simp only [command?, hl])] at h
        cases outcomes with
        | nil => cases h
        | cons outcome outcomes => simp only [List.cons_append, ih (Nat.succ.inj h)]

def Screen.replies (s : Screen) : List DisplayLine :=
  (s.entered.map Prod.snd).filter fun line ↦ !line.isEvent

/-- The commands handled and those on their way are the ones typed in; the outcomes
the REPL has taken and those owed to it are theirs; and it has shown what it took. -/
structure Conversing (hist : History) (c : Console) : Prop where
  asked : (typed hist).filterMap command? = (handled hist).map Prod.fst ++ c.unhandled
  turn : ∃ before current taken, typed hist = before ++ current ∧
    (before.filterMap command?).length = taken.length ∧
    (handled hist).map Prod.snd = taken ++ c.owed ∧
    (Screen.of hist).replies ++ c.repl.lines = dialogue before taken ∧
    if c.repl.asking then ∃ line cmd, current = [line] ∧ parseLine line = .ok (some cmd)
    else current = []

section Steps

variable {caps : Capacities} {c c' : Console} {a : ConsoleAction} {hist : History}

theorem typed_eq (hist : History) :
    typed hist = (hist.map Prod.snd).filterMap ConsoleAction.typed := by
  rw [List.filterMap_map]
  rfl

theorem typed_append (hist : History) (p : Console × ConsoleAction) :
    typed (hist ++ [p]) = typed hist ++ p.2.typed.toList := by
  rw [typed, List.filterMap_append, ← typed]
  cases h : p.2.typed <;> simp [h]

theorem handled_append (hist : History) (p : Console × ConsoleAction) :
    handled (hist ++ [p]) = handled hist ++ (p.1.handles p.2).toList := by
  rw [handled, List.filterMap_append, ← handled]
  cases h : p.1.handles p.2 <;> simp [h]

theorem isCommand_eq (msg : Message) : msg.isCommand = msg.command?.isSome := by
  unfold Message.isCommand Message.command?
  cases msg.input <;> rfl

theorem countP_isCommand (queue : List Message) :
    queue.countP Message.isCommand = (queue.filterMap Message.command?).length := by
  rw [List.length_filterMap_eq_countP, ← funext isCommand_eq]

theorem length_reply (registry : RegistryTask) :
    registry.replies = registry.reply.toList.length := by
  cases registry with
  | receiving => rfl
  | displaying lines reply => cases reply <;> rfl

/-- At most one command is on its way, and none when the REPL asks for none. -/
theorem outstanding_eq (c : Console) : c.outstanding =
    (c.machine.queue.filterMap Message.command?).length + c.owed.length := by
  rw [Console.outstanding, countP_isCommand, length_reply, Console.owed, List.length_append]
  omega

theorem nothing_outstanding (h : c.outstanding = 0) :
    c.machine.queue.filterMap Message.command? = [] ∧ c.owed = [] := by
  rw [outstanding_eq] at h
  exact ⟨List.length_eq_zero_iff.mp (by omega), List.length_eq_zero_iff.mp (by omega)⟩

theorem reply_eq_none (h : c.owed = []) : c.reply = none := by
  have hreply := (List.append_eq_nil_iff.mp h).1
  cases hc : c.reply with
  | none => rfl
  | some outcome =>
    rw [hc] at hreply
    cases hreply

theorem Awaited.owed_le (h : Awaited c) (hrunning : c.machine.world.phase = .running) :
    c.owed.length ≤ 1 := by
  have hle := h hrunning
  rw [outstanding_eq] at hle
  split_ifs at hle <;> omega

theorem commands_traffic {action : Action} (hn : c.next caps (.traffic action) = some c') :
    c'.machine.queue.filterMap Message.command? = c.machine.queue.filterMap Message.command? := by
  simp only [Console.next] at hn
  split at hn
  · cases hn
  · cases hn
  · rename_i hcmd hhandle
    obtain ⟨machine, hm, rfl⟩ := Option.map_eq_some_iff.mp hn
    rcases queue_step (Machine.step_of_next hm) with ⟨-, new, hq, -, hnew⟩ | ⟨answers, _, rfl, -⟩
    · have hnone : new.filterMap Message.command? = [] := by
        refine List.filterMap_eq_nil_iff.mpr fun msg hmem ↦ ?_
        have hother := (hnew msg hmem).isCommand hcmd
        rw [isCommand_eq] at hother
        exact Option.not_isSome_iff_eq_none.mp (by simp [hother])
      rw [hq, List.filterMap_append, hnone, List.append_nil]
    · exact (hhandle answers rfl).elim

theorem replies_emit {line : DisplayLine} (h : line.isEvent = true) (s : Screen)
    (cause : Option Message) :
    Screen.replies { s with entered := s.entered ++ [(cause, line)] } = s.replies := by
  simp [Screen.replies, h]

theorem replies_display {line : DisplayLine} (h : line.isEvent = false) (s : Screen)
    (cause : Option Message) :
    Screen.replies { s with entered := s.entered ++ [(cause, line)] } = s.replies ++ [line] := by
  simp [Screen.replies, h]

theorem Conversing.moved {p : Console × ConsoleAction} (h : Conversing hist c)
    (ht : p.2.typed = none) (hh : p.1.handles p.2 = none) (hu : c'.unhandled = c.unhandled)
    (ho : c'.owed = c.owed)
    (hs : ((Screen.of hist).observe p).replies ++ c'.repl.lines =
      (Screen.of hist).replies ++ c.repl.lines)
    (ha : c'.repl.asking = c.repl.asking) : Conversing (hist ++ [p]) c' := by
  have htyped : typed (hist ++ [p]) = typed hist := by
    rw [typed_append, ht, Option.toList_none, List.append_nil]
  have hhandled : handled (hist ++ [p]) = handled hist := by
    rw [handled_append, hh, Option.toList_none, List.append_nil]
  refine ⟨?_, ?_⟩
  · rw [htyped, hhandled, hu]
    exact h.asked
  · rw [htyped, hhandled, ho, screen_append, hs, ha]
    exact h.turn

theorem Conversing.submit {line : String} (h : Conversing hist c) (hrepl : c.repl = .reading)
    (hnone : c.outstanding = 0) :
    Conversing (hist ++ [(c, .submit line)]) (c.submit line) := by
  obtain ⟨hasked, before, current, taken, htyped, hlen, htaken, hshown, hcurrent⟩ := h
  obtain ⟨hqueue, howed⟩ := nothing_outstanding hnone
  rw [hrepl] at hshown hcurrent
  cases hcurrent
  have hlines : typed (hist ++ [(c, .submit line)]) = before ++ [line] := by
    rw [typed_append, htyped, List.append_nil]
    rfl
  have hhandled : handled (hist ++ [(c, .submit line)]) = handled hist := by
    rw [handled_append]
    exact List.append_nil _
  have hreplies : (Screen.of (hist ++ [(c, .submit line)])).replies = (Screen.of hist).replies := by
    rw [screen_append]
    rfl
  have hgo : dialogue (before ++ [line]) taken = dialogue before taken ++ dialogue [line] [] := by
    rw [← dialogue_append hlen, List.append_nil]
  replace hasked : before.filterMap command? = (handled hist).map Prod.fst := by
    rw [htyped, List.append_nil, Console.unhandled, hqueue, hrepl] at hasked
    exact hasked.trans (List.append_nil _)
  unfold Console.submit
  cases hparse : parseLine line with
  | error e =>
    have hcmd : command? line = none := by simp only [command?, hparse]
    refine ⟨?_, before ++ [line], [], taken, by rw [hlines, List.append_nil], ?_, ?_, ?_, rfl⟩
    · rw [hlines, hhandled, List.filterMap_append, hasked, List.filterMap_cons_none hcmd]
      simp only [Console.unhandled, hqueue]
      rfl
    · rw [List.filterMap_append, List.filterMap_cons_none hcmd]
      exact (congrArg List.length (List.append_nil _)).trans hlen
    · rw [hhandled, htaken]
      rfl
    · rw [hreplies, hgo, ← hshown]
      simp only [dialogue, hparse, Repl.lines, List.append_nil]
  | ok cmd =>
    cases cmd with
    | none =>
      have hcmd : command? line = none := by simp only [command?, hparse]
      refine ⟨?_, before ++ [line], [], taken, by rw [hlines, List.append_nil], ?_, ?_, ?_, ?_⟩
      · rw [hlines, hhandled, List.filterMap_append, hasked, List.filterMap_cons_none hcmd]
        simp only [Console.unhandled, hqueue, hrepl]
        rfl
      · rw [List.filterMap_append, List.filterMap_cons_none hcmd]
        exact (congrArg List.length (List.append_nil _)).trans hlen
      · rw [hhandled, htaken]
      · rw [hreplies, hgo, ← hshown]
        simp only [dialogue, hparse, hrepl, Repl.lines, List.append_nil]
      · rw [hrepl]
        rfl
    | some cmd =>
      have hcmd : command? line = some cmd := by simp only [command?, hparse]
      refine ⟨?_, before, [line], taken, hlines, hlen, ?_, ?_, ⟨line, cmd, rfl, hparse⟩⟩
      · rw [hlines, hhandled, List.filterMap_append, hasked, List.filterMap_cons_some hcmd]
        simp only [Console.unhandled, hqueue]
        rfl
      · rw [hhandled, htaken]
        rfl
      · rw [hreplies]
        exact hshown

/-- The REPL takes the outcome of the command it asked for. -/
theorem Conversing.reply {outcome : CommandOutcome} (h : Conversing hist c)
    (hrepl : c.repl = .awaiting) (hreply : c.reply = some outcome) (howed : c.owed.length ≤ 1) :
    Conversing (hist ++ [(c, .reply)])
      { c with reply := none, repl := .showing outcome.line } := by
  obtain ⟨hasked, before, current, taken, htyped, hlen, htaken, hshown, hcurrent⟩ := h
  rw [hrepl] at hshown hcurrent
  obtain ⟨line, cmd, rfl, hparse⟩ := hcurrent
  have hregistry : c.registry.reply = none := by
    rw [Console.owed, hreply] at howed
    cases hr : c.registry.reply with
    | none => rfl
    | some other =>
      rw [hr] at howed
      exact absurd howed (by simp)
  have hlines : typed (hist ++ [(c, .reply)]) = before ++ [line] := by
    rw [typed_append, htyped]
    exact List.append_nil _
  have hhandled : handled (hist ++ [(c, .reply)]) = handled hist := by
    rw [handled_append]
    exact List.append_nil _
  have hcmd : command? line = some cmd := by simp only [command?, hparse]
  refine ⟨?_, before ++ [line], [], taken ++ [outcome], by rw [hlines, List.append_nil], ?_, ?_, ?_,
    rfl⟩
  · rw [hlines, hhandled, ← htyped, hasked]
    simp only [Console.unhandled, hrepl, Repl.commands]
  · rw [List.filterMap_append, List.length_append, List.length_append, hlen,
      List.filterMap_cons_some hcmd]
    rfl
  · rw [hhandled, htaken]
    simp only [Console.owed, hreply, hregistry, Option.toList_some, Option.toList_none,
      List.append_nil]
  · rw [screen_append, dialogue_append hlen, ← hshown]
    simp only [Screen.observe, dialogue, hparse, Repl.lines, List.append_nil]

theorem reply_handling (c : Console) (answers : Answers) (msg : Message) :
    (∃ cmd outcome, msg.command? = some cmd ∧
        (c.handling answers msg.input).reply = some outcome) ∨
      msg.command? = none ∧ (c.handling answers msg.input).reply = none := by
  obtain ⟨input, sender⟩ := msg
  cases input with
  | command cmd => exact .inl ⟨cmd, _, rfl, rfl⟩
  | event | shutdown => exact .inr ⟨rfl, rfl⟩
  | accepted parent child peerInfo stream =>
    refine .inr ⟨rfl, ?_⟩
    simp only [Console.handling, Registry.handleInput]
    cases c.machine.world.reg.handleAccepted _ parent child peerInfo stream <;> rfl

theorem handles_take {answers : Answers} {msg : Message} {rest : List Message}
    (hqueue : c.machine.queue = msg :: rest) : c.handles (.take answers) =
      msg.command?.bind fun cmd ↦ (c.handling answers msg.input).reply.map (cmd, ·) := by
  obtain ⟨input, sender⟩ := msg
  simp only [Console.handles, hqueue, List.head?_cons]
  cases input <;> rfl

/-- The registry handles the next command, or an input nobody waits for. -/
theorem Conversing.take {answers : Answers} {msg : Message} {rest : List Message}
    {lines : List DisplayLine} (h : Conversing hist c) (hregistry : c.registry = .receiving)
    (hqueue : c.machine.queue = msg :: rest) :
    Conversing (hist ++ [(c, .take answers)])
      { c with
        machine := c.machine.handle answers msg.input rest
        registry := .displaying lines (c.handling answers msg.input).reply } := by
  obtain ⟨hasked, before, current, taken, htyped, hlen, htaken, hshown, hcurrent⟩ := h
  have hlines : typed (hist ++ [(c, .take answers)]) = typed hist := by
    rw [typed_append]
    exact List.append_nil _
  have hreplies : (Screen.of (hist ++ [(c, .take answers)])).replies = (Screen.of hist).replies := by
    rw [screen_append]
    rfl
  rw [Console.unhandled, hqueue] at hasked
  rw [Console.owed, hregistry] at htaken
  replace htaken : (handled hist).map Prod.snd = taken ++ c.reply.toList :=
    htaken.trans (congrArg _ (List.append_nil _))
  refine ⟨?_, before, current, taken, hlines.trans htyped, hlen, ?_, ?_, hcurrent⟩
  · rw [hlines, hasked, handled_append, handles_take hqueue, Console.unhandled]
    rcases reply_handling c answers msg with ⟨cmd, outcome, hcmd, hreply⟩ | ⟨hcmd, hreply⟩
    · rw [hcmd, hreply, List.filterMap_cons_some hcmd, List.map_append, List.append_assoc]
      rfl
    · rw [hcmd, List.filterMap_cons_none hcmd]
      simp only [Option.bind_none, Option.toList_none, List.append_nil]
      rfl
  · rw [handled_append, handles_take hqueue, List.map_append, htaken, Console.owed]
    rcases reply_handling c answers msg with ⟨cmd, outcome, hcmd, hreply⟩ | ⟨hcmd, hreply⟩
    · rw [hcmd, hreply, List.append_assoc]
      rfl
    · rw [hcmd, hreply, List.append_assoc]
      rfl
  · rw [hreplies]
    exact hshown

theorem conversing_of_run (hr : Run (consoleSystem caps) hist c)
    (hrunning : c.machine.world.phase = .running) : Conversing hist c := by
  induction hr with
  | init hi =>
    obtain ⟨⟨-, hqueue, -⟩, hregistry, hreply, -, -, -, hrepl⟩ := hi
    refine ⟨?_, [], [], [], rfl, rfl, ?_, ?_, ?_⟩
    · rw [Console.unhandled, hqueue, hrepl]
      rfl
    · rw [Console.owed, hreply, hregistry]
      rfl
    · rw [hrepl]
      rfl
    · rw [hrepl]
      rfl
  | @step hist c c' a hr hn ih =>
    have hawaited := awaited_of_reachable hr.reachable
    cases Console.step_of_next hn with
    | submitted line hrepl =>
      obtain ⟨repl, he⟩ := c.submit_eq line
      rw [he] at hrunning
      exact (ih hrunning).submit hrepl (hawaited.none_outstanding hrunning (by simp [hrepl]))
    | left hrepl =>
      refine (ih hrunning).moved rfl rfl ?_ rfl ?_ ?_
      · simp only [Console.unhandled, hrepl, Repl.commands]
      · simp only [Screen.observe, hrepl, Repl.lines]
      · simp only [hrepl, Repl.asking]
    | @sentCommand cmd hrepl =>
      have hnone := nothing_outstanding (hawaited.none_outstanding hrunning (by simp [hrepl]))
      refine (ih hrunning).moved rfl rfl ?_ ?_ ?_ ?_
      · simp only [Console.unhandled, hrepl, Repl.commands, Machine.enqueue, List.filterMap_append,
          List.append_nil]
        rfl
      · simp only [Console.owed, reply_eq_none hnone.2]
      · simp only [Screen.observe, hrepl, Repl.lines]
      · simp only [hrepl, Repl.asking]
    | sentShutdown hrepl =>
      have hnone := nothing_outstanding (hawaited.none_outstanding hrunning (by simp [hrepl]))
      refine (ih hrunning).moved rfl rfl ?_ ?_ ?_ ?_
      · simp only [Console.unhandled, hrepl, Repl.commands, Machine.enqueue, List.filterMap_append,
          List.append_nil]
        exact List.append_nil _
      · simp only [Console.owed, reply_eq_none hnone.2]
      · simp only [Screen.observe, hrepl, Repl.lines]
      · simp only [hrepl, Repl.asking]
    | stopped hphase => exact (hphase hrunning).elim
    | replied hrepl hreply =>
      exact (ih hrunning).reply hrepl hreply (hawaited.owed_le hrunning)
    | @shown line hrepl =>
      have htag : line.isEvent = false :=
        repliesTagged_of_reachable hr.reachable line (by rw [hrepl]; exact List.mem_singleton_self _)
      refine (ih hrunning).moved rfl rfl ?_ rfl ?_ ?_
      · simp only [Console.unhandled, hrepl, Repl.commands]
      · simp only [Screen.observe, hrepl, Repl.lines, List.map_cons, List.map_nil,
          replies_display htag, List.append_nil]
      · simp only [hrepl, Repl.asking]
    | took hregistry hqueue hrun => exact (ih hrun).take hregistry hqueue
    | @emitted line lines reply hregistry =>
      have htag : line.isEvent = true := (eventsInOrder_of_run hr).isEvent hr.reachable
        (by rw [hregistry]; exact List.mem_cons_self)
      refine (ih hrunning).moved rfl rfl rfl ?_ ?_ rfl
      · simp only [Console.owed, hregistry, RegistryTask.reply]
      · simp only [Screen.observe, hregistry, RegistryTask.lines, List.head?_cons,
          Option.toList_some, List.map_cons, List.map_nil, replies_emit htag]
    | @answered reply hregistry =>
      refine (ih hrunning).moved rfl rfl rfl ?_ rfl rfl
      have howed := hawaited.owed_le hrunning
      rw [Console.owed, hregistry, RegistryTask.reply] at howed
      rw [Console.owed, Console.owed, hregistry]
      cases reply with
      | none => rfl
      | some outcome =>
        cases hreply : c.reply with
        | none => rfl
        | some other =>
          rw [hreply] at howed
          exact absurd howed (by simp)
    | received | printed | drained => exact (ih hrunning).moved rfl rfl rfl rfl rfl rfl
    | traffic _ hworld =>
      refine (ih (hworld ▸ hrunning)).moved rfl rfl ?_ rfl rfl rfl
      rw [Console.unhandled, Console.unhandled, commands_traffic hn]

end Steps

/-- In every run, while the registry task runs: the commands handled and the at most
one on its way are those typed in, in their order; the REPL has shown, between
whatever events, the errors and outcomes the lines typed in call for and no others,
each command its own outcome; and at the prompt every command has been answered. -/
theorem commands_answered_in_order {caps : Capacities} {hist : History} {c : Console}
    (hr : Run (consoleSystem caps) hist c) (hrunning : c.machine.world.phase = .running) :
    (typed hist).filterMap command? = (handled hist).map Prod.fst ++ c.unhandled ∧
      c.unhandled.length + c.owed.length ≤ 1 ∧
      (∃ taken, (handled hist).map Prod.snd = taken ++ c.owed ∧
        ((transcript hist c).filter fun line ↦ !line.isEvent) ++ c.repl.lines =
          dialogue (typed hist) taken) ∧
      (c.repl = .reading → c.unhandled = [] ∧ c.owed = []) := by
  obtain ⟨hasked, before, current, taken, htyped, hlen, htaken, hshown, hcurrent⟩ :=
    conversing_of_run hr hrunning
  have hawaited := awaited_of_reachable hr.reachable
  have horder : transcript hist c = (Screen.of hist).entered.map Prod.snd := inOrder_of_run hr
  refine ⟨hasked, ?_, ⟨taken, htaken, ?_⟩, fun hrepl ↦ ?_⟩
  · have hle := hawaited hrunning
    rw [outstanding_eq] at hle
    rw [Console.unhandled, List.length_append]
    cases hrepl : c.repl <;>
    · simp only [hrepl, Repl.commands, List.length_nil, List.length_singleton, reduceCtorEq,
        if_true, if_false] at hle ⊢
      omega
  · rw [horder, htyped, show dialogue (before ++ current) taken = dialogue before taken from ?_]
    · exact hshown
    rw [← List.append_nil taken, dialogue_append hlen, List.append_nil]
    split_ifs at hcurrent
    · obtain ⟨line, cmd, rfl, hparse⟩ := hcurrent
      simp only [dialogue, hparse, List.append_nil]
    · rw [hcurrent]
      exact List.append_nil _
  · obtain ⟨hqueue, howed⟩ := nothing_outstanding
      (hawaited.none_outstanding hrunning (by simp [hrepl]))
    refine ⟨?_, howed⟩
    rw [Console.unhandled, hqueue, hrepl]
    rfl

theorem commands_answered_in_dialogue :
    ∃ hist c, Run (consoleSystem ⟨1024, 1024, 20⟩) hist c ∧
      hist.map Prod.snd = [.submit "", .submit "open server 3000", .send, .take (.granting 0 []),
        .emit, .answer, .reply, .receive, .display, .print, .submit "close", .display,
        .submit "label 3000 hub", .send, .take (.granting 1 []), .answer, .reply, .display] ∧
      (handled hist).map Prod.fst = [.openTcpServer 3000, .label "3000" "hub"] ∧
      (transcript hist c).filter (fun line ↦ !line.isEvent) =
        dialogue ["", "open server 3000", "close", "label 3000 hub"]
          ((handled hist).map Prod.snd) := by
  have hrun : ∃ c ∈ run (Console.next ⟨1024, 1024, 20⟩) (fun _ _ ↦ true) .start
      [.submit "", .submit "open server 3000", .send, .take (.granting 0 []),
        .emit, .answer, .reply, .receive, .display, .print, .submit "close", .display,
        .submit "label 3000 hub", .send, .take (.granting 1 []), .answer, .reply, .display],
      c.repl = .reading ∧ c.machine.world.phase = .running := by decide +kernel
  obtain ⟨c, hc, hrepl, hrunning⟩ := hrun
  have hstart : Run (consoleSystem ⟨1024, 1024, 20⟩) [] .start := .init Console.start_initial
  obtain ⟨hist, hr, ha⟩ := hstart.of_run hc
  have htyped : typed hist = ["", "open server 3000", "close", "label 3000 hub"] := by
    rw [typed_eq, ha]
    rfl
  obtain ⟨hasked, -, ⟨taken, htaken, hshown⟩, hprompt⟩ := commands_answered_in_order hr hrunning
  obtain ⟨hunhandled, howed⟩ := hprompt hrepl
  have hcommands : ["", "open server 3000", "close", "label 3000 hub"].filterMap command? =
      [.openTcpServer 3000, .label "3000" "hub"] := by decide +kernel
  rw [htyped, hunhandled, List.append_nil, hcommands] at hasked
  rw [howed, List.append_nil] at htaken
  rw [htyped, hrepl, ← htaken] at hshown
  exact ⟨hist, c, hr, ha, hasked.symm, (List.append_nil _).symm.trans hshown⟩

end WireDock
