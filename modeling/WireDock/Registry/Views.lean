import WireDock.Library.Traces
import WireDock.Registry.Commute
import WireDock.Registry.Orders

namespace WireDock

open FiniteMap LabelledSystem

/-- The id that stands for all connections on a base, which renames do not leave. -/
def ConnectionId.home (id : ConnectionId) : ConnectionId := id.base?.elim id (·.accepted none)

namespace RegistryInput

def subject : RegistryInput → Option ConnectionId
  | .accepted parent tentative _ _ =>
    some ((Registry.acceptedBase parent tentative).elim parent (·.accepted none))
  | .event ev => some ev.id.home
  | .command _ | .shutdown => none

/-- What a connection sees of the inputs: those about it and all that are about none. -/
def concerns (id : ConnectionId) (input : RegistryInput) : Bool := input.subject.all (· = id)

theorem concerns_subject {input : RegistryInput} {k : ConnectionId} (h : input.subject = some k)
    (id : ConnectionId) : input.concerns id ↔ k = id := by
  rw [concerns, h, Option.all_some, decide_eq_true_iff]

theorem exists_concerns (input : RegistryInput) : ∃ id, input.concerns id := by
  cases h : input.subject with
  | none => exact ⟨.ipcClient 0, by rw [concerns, h, Option.all_none]⟩
  | some k => exact ⟨k, (concerns_subject h k).mpr rfl⟩

/-- An event as the end of its connection, which reads and writes what any event of it does. -/
def ending : RegistryInput → RegistryInput
  | .event ev => .event (.closed ev.id)
  | input => input

variable {i j : RegistryInput}

theorem independent_of_concerns (h : ∀ id, i.concerns id → ¬j.concerns id) :
    i.ending.Independent j.ending := by
  obtain ⟨k, hi⟩ : ∃ k, i.subject = some k := by
    cases hi : i.subject with
    | none =>
      obtain ⟨id, hj⟩ := j.exists_concerns
      exact (h id (by rw [concerns, hi, Option.all_none]) hj).elim
    | some k => exact ⟨k, rfl⟩
  have hj : ¬j.concerns k := h k ((concerns_subject hi k).mpr rfl)
  cases i with
  | command | shutdown => cases hi
  | accepted parent tentative =>
    cases j with
    | command | shutdown => cases hj rfl
    | accepted parent' tentative' =>
      intro b hb hb'
      rw [concerns_subject rfl, hb'] at hj
      exact hj (Option.some.inj (by rw [← hi, subject, hb]; rfl))
    | event ev =>
      intro b hb d hid
      rw [concerns_subject rfl, ConnectionId.home, hid, b.base?_accepted] at hj
      exact hj (Option.some.inj (by rw [← hi, subject, hb]; rfl))
  | event ev =>
    cases hi
    cases j with
    | command | shutdown => cases hj rfl
    | accepted parent' tentative' =>
      intro b hb d hid
      rw [concerns_subject rfl, hb, ConnectionId.home, hid, b.base?_accepted] at hj
      exact hj rfl
    | event ev' =>
      intro hid
      rw [concerns_subject rfl] at hj
      exact hj (congrArg ConnectionId.home hid.symm)

end RegistryInput

namespace Registry

variable {reg : Registry} {i j : RegistryInput}

theorem handle_edit_ending (hw : WellFormed reg) (ht : Tracked reg) (h : i.ending.Independent j)
    (hs : ∀ b ∈ acceptedBase? i, b.server ∈ reg.servers) (env : Environment) :
    ∃ (e : Edit) (effects : List Effect), e.Within i.ending ∧
      ∀ reg', reg.SameView reg' i.ending →
        reg'.handleInput env i = .running (e.apply reg') effects none := by
  cases i with
  | command | shutdown => rcases h.accepted_or_closed with ⟨_, _, _, _, hi⟩ | ⟨_, hi⟩ <;> cases hi
  | accepted => exact handle_edit hw ht h hs env
  | event ev =>
    cases ev with
    | closed => exact handle_edit hw ht h hs env
    | received id bytes =>
      refine ⟨closedEdit id none, reg.onReceived id bytes, closedEdit_within id none, ?_⟩
      intro reg' hv
      have hname : reg'.displayName id = reg.displayName id := hv.2
      rw [handleInput, handleEvent, onReceived, hname]
      rfl
    | error id message =>
      refine ⟨closedEdit id none, reg.onErrorEvent id message, closedEdit_within id none, ?_⟩
      intro reg' hv
      have hname : reg'.displayName id = reg.displayName id := hv.2
      rw [handleInput, handleEvent, onErrorEvent, hname]
      rfl
    | renamed newId => exact ⟨closedEdit newId none, [], closedEdit_within newId none, fun _ _ ↦ rfl⟩

end Registry

section Steps

variable {w t : World} {env : Environment} {input : RegistryInput} {reg : Registry}
  {effects : List Effect} {reply : Option CommandOutcome} {seen : Observation}

theorem observed_step (hrun : w.phase = .running) (hfresh : w.Fresh env.spawn)
    (h : w.reg.handleInput env input = .running reg effects reply) :
    observedRegistry.step w ((env, input), ⟨effects, reply, .running⟩)
      ⟨reg, w.log ++ effects, .running⟩ := by
  refine ⟨⟨hrun, hfresh, (handle_running h).symm⟩, ?_⟩
  simp only [h, Handling.effects, Handling.reply]

theorem eq_of_observed_step (hs : observedRegistry.step w ((env, input), seen) t)
    (h : w.reg.handleInput env input = .running reg effects reply) :
    t = ⟨reg, w.log ++ effects, .running⟩ ∧ seen = ⟨effects, reply, .running⟩ := by
  obtain ⟨⟨-, -, rfl⟩, hseen⟩ := hs
  rw [handle_running h] at hseen ⊢
  exact ⟨rfl, by simpa only [h, Handling.effects, Handling.reply] using hseen⟩

theorem servers_of_observed_step (hs : observedRegistry.step w ((env, input), seen) t)
    (ht : t.phase ≠ .panicked) : ∀ b ∈ Registry.acceptedBase? input, b.server ∈ w.reg.servers := by
  intro b hb
  obtain ⟨⟨-, -, rfl⟩, -⟩ := hs
  by_contra hserver
  cases input with
  | command | event | shutdown => cases hb
  | accepted parent tentative peerInfo stream =>
    have hpanic : w.reg.handleInput env (.accepted parent tentative peerInfo stream) = .panicked :=
      Registry.handleInput_panicked.mpr
        ⟨parent, tentative, peerInfo, stream, b, rfl, hb, hserver⟩
    exact ht (by simp only [World.handle, hpanic])

end Steps

/-- A turn names no task but the one it is offered. -/
theorem World.Fresh.append {w : World} {task : JoinHandle} (h : w.Fresh task) {env : Environment}
    {input : RegistryInput} {reg : Registry} {effects : List Effect} {reply : Option CommandOutcome}
    (hh : w.reg.handleInput env input = .running reg effects reply) (hne : task ≠ env.spawn) :
    ∀ e ∈ w.log ++ effects, e.spawned ≠ some task := by
  intro e he
  rcases List.mem_append.mp he with he | he
  · exact h e he
  · rcases (Registry.handleInput_change hh).spawns with hnone | ⟨e₀, hspawn, hone⟩
    · rw [hnone e he]
      exact Option.some_ne_none _ ∘ Eq.symm
    · rcases hone e he with rfl | hnone
      · rw [hspawn]
        exact fun hs ↦ hne (Option.some.inj hs).symm
      · rw [hnone]
        exact Option.some_ne_none _ ∘ Eq.symm

def Apart (a b : Environment × RegistryInput) : Prop :=
  (∀ id, a.2.concerns id → ¬b.2.concerns id) ∧ a.1.spawn ≠ b.1.spawn

section Exchange

variable {w w' t u : World} {a b : (Environment × RegistryInput) × Observation}

theorem World.Alike.refl (w : World) : w.Alike w := ⟨rfl, rfl, .refl _⟩

theorem World.Alike.trans (h : w.Alike w') (h' : w'.Alike t) : w.Alike t :=
  ⟨h.reg.trans h'.reg, h.phase.trans h'.phase, h.log.trans h'.log⟩

theorem World.Alike.follow (h : w.Alike w') (hs : observedRegistry.step w a t) :
    ∃ t', observedRegistry.step w' a t' ∧ t.Alike t' := by
  obtain ⟨⟨hrun, hfresh, rfl⟩, hseen⟩ := hs
  have halike : (w.handle a.1.1 a.1.2).Alike (w'.handle a.1.1 a.1.2) := h.handle (.refl _)
  refine ⟨w'.handle a.1.1 a.1.2, ⟨⟨h.phase ▸ hrun, fun e he ↦ ?_, rfl⟩, ?_⟩, halike⟩
  · exact hfresh e (h.log.mem_iff.mpr he)
  · rw [hseen, ← h.reg, halike.phase]

/-- Two turns that follow each other and are apart may be taken the other way round. -/
theorem observed_exchange (hw : Reachable registrySystem w) (hI : Apart a.1 b.1)
    (ha : observedRegistry.step w a t) (ht : t.phase ≠ .panicked)
    (hb : observedRegistry.step t b u) (hu : u.phase ≠ .panicked) :
    ∃ t' u', observedRegistry.step w b t' ∧ observedRegistry.step t' a u' ∧
      t'.phase ≠ .panicked ∧ u.Alike u' := by
  obtain ⟨⟨env, input⟩, seen⟩ := a
  obtain ⟨⟨env', input'⟩, seen'⟩ := b
  obtain ⟨hconcerns, hspawn⟩ := hI
  have hI : input.ending.Independent input'.ending :=
    RegistryInput.independent_of_concerns hconcerns
  have hwf := wellFormed_of_reachable hw
  have htr := tracked_of_reachable hw
  obtain ⟨e, effects, he, hdo⟩ :=
    Registry.handle_edit_ending hwf htr hI (servers_of_observed_step ha ht) env
  have hfirst := hdo _ (Registry.sameView_refl hI)
  obtain ⟨rfl, rfl⟩ := eq_of_observed_step ha hfirst
  have hservers : ∀ b ∈ Registry.acceptedBase? input', b.server ∈ w.reg.servers := by
    intro b hm
    obtain ⟨srv, hsrv⟩ := mem_iff_lookup.mp (servers_of_observed_step hb hu b hm)
    rw [e.lookup_servers_apply] at hsrv
    obtain ⟨srv', hsrv', -⟩ := Option.map_eq_some_iff.mp hsrv
    exact mem_of_lookup hsrv'
  obtain ⟨e', effects', he', hdo'⟩ := Registry.handle_edit_ending hwf htr hI.symm hservers env'
  obtain ⟨rfl, rfl⟩ := eq_of_observed_step hb (hdo' _ (Registry.sameView_apply hI.symm he))
  have hswapped := hdo' _ (Registry.sameView_refl hI.symm)
  have hlast := hdo _ (Registry.sameView_apply hI he')
  have hfresh' : w.Fresh env'.spawn := fun e he ↦ hb.1.2.1 e (List.mem_append_left _ he)
  refine ⟨_, _, observed_step ha.1.1 hfresh' hswapped,
    observed_step rfl (ha.1.2.1.append hswapped hspawn) hlast, Phase.noConfusion, ?_, rfl, ?_⟩
  · exact Edit.apply_comm (he'.apart he hI.symm) _
  · rw [List.append_assoc, List.append_assoc]
    exact List.perm_append_comm.append_left w.log

end Exchange

abbrev calmRegistry : System World ((Environment × RegistryInput) × Observation) :=
  observedRegistry.within fun w ↦ w.phase ≠ .panicked

theorem calm_commuting : Commuting calmRegistry (fun a b ↦ Apart a.1 b.1) World.Alike where
  refl := World.Alike.refl
  trans _ _ _ := World.Alike.trans
  follow w a t w' _ h hs := by
    obtain ⟨t', hs', ht⟩ := h.follow hs.1
    exact ⟨t', ⟨hs', fun hp ↦ hs.2 (ht.phase.trans hp)⟩, ht⟩
  swap w a t b u hw hI ha hb := by
    obtain ⟨hist, hr⟩ := hw.run
    have hw := reachable_iff_observed.mp hr.of_within.reachable
    obtain ⟨t', u', ht', hu', hp, halike⟩ := observed_exchange hw hI ha.1 ha.2 hb.1 hb.2
    exact ⟨t', u', ⟨ht', hp⟩, ⟨hu', fun hpanic ↦ hb.2 (halike.phase.trans hpanic)⟩, halike⟩

def view (id : ConnectionId) (turns : List (Environment × RegistryInput)) :
    List (Environment × RegistryInput) := turns.filter fun a ↦ a.2.concerns id

def viewed (id : ConnectionId)
    (hist : List (World × (Environment × RegistryInput) × Observation)) :
    List ((Environment × RegistryInput) × Observation) :=
  (hist.map Prod.snd).filter fun a ↦ a.1.2.concerns id

/-- A run of the registry is decided by what each connection sees of it, its own events
and accepts among the commands: however the turns about different connections are
interleaved, each makes the same calls and the registry ends the same. -/
theorem views_decide {hist : List (World × (Environment × RegistryInput) × Observation)}
    {w : World} (hr : Run observedRegistry hist w) (hp : w.phase ≠ .panicked)
    (hown : (hist.map fun p ↦ p.2.1.1.spawn).Nodup)
    {turns : List (Environment × RegistryInput)}
    (hv : ∀ id, view id (hist.map fun p ↦ p.2.1) = view id turns) :
    ∃ hist' w', Run observedRegistry hist' w' ∧ (hist'.map fun p ↦ p.2.1) = turns ∧
      w.Alike w' ∧ ∀ id, viewed id hist = viewed id hist' := by
  have hcalm : Run calmRegistry hist w := by
    refine hr.within (fun w a w' hs _ ↦ ?_) hp
    rw [hs.1.1]
    exact Phase.noConfusion
  have hfst : (hist.map fun p ↦ p.2.1) = (hist.map Prod.snd).map Prod.fst := by simp
  have happart : ∀ a ∈ hist.map (fun p ↦ p.2.1), ∀ b ∈ hist.map (fun p ↦ p.2.1),
      (∀ id, a.2.concerns id → ¬b.2.concerns id) → Apart a b := by
    intro a ha b hb hne
    refine ⟨hne, fun hspawn ↦ ?_⟩
    have hnodup : ((hist.map fun p ↦ p.2.1).map fun a ↦ a.1.spawn).Nodup := by
      rw [List.map_map]
      exact hown
    cases List.inj_on_of_nodup_map hnodup ha hb hspawn
    obtain ⟨id, hid⟩ := a.2.exists_concerns
    exact hne id hid hid
  have hequiv : TraceEquiv Apart (hist.map fun p ↦ p.2.1) turns :=
    traceEquiv_of_views (fun id a ↦ a.2.concerns id) (fun a ↦ a.2.exists_concerns) happart hv
  rw [hfst] at hequiv
  obtain ⟨labels, hlabels, rfl⟩ := hequiv.of_map
  obtain ⟨hist', w', hr', hl, halike⟩ := calm_commuting.run hcalm hlabels
  refine ⟨hist', w', hr'.of_within, by rw [← hl]; simp, halike, fun id ↦ ?_⟩
  rw [viewed, viewed, hl]
  exact hlabels.filter_eq fun a b hI hab ↦ hI.1 id hab.1 hab.2

theorem observed_turn {hist : List (World × (Environment × RegistryInput) × Observation)}
    {w : World} (hr : Run observedRegistry hist w) (env : Environment) (input : RegistryInput)
    (hrun : w.phase = .running) (hfresh : w.Fresh env.spawn) :
    ∃ seen, Run observedRegistry (hist ++ [(w, (env, input), seen)]) (w.handle env input) :=
  ⟨⟨(w.reg.handleInput env input).effects, (w.reg.handleInput env input).reply,
    (w.handle env input).phase⟩, hr.step ⟨⟨hrun, hfresh, rfl⟩, rfl⟩⟩

theorem views_decide_interleaved :
    ∃ hist w, Run observedRegistry hist w ∧ (hist.map fun p ↦ p.2.1.2) =
        [.command (.openTcpServer 3000), tcpHandoff 3000 10015 7, tcpHandoff 3000 10016 8,
          tcpHandoff 3000 10015 9, .event (.closed (.acceptedTcp 3000 10016 none))] ∧
      ∃ hist' w', Run observedRegistry hist' w' ∧ (hist'.map fun p ↦ p.2.1.2) =
          [.command (.openTcpServer 3000), tcpHandoff 3000 10016 8,
            .event (.closed (.acceptedTcp 3000 10016 none)), tcpHandoff 3000 10015 7,
            tcpHandoff 3000 10015 9] ∧
        w.Alike w' := by
  have h₀ : Run observedRegistry [] .initial := .init rfl
  obtain ⟨_, h₁⟩ := observed_turn h₀ (.granting 0) (.command (.openTcpServer 3000)) rfl
    (by decide +kernel)
  obtain ⟨_, h₂⟩ := observed_turn h₁ (.granting 1) (tcpHandoff 3000 10015 7)
    (by decide +kernel) (by decide +kernel)
  obtain ⟨_, h₃⟩ := observed_turn h₂ (.granting 2) (tcpHandoff 3000 10016 8)
    (by decide +kernel) (by decide +kernel)
  obtain ⟨_, h₄⟩ := observed_turn h₃ (.granting 3) (tcpHandoff 3000 10015 9)
    (by decide +kernel) (by decide +kernel)
  obtain ⟨_, h₅⟩ := observed_turn h₄ (.granting 4)
    (.event (.closed (.acceptedTcp 3000 10016 none))) (by decide +kernel) (by decide +kernel)
  have hown : [0, 1, 2, 3, 4].Nodup := by decide
  have hviews : ∀ id, view id [(.granting 0, .command (.openTcpServer 3000)),
        (.granting 1, tcpHandoff 3000 10015 7), (.granting 2, tcpHandoff 3000 10016 8),
        (.granting 3, tcpHandoff 3000 10015 9),
        (.granting 4, .event (.closed (.acceptedTcp 3000 10016 none)))] =
      view id [(.granting 0, .command (.openTcpServer 3000)),
        (.granting 2, tcpHandoff 3000 10016 8),
        (.granting 4, .event (.closed (.acceptedTcp 3000 10016 none))),
        (.granting 1, tcpHandoff 3000 10015 7), (.granting 3, tcpHandoff 3000 10015 9)] := by
    intro id
    by_cases h : ConnectionId.acceptedTcp 3000 10015 none = id
    · subst h
      rfl
    · have hfirst : ∀ stream, (tcpHandoff 3000 10015 stream).concerns id = false :=
        fun _ ↦ decide_eq_false h
      simp only [view, List.filter_cons, hfirst]
      rfl
  obtain ⟨hist', w', hrun, hturns, halike, -⟩ :=
    views_decide h₅ (by decide +kernel) hown hviews
  refine ⟨_, _, h₅, rfl, hist', w', hrun, ?_, halike⟩
  have hinputs := congrArg (List.map Prod.snd) hturns
  rwa [List.map_map] at hinputs

end WireDock
