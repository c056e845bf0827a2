import Mathlib.Data.List.Permutation
import RouterFabric.Proofs.Engine.Signals
import RouterFabric.Proofs.Fates
import RouterFabric.Proofs.Transfers
import RouterFabric.Proofs.Wakeups
import RouterFabric.Proofs.Wire

/-!
# The two signals of an attempt

An attempt ends when both its signals are in, the report that its request was sent and the answer,
and it makes no difference which of the two comes first. What else happens in between sees nothing
of the first one, so the second one finds the same engine, up to which signal is noted already. An
event ends the attempt at once, and then nothing is left of it for a signal to end.

* `Engine.Reaches` : an arrival is a signal for the attempt of a command
* `Engine.Concluded` : what is changed when an attempt in a slot ends
* `Engine.Meanwhile` : what may happen while an attempt is in its slot
* `Engine.Over` : an attempt has ended with an event, and cannot end again
* `Run.ends_once` : either order has the same outcome, and an event comes before both
-/

namespace RouterFabric

open Engine

/-! ## Noting a signal -/

/-- The signals noted after one more. -/
def Signals.note (s : Signals) (signal : Signal) (words : Option (List UInt32)) : Signals where
  sent := s.sent || signal == .sent
  answered := s.answered || signal == .answered
  response := words.orElse fun _ => s.response

/-- No signal is noted. -/
def Signals.nothing : Signals := ⟨false, false, none⟩

/-- Both signals are noted, and the words are left with the command or taken. -/
def Signals.both (response : Option (List UInt32)) : Signals := ⟨true, true, response⟩

namespace Command

theorem noted_eq (command : Command) (signal : Signal) (words : Option (List UInt32)) :
    command.noted signal words = command.withSignals (command.signals.note signal words) := rfl

/-- The words that are read of an answer that declares a number of words and has these with it: at
most as many as one packet holds. -/
def readable (command : Command) (declared : Nat) (present : List UInt32) : List UInt32 :=
  match command.kind with
  | .read => present.take (min declared Limit.maxDwords)
  | .write => []

/-- The words that an attempt ends with, for an answer that declares a number of words and has these
with it. -/
def wordsOf (command : Command) (declared : Nat) (present : List UInt32) : List UInt32 :=
  match command.kind with
  | .read => present.take (min command.address.dwords (min declared present.length))
  | .write => []

/-- A command of the same substance differs in its place in a queue and the note of its end. -/
theorem eq_of_substance {command command' : Command} (h : command'.substance = command.substance) :
    command' = { command with
      phase := command'.phase, since := command'.since, ending := command'.ending } := by
  obtain ⟨id, node, route, kind, address, payload, frame, generation, seq, sent, answered, poll,
    phase, since, response, ending, listener⟩ := command'
  simp only [substance, mk.injEq, true_and] at h
  obtain ⟨rfl, rfl, rfl, rfl, rfl, rfl, rfl, rfl, rfl, rfl, rfl, rfl, rfl, rfl⟩ := h
  rfl

end Command

theorem Commands.set_withSignals_self {cs : Commands} {c : CommandRef} {command : Command}
    (hc : cs.get? c = some command) (s : Signals) :
    cs.set c.index (command.withSignals s) = cs.withSignals c s := by
  apply ext_get?
  intro c'
  rw [get?_set hc]
  by_cases hne : c' = c
  · subst hne
    rw [if_pos rfl, get?_withSignals hc]
  · rw [if_neg (Ne.symm hne), get?_withSignals_of_ne hne]

theorem Commands.get?_change_of_ne {α : Type} {cs : Commands} {c c' : CommandRef}
    (hne : c ≠ c') (absent : α)
    (f : Command → α × Command) : (cs.change c' absent f).2.get? c = cs.get? c := by
  unfold Commands.change
  cases hg : cs.get? c' with
  | none => rfl
  | some command =>
    show Commands.get? (cs.set c'.index _) c = _
    rw [Commands.get?_set hg, if_neg (Ne.symm hne)]

namespace Engine

variable {e e' : Engine} {m : Move} {r r' : RouterRef} {c c' : CommandRef}
  {command command' : Command} {arrival : Arrival} {signal : Signal} {s s' : Signals}
  {words : Option (List UInt32)} {ending : Ending} {event : Event}

theorem withSignals_withSignals :
    (e.withSignals c s).withSignals c s' = e.withSignals c s' := by
  simp only [withSignals, Commands.withSignals, Commands.update, List.modify_modify_eq]
  rfl

/-- Noting what is noted already changes nothing. -/
theorem withSignals_self (hc : e.command? c = some command) :
    e.withSignals c command.signals = e := by
  have hsame : e.commands.withSignals c command.signals = e.commands := by
    apply Commands.ext_get?
    intro c'
    by_cases hne : c' = c
    · subst hne
      rw [Commands.get?_withSignals hc, Command.withSignals_signals]
      exact hc.symm
    · exact Commands.get?_withSignals_of_ne hne
  show { e with commands := e.commands.withSignals c command.signals } = e
  rw [hsame]

/-! ## Signals that reach an attempt -/

/-- The arrival is a signal for the current attempt of a command of the router, and these words come
with it. -/
inductive Reaches (e : Engine) (r : RouterRef) (command : Command) :
    Arrival → Signal → Option (List UInt32) → Prop
  | sent : e.topology.tree.get? command.node = some r →
      Reaches e r command (.sent (some command.request.context)) .sent none
  | answered {channel : PacketType} {bytes : List UInt8} {route : Route} {address : Address}
      {data : List UInt32} : channel ≠ .notify → channel ≠ .hotplug →
      response? command.kind.packetType bytes = some (route, address, data) →
      e.topology.lookup route = .ok r → command.seq = address.seq →
      Reaches e r command (.received channel command.kind.packetType bytes) .answered
        (kept command data)

/-- Which signals are noted already is of no account. -/
theorem Reaches.withSignals (k : e.Reaches r command arrival signal words) (s : Signals) :
    e.Reaches r (command.withSignals s) arrival signal words := by
  cases k with
  | sent hnode => exact .sent hnode
  | answered hn hh hread hroute hseq => exact .answered hn hh hread hroute hseq

theorem Reaches.onto (k : e.Reaches r command arrival signal words) :
    (e.withSignals c s).Reaches r command arrival signal words := by
  cases k with
  | sent hnode => exact .sent hnode
  | answered hn hh hread hroute hseq => exact .answered hn hh hread hroute hseq

theorem Reaches.of_substance (k : e.Reaches r command arrival signal words)
    (hs : command'.substance = command.substance) :
    e.Reaches r command' arrival signal words := by
  rw [Command.eq_of_substance hs]
  cases k with
  | sent hnode => exact .sent hnode
  | answered hn hh hread hroute hseq => exact .answered hn hh hread hroute hseq

/-- What is done with a signal that reaches the attempt in a slot. -/
theorem Reaches.receive (k : e.Reaches r command arrival signal words)
    (h : e.Holds r c command) :
    e.receive arrival =
      (e.push [.handled]).signal r c command.generation signal words := by
  cases k with
  | sent hnode => exact receive_sent hnode h
  | answered hn hh hread hroute hseq => exact receive_answer hn hh hread hroute hseq h

/-- The first signal is noted. -/
theorem Reaches.first (k : e.Reaches r command arrival signal words) (h : e.Holds r c command)
    (hnothing : command.signals = .nothing) :
    e.receive arrival =
      (e.push [.handled]).withSignals c (Signals.nothing.note signal words) := by
  have hsent : command.sent = false := congrArg (·.sent) hnothing
  have hanswered : command.answered = false := congrArg (·.answered) hnothing
  have hwaits : command.isComplete = false := by simp [Command.isComplete, hsent]
  have hfirst : (command.noted signal words).isComplete = false := by
    cases signal <;> simp [Command.isComplete, Command.noted, hsent, hanswered]
  rw [k.receive h, signal_noted (e := e.push [.handled]) h.slotOf? hwaits hfirst,
    Command.noted_eq, hnothing]
  show ({ e.push [.handled] with commands := e.commands.set c.index _ } : Engine) = _
  rw [Commands.set_withSignals_self h.2]
  rfl

/-- The second signal ends the attempt, with the words that came with either of the two. -/
theorem Reaches.second {signal' : Signal} {words' : Option (List UInt32)}
    (k : e.Reaches r command arrival signal' words') (h : e.Holds r c command)
    (hfirst : command.signals = Signals.nothing.note signal words) (hne : signal ≠ signal') :
    e.receive arrival =
      ((e.push [.handled]).withSignals c (.both none)).complete r c command.generation
        (.completed ((words'.orElse fun _ => words).getD [])) := by
  have hsent : command.sent = (signal == .sent) := congrArg (·.sent) hfirst
  have hanswered : command.answered = (signal == .answered) := congrArg (·.answered) hfirst
  have hresponse : command.response = words := by
    have hresponse : command.response = words.orElse fun _ => none := congrArg (·.response) hfirst
    rw [hresponse]
    cases words <;> rfl
  have hwaits : command.isComplete = false := by
    cases signal <;> simp [Command.isComplete, hsent, hanswered]
  have hboth : (command.noted signal' words').sent = true ∧
      (command.noted signal' words').answered = true := by
    cases signal <;> cases signal' <;> simp_all [Command.noted]
  have hsecond : (command.noted signal' words').isComplete = true := by
    simp [Command.isComplete, hboth]
  have htaken : ({ command.noted signal' words' with response := none } : Command) =
      command.withSignals (.both none) := by
    obtain ⟨hsent', hanswered'⟩ := hboth
    simp only [Command.noted, Command.withSignals, Signals.both] at hsent' hanswered' ⊢
    rw [hsent', hanswered']
  rw [k.receive h, signal_completed (e := e.push [.handled]) h.slotOf? hwaits hsecond, htaken]
  show Engine.complete { e.push [.handled] with commands := e.commands.set c.index _ } r c
    command.generation (.completed ((words'.orElse fun _ => command.response).getD [])) = _
  rw [Commands.set_withSignals_self h.2, hresponse]
  rfl

/-- The report that a request was sent brings no words, so what the two signals bring together does
not depend on their order. -/
theorem Reaches.words_comm {arrival' : Arrival} {signal' : Signal} {words' : Option (List UInt32)}
    (k : e.Reaches r command arrival signal words)
    (k' : e.Reaches r command arrival' signal' words') (hne : signal ≠ signal') :
    (words.orElse fun _ => words') = words'.orElse fun _ => words := by
  cases k with
  | sent =>
    cases k' with
    | sent => exact absurd rfl hne
    | @answered channel bytes route address data =>
      cases hk : kept command data <;> rfl
  | @answered channel bytes route address data =>
    cases k' with
    | sent => cases hk : kept command data <;> rfl
    | answered => exact absurd rfl hne

/-- What holds the slot of a router is one of its commands. -/
theorem Stored.node_of_holds (h : e.Stored) (hc : e.Holds r c command) :
    command.node = ⟨r.index⟩ := by
  obtain ⟨command', hc', howns, -⟩ := h.members r c (Queue.mem_members.2 (.inl hc.1))
  have hsame := hc'.symm.trans hc.2
  cases hsame
  exact howns.1

/-- The report that a request was sent, as long as the router is in the tree. -/
theorem Stored.reaches_report (h : e.Stored) (hl : e.Linked r) (hnode : command.node = ⟨r.index⟩) :
    e.Reaches r command (.sent (some command.request.context)) .sent none :=
  .sent (hnode ▸ h.get?_of_linked hl)

/-- What is read of an answer whose words are these. -/
theorem response?_toWire (command : Command) (hi lo third : UInt32) (present : List UInt32) :
    response? command.kind.packetType (Packet.toWire (hi :: lo :: third :: present)) =
      some (Route.ofWords hi lo, Address.ofWord third,
        command.readable (Address.ofWord third).dwords present) := by
  have hopen : Packet.ofWire (Packet.toWire (hi :: lo :: third :: present)) =
      .ok (hi :: lo :: third :: present) := Packet.ofWire_toWire (List.cons_ne_nil _ _)
  unfold Command.readable
  cases command.kind with
  | read =>
    have hread : ReadResponse.decode (Packet.toWire (hi :: lo :: third :: present)) =
        .ok ⟨Route.ofWords hi lo, Address.ofWord third,
          present.take (min (Address.ofWord third).dwords Limit.maxDwords)⟩ := by
      unfold ReadResponse.decode
      rw [hopen]
      rfl
    simp [response?, CommandKind.packetType, hread]
  | write =>
    have hread : WriteResponse.decode (Packet.toWire (hi :: lo :: third :: present)) =
        .ok ⟨Route.ofWords hi lo, Address.ofWord third⟩ := by
      unfold WriteResponse.decode
      rw [hopen]
      rfl
    simp [response?, CommandKind.packetType, hread]

/-- An answer leaves as many words as were asked for, are declared, and are there. -/
theorem getD_kept_readable (hle : command.address.dwords ≤ Limit.maxDwords) (declared : Nat)
    (present : List UInt32) :
    (kept command (command.readable declared present)).getD [] =
      command.wordsOf declared present := by
  unfold kept Command.readable Command.wordsOf
  cases command.kind with
  | read =>
    simp only [Option.getD_some, List.take_take]
    rw [List.take_eq_take_iff]
    omega
  | write => rfl

/-! ## The end of an attempt -/

/-- The attempt in the slot of a router has ended: the slot is free, the end is counted, the command
has ended whatever signals were noted for it, and it is still to be told to its callback, the
router and all that wait for the transport are still to be tried, and it is still to be noted that
an arrival has been dealt with. Nothing else has changed. -/
structure Concluded (e : Engine) (r : RouterRef) (c : CommandRef) (ending : Ending) (e' : Engine) :
    Prop where
  topology : e'.topology = e.topology
  now : e'.now = e.now
  routers : ∀ r', r' ≠ r → e'.router? r' = e.router? r'
  commands : ∀ c', c' ≠ c → e'.command? c' = e.command? c'
  freed : ∃ router, e.router? r = some router ∧ router.queue.slot = some c ∧
    e'.router? r = some { router with
      queue := router.queue.release
      stats := { router.stats with completed := router.stats.completed + 1 } }
  ended : ∃ command response, e.command? c = some command ∧
    e'.command? c = some { command with
      sent := true
      answered := true
      response := response
      phase := .done
      ending := some ending
      pollComplete := true
      listener := command.listener.told ending.reply } ∧
    e'.stack = command.notes ending ++
      [Task.drain r, Task.kick, Task.hold [r] [c], Task.handled] ++ e.stack

theorem Holds.router? (h : e.Holds r c command) :
    ∃ router, e.router? r = some router ∧ router.queue.slot = some c := by
  obtain ⟨router, hr, hslot, -⟩ := slotOf?_eq_some h.slotOf?
  exact ⟨router, hr, hslot⟩

theorem router?_count_setQueue (e : Engine) (r r' : RouterRef) (q : Queue)
    (f : Statistics → Statistics) :
    ((e.setQueue r q).count r f).router? r' = if r = r' then
      (e.router? r').map fun router => { router with queue := q, stats := f router.stats }
    else e.router? r' := by
  rw [count, setQueue, router?_updateRouter, router?_updateRouter]
  split
  · rw [Option.map_map]
    rfl
  · rfl

theorem Holds.concluded (h : e.Holds r c command) (response : Option (List UInt32))
    (ending : Ending) :
    e.Concluded r c ending (((e.push [.handled]).withSignals c (.both response)).complete r c
      command.generation ending) := by
  obtain ⟨router, hr, hslot⟩ := h.router?
  have hc : ((e.push [.handled]).withSignals c (.both response)).command? c =
      some (command.withSignals (.both response)) := command?_withSignals h.2
  have hcomplete := complete_of_slot (e := (e.push [.handled]).withSignals c (.both response)) hr
    hslot hc ending
  rw [finish_eq (by exact hc)] at hcomplete
  have reads (r' : RouterRef) := router?_count_setQueue e r r' router.queue.release
    fun stats => { stats with completed := stats.completed + 1 }
  have hgeneration : command.generation = (command.withSignals (.both response)).generation := rfl
  rw [hgeneration, hcomplete]
  refine ⟨rfl, rfl, fun r' hne => ?_, fun c' hne => ?_, ⟨router, hr, hslot, ?_⟩, command, response,
    h.2, ?_, ?_⟩
  · exact (reads r').trans (if_neg (Ne.symm hne))
  · show Commands.get? (Commands.update _ c _) c' = _
    rw [Commands.get?_update, if_neg (Ne.symm hne)]
    exact command?_withSignals_of_ne (e := e.push [.handled]) hne
  · refine (reads r).trans ?_
    rw [if_pos rfl, hr]
    rfl
  · show Commands.get? (Commands.update _ c _) c = _
    rw [Commands.get?_update, if_pos rfl]
    refine (congrArg _ hc).trans ?_
    cases hl : command.listener with
    | nobody | callback =>
      simp [Command.finish, Command.withSignals, Signals.both, Listener.told, hl]
    | future reply =>
      cases reply <;> simp [Command.finish, Command.withSignals, Signals.both, Listener.told, hl]
  · show command.notes ending ++
      ([Task.drain r, Task.kick, Task.hold [r] [c]] ++ .handled :: e.stack) = _
    simp

/-! ## What may happen in between -/

/-- An arrival that is for no attempt at all. -/
theorem receive_stray (hno : ∀ r c, ¬ e.Concerns r c arrival) :
    (e.receive arrival).commands = e.commands ∧ (e.receive arrival).topology = e.topology ∧
      ∀ r, (e.receive arrival).queue r = e.queue r := by
  by_cases hsignal : arrival.isSignal = true
  · by_cases haddr : ∃ r fits, e.Addressed r arrival fits
    · obtain ⟨r, fits, ha⟩ := haddr
      rw [receive_stale ha fun c command hc hfits => hno r c ⟨command, hc, .inl ⟨fits, ha, hfits⟩⟩]
      exact ⟨rfl, rfl, fun r' => queue_count _ _ _ _⟩
    · rw [receive_unaddressed hsignal fun r fits ha => haddr ⟨r, fits, ha⟩]
      exact ⟨rfl, rfl, fun _ => rfl⟩
  · cases arrival with
    | sent context => exact absurd rfl hsignal
    | received channel label bytes =>
      cases channel with
      | read | write => exact absurd rfl hsignal
      | hotplug =>
        show ((e.push [.handled]).onHotplug bytes).commands = _ ∧
          ((e.push [.handled]).onHotplug bytes).topology = _ ∧
            ∀ r, ((e.push [.handled]).onHotplug bytes).queue r = _
        unfold onHotplug
        split <;> exact ⟨rfl, rfl, fun _ => rfl⟩
      | notify =>
        rw [receive_unalerted fun r event c command ha hc =>
          hno r c ⟨command, hc, .inr ⟨event, ha⟩⟩]
        exact ⟨rfl, rfl, fun _ => rfl⟩

/-- A move that has nothing to do with the attempt in the slot of a router: an arrival that is for
no attempt at all, or whatever is no arrival for it and leaves it in the slot and the router on its
routes. -/
inductive Aside (e : Engine) (r : RouterRef) (c : CommandRef) : Move → Engine → Prop
  | stray {arrival : Arrival} {e' : Engine} : (∀ r c, ¬ e.Concerns r c arrival) →
      e.move? (.receive arrival) = some e' → Aside e r c (.receive arrival) e'
  | apart {m : Move} {e' : Engine} : (∀ call, m = .call call → e.Allows call) →
      (∀ arrival, m = .receive arrival → ¬ e.Concerns r c arrival) → e.move? m = some e' →
      (e'.queue r).slot = some c →
      (∀ route, e.topology.lookup route = .ok r → e'.topology.lookup route = .ok r) →
      Aside e r c m e'

/-- Moves that have nothing to do with the attempt in the slot of a router, one after the other. -/
inductive Meanwhile (r : RouterRef) (c : CommandRef) : Engine → List Move → Engine → Prop
  | done (e : Engine) : Meanwhile r c e [] e
  | next {e mid e' : Engine} {m : Move} {ms : List Move} : e.Aside r c m mid →
      Meanwhile r c mid ms e' → Meanwhile r c e (m :: ms) e'

theorem Aside.move (k : e.Aside r c m e') : e.move? m = some e' := by
  cases k with
  | stray _ hm => exact hm
  | apart _ _ hm _ _ => exact hm

theorem Aside.allows (k : e.Aside r c m e') : ∀ call, m = .call call → e.Allows call := by
  cases k with
  | stray _ _ => nofun
  | apart ha _ _ _ _ => exact ha

theorem Aside.spares (k : e.Aside r c m e') :
    ∀ arrival, m = .receive arrival → ¬ e.Concerns r c arrival := by
  cases k with
  | stray hno _ =>
    intro arrival harrival
    cases harrival
    exact hno r c
  | apart _ hno _ _ _ => exact hno

theorem Aside.slot (k : e.Aside r c m e') (hslot : (e.queue r).slot = some c) :
    (e'.queue r).slot = some c := by
  cases k with
  | stray hno hm =>
    rw [receive_of_receive hm, (receive_stray hno).2.2 r]
    exact hslot
  | apart _ _ _ hkept _ => exact hkept

theorem Aside.route (k : e.Aside r c m e') {route : Route}
    (hroute : e.topology.lookup route = .ok r) : e'.topology.lookup route = .ok r := by
  cases k with
  | stray hno hm =>
    rw [receive_of_receive hm, (receive_stray hno).2.1]
    exact hroute
  | apart _ _ _ _ hway => exact hway route hroute

theorem Meanwhile.route {ms : List Move} (k : e.Meanwhile r c ms e') {route : Route}
    (hroute : e.topology.lookup route = .ok r) : e'.topology.lookup route = .ok r := by
  induction k with
  | done e => exact hroute
  | next k _ ih => exact ih (k.route hroute)

theorem allows_withSignals {call : Call} (h : e.Allows call) : (e.withSignals c s).Allows call := by
  cases call with
  | attachRoot => exact h
  | attachChild | detach | resume | operate => exact h

/-- It has nothing to do with the attempt whatever is noted for it. -/
theorem Aside.withSignals (k : e.Aside r c m e') (h : e.Sound)
    (hslot : (e.queue r).slot = some c) (s : Signals) :
    (e.withSignals c s).Aside r c m (e'.withSignals c s) := by
  have hm := h.move?_withSignals (s := s) hslot k.move (k.slot hslot) k.spares
  cases k with
  | stray hno _ =>
    refine .stray (fun r' c' hconcerns => ?_) hm
    exact hno r' c' (concerns_withSignals.1 hconcerns)
  | apart ha hno _ hkept hway =>
    refine .apart (fun call hcall => allows_withSignals (ha call hcall))
      (fun arrival harrival hconcerns => ?_) hm hkept hway
    exact hno arrival harrival (concerns_withSignals.1 hconcerns)

end Engine

variable {settings : Settings} {turns : List Turn} {e e' : Engine} {m : Move} {ms : List Move}
  {r : RouterRef} {c : CommandRef} {command : Command}

theorem Run.aside (h : Run settings turns e) (k : e.Aside r c m e') :
    Run settings (⟨e, m, e'⟩ :: turns) e' :=
  .next h k.allows k.move

/-- What has nothing to do with an attempt leaves it as it is. -/
theorem Run.holds_aside (h : Run settings turns e) (hc : e.Holds r c command)
    (k : e.Aside r c m e') :
    ∃ command', e'.Holds r c command' ∧ command'.substance = command.substance := by
  have hslot' := k.slot hc.1
  obtain ⟨command', hc', -⟩ := (h.aside k).sound.waiting_of_slot hslot'
  refine ⟨command', ⟨hslot', hc'⟩, ?_⟩
  have of_substance (hs : (e'.command? c).map Command.substance =
      (e.command? c).map Command.substance) : command'.substance = command.substance := by
    rw [hc', hc.2] at hs
    exact Option.some.inj hs
  rcases h.sound.attempts k.allows k.move with steady | ⟨r', c', commences⟩ |
    ⟨r', c', old, signal, words, -, -, a⟩
  · exact of_substance (steady.commands c (queued_of_slot hslot'))
  · refine of_substance (commences.others c ?_)
    rintro rfl
    exact commences.fresh (queued_of_slot hc.1)
  · by_cases hne : c = c'
    · subst hne
      have hold := a.before.symm.trans hc.2
      have hnoted := a.after.symm.trans hc'
      cases hold
      cases hnoted
      -- the signals are what they were, as the move does not see them
      have hm := h.sound.move?_withSignals (s := command.signals) hc.1 k.move hslot' k.spares
      rw [withSignals_self hc.2, k.move] at hm
      have hsame := command?_withSignals (s := command.signals) hc'
      rw [← Option.some.inj hm, hc'] at hsame
      rw [Option.some.inj hsame]
      rfl
    · exact of_substance (a.others c hne).substance

theorem Run.holds_meanwhile (h : Run settings turns e) (hc : e.Holds r c command)
    (k : e.Meanwhile r c ms e') : ∃ turns' command', Run settings turns' e' ∧
      e'.Holds r c command' ∧ command'.substance = command.substance := by
  induction k generalizing turns command with
  | done e => exact ⟨turns, command, h, hc, rfl⟩
  | next k _ ih =>
    obtain ⟨middle, hmid, hsame⟩ := h.holds_aside hc k
    obtain ⟨turns', command', h', hc', hsame'⟩ := ih (h.aside k) hmid
    exact ⟨turns', command', h', hc', hsame'.trans hsame⟩

theorem Run.meanwhile_withSignals (h : Run settings turns e) (hslot : (e.queue r).slot = some c)
    (k : e.Meanwhile r c ms e') (s : Signals) :
    (e.withSignals c s).Meanwhile r c ms (e'.withSignals c s) := by
  induction k generalizing turns with
  | done e => exact .done _
  | next k _ ih => exact .next (k.withSignals h.sound hslot s) (ih (h.aside k) (k.slot hslot))

/-- An attempt that is not answered has no words. -/
theorem Run.unanswered (h : Run settings turns e) : ∀ c command, e.Queued c →
    e.command? c = some command → command.answered = false → command.response = none := by
  induction h with
  | start =>
    intro c command _ hc
    rw [command?_opening] at hc
    cases hc
  | @next turns e e' m prior ha hm ih =>
    intro c command hq hc hwaits
    have of_substance (hq : e.Queued c) (hs : (e'.command? c).map Command.substance =
        (e.command? c).map Command.substance) : command.response = none := by
      rw [hc] at hs
      obtain ⟨old, hold, hsame⟩ := Option.map_eq_some_iff.1 hs.symm
      have hanswered : old.answered = command.answered := congrArg (·.answered) hsame
      have hresponse : old.response = command.response := congrArg (·.response) hsame
      exact hresponse.symm.trans (ih c old hq hold (hanswered.trans hwaits))
    rcases prior.sound.attempts ha hm with steady | ⟨r, c', commences⟩ |
      ⟨r, c', old, signal, words, hslot, signalled, a⟩
    · exact of_substance (steady.queued hq) (steady.commands c hq)
    · by_cases hne : c = c'
      · subst hne
        exact (commences.current command hc).2.1
      · exact of_substance (commences.queued hq hne) (commences.others c hne)
    · by_cases hne : c = c'
      · subst hne
        have hnoted := a.after.symm.trans hc
        cases hnoted
        cases signalled with
        | sent context =>
          refine ih c old (queued_of_slot hslot) a.before ?_
          simpa [Command.noted] using hwaits
        | answered => simp [Command.noted] at hwaits
      · exact of_substance (a.queued hq) (a.others c hne).substance

/-! ## Either order -/

theorem not_working_of_receive {arrival : Arrival} (hm : e.move? (.receive arrival) = some e') :
    e.isWorking = false := by
  unfold move? at hm
  cases hworks : e.isWorking with
  | false => rfl
  | true => simp [hworks] at hm

theorem move?_receive (arrival : Arrival) (h : e.isWorking = false) :
    e.move? (.receive arrival) = some (e.receive arrival) := by
  simp [move?, h]

/-- **Either order has the same outcome.** Of two signals that reach an attempt as long as a route
leads to its router, the one that comes second ends the attempt, and had they come the other way
round, the engine would be the same. -/
theorem Run.either_order {first second : Arrival} {signal signal' : Signal}
    {words words' : Option (List UInt32)} {route : Route} {e₂ e₃ e₄ : Engine}
    (h : Run settings turns e) (hc : e.Holds r c command) (hnothing : command.signals = .nothing)
    (hne : signal ≠ signal') (hroute : e.topology.lookup route = .ok r)
    (reach : ∀ e' : Engine, e'.Stored → e'.topology.lookup route = .ok r →
      e'.Reaches r command first signal words ∧ e'.Reaches r command second signal' words')
    (hm : e.move? (.receive first) = some e₂) (between : e₂.Meanwhile r c ms e₃)
    (hm' : e₃.move? (.receive second) = some e₄) :
    e₃.Concluded r c (.completed ((words'.orElse fun _ => words).getD [])) e₄ ∧
      ∃ e₂' e₃', e.move? (.receive second) = some e₂' ∧ e₂'.Meanwhile r c ms e₃' ∧
        e₃'.move? (.receive first) = some e₄ := by
  obtain ⟨k₁, k₁'⟩ := reach e h.sound.toStored hroute
  have he₂ := (receive_of_receive hm).trans (k₁.first hc hnothing)
  have hc₂ : e₂.Holds r c (command.withSignals (Signals.nothing.note signal words)) :=
    he₂ ▸ Holds.withSignals (e := e.push [.handled]) hc
  have run₂ : Run settings (⟨e, .receive first, e₂⟩ :: turns) e₂ := .next h nofun hm
  obtain ⟨turns₃, command₃, run₃, hc₃, hsame⟩ := run₂.holds_meanwhile hc₂ between
  have hroute₂ : e₂.topology.lookup route = .ok r := he₂ ▸ hroute
  obtain ⟨k₃, k₃'⟩ := reach e₃ run₃.sound.toStored (between.route hroute₂)
  have hsignals : command₃.signals = Signals.nothing.note signal words :=
    congrArg Command.signals hsame
  have he₄ := (receive_of_receive hm').trans
    (((k₃'.withSignals _).of_substance hsame).second hc₃ hsignals hne)
  refine ⟨he₄ ▸ hc₃.concluded none _, ?_⟩
  refine ⟨e.receive second, e₃.withSignals c (Signals.nothing.note signal' words'),
    move?_receive second (not_working_of_receive hm), ?_, ?_⟩
  · have hmeanwhile := run₂.meanwhile_withSignals hc₂.1 between
      (Signals.nothing.note signal' words')
    rw [he₂, withSignals_withSignals] at hmeanwhile
    rw [k₁'.first hc hnothing]
    exact hmeanwhile
  · have hworking := (run₃.sound.pause_withSignals (s := Signals.nothing.note signal' words')
      hc₃.1).1.trans (not_working_of_receive hm')
    have k : (e₃.withSignals c (Signals.nothing.note signal' words')).Reaches r
        (command₃.withSignals (Signals.nothing.note signal' words')) first signal words :=
      (((k₃.withSignals _).of_substance hsame).withSignals _).onto
    have hlast := k.second hc₃.withSignals rfl (Ne.symm hne)
    rw [move?_receive first hworking, hlast, he₄, k₃.words_comm k₃' hne]
    show some (Engine.complete (((e₃.push [.handled]).withSignals c _).withSignals c _) r c
      command₃.generation _) = _
    rw [withSignals_withSignals]

/-! ## After an event -/

namespace Engine

/-- An attempt with this generation is over: as long as no other has begun, the command has ended
with the event or its caller has taken note of that, and nothing is left that could end it again. -/
def Over (e : Engine) (c : CommandRef) (generation : Nat) (event : Event) : Prop :=
  ∃ command, e.command? c = some command ∧ generation ≤ command.generation ∧
    (command.generation = generation → ¬ e.Lives c ∧ command.pollComplete = true ∧
      (command.ending = none ∨ command.ending = some (.interrupted event)))

end Engine

theorem Run.over_next {generation : Nat} {event : Event} (h : Run settings turns e)
    (ha : ∀ call, m = .call call → e.Allows call) (hm : e.move? m = some e')
    (ho : e.Over c generation event) : e'.Over c generation event := by
  obtain ⟨command, hc, hle, hover⟩ := ho
  obtain ⟨command', hc', -⟩ := (h.sound.extends ha hm).commands c command hc
  have hbefore := attempt_of_command hc
  have hafter := attempt_of_command hc'
  refine ⟨command', hc', ?_⟩
  cases h.fate ha hm (Commands.lt_of_get? hc) with
  | spared s =>
    have hsame := attempt_of_substance s.substance
    rw [hbefore, hafter, Prod.mk.injEq] at hsame
    refine ⟨hsame.1 ▸ hle, fun heq => ?_⟩
    obtain ⟨hdead, hpoll, hending⟩ := hover (hsame.1 ▸ heq)
    obtain ⟨old, hold, hsub⟩ := s.was hc'
    have hold := hold.symm.trans hc
    cases hold
    refine ⟨fun hlives => ?_, (congrArg (·.pollComplete) hsub).symm.trans hpoll, ?_⟩
    · rcases h.lives_was ha hm hlives with hlives | ⟨r, commences⟩
      · exact hdead hlives
      · have hnext := congrArg Prod.fst commences.attempt
        rw [hbefore, hafter] at hnext
        simp only at hnext
        omega
    · cases hend : command'.ending with
      | none => exact .inl rfl
      | some ending =>
        obtain ⟨old, hold, hsame⟩ := s.ending command' ending hc' hend
        rw [hc] at hold
        cases hold
        rw [hsame] at hending
        exact .inr (hending.resolve_left nofun)
  | commences r commences =>
    have hnext := congrArg Prod.fst commences.attempt
    rw [hbefore, hafter] at hnext
    simp only at hnext
    omega
  | lived hlives hsame =>
    rw [hbefore, hafter, Prod.mk.injEq] at hsame
    refine ⟨hsame.1 ▸ hle, fun heq => ?_⟩
    exact absurd hlives (hover (hsame.1 ▸ heq)).1

/-- What is over stays over. -/
theorem Run.over_later {generation : Nat} {event : Event} {later earlier : List Turn} {turn : Turn}
    (h : Run settings (later ++ turn :: earlier) e) (ho : turn.after.Over c generation event) :
    e.Over c generation event := by
  induction later generalizing e with
  | nil =>
    cases h with
    | next prior ha hm => exact ho
  | cons turn' later ih =>
    cases h with
    | next prior ha hm => exact prior.over_next ha hm (ih prior)

namespace Engine

variable {c' : CommandRef} {event : Event} {arrival : Arrival}

/-! ## Arrivals and commands in no queue -/

theorem command?_finish_of_ne (hne : c ≠ c') (ending : Ending) :
    (e.finish c' ending).command? c = e.command? c := by
  unfold finish
  cases e.command? c' with
  | none => rfl
  | some command =>
    have hupdate : Commands.get? (e.commands.update c' (·.finish ending)) c = e.command? c := by
      rw [Commands.get?_update, if_neg (Ne.symm hne)]
      rfl
    simp only
    split <;> exact hupdate

theorem command?_complete_of_ne (hne : c ≠ c') (r : RouterRef) (generation : Nat)
    (ending : Ending) : (e.complete r c' generation ending).command? c = e.command? c := by
  unfold complete
  split
  · rfl
  · split
    · rfl
    · exact command?_finish_of_ne hne ending

theorem command?_signal_of_ne (hne : c ≠ c') (r : RouterRef) (generation : Nat) (signal : Signal)
    (words : Option (List UInt32)) :
    (e.signal r c' generation signal words).command? c = e.command? c := by
  unfold Engine.signal
  simp only
  split
  · rw [command?_complete_of_ne hne]
    show (Commands.change _ _ _ _).2.get? c = _
    rw [Commands.get?_change_of_ne hne, Commands.get?_change_of_ne hne]
    rfl
  · exact Commands.get?_change_of_ne hne false _

/-- No arrival changes a command that is in no queue. -/
theorem Stored.command?_receive (h : e.Stored) (hq : ¬ e.Queued c) (arrival : Arrival) :
    (e.receive arrival).command? c = e.command? c := by
  by_cases hno : ∀ r c', ¬ e.Concerns r c' arrival
  · exact congrArg (Commands.get? · c) (receive_stray hno).1
  · simp only [not_forall, not_not] at hno
    obtain ⟨r, c', command', hc, hconcerns⟩ := hno
    have hne : c ≠ c' := by
      rintro rfl
      exact hq (queued_of_slot hc.1)
    rcases hconcerns with ⟨fits, ha, hfits⟩ | ⟨event, ha⟩
    · cases ha with
      | sent hnode =>
        obtain ⟨rfl, rfl⟩ := hfits
        rw [receive_sent hnode hc, command?_signal_of_ne hne]
        rfl
      | answered hn hh hread hroute =>
        obtain ⟨rfl, hseq⟩ := hfits
        rw [receive_answer hn hh hread hroute hseq hc, command?_signal_of_ne hne]
        rfl
    · have hwaits := h.isComplete_of_slot hc.slotOf?
      cases ha with
      | mk hread hevent hroute =>
        rw [receive_alert ⟨hread, hevent, hroute⟩ hc hwaits, command?_complete_of_ne hne]
        show Commands.get? (e.commands.set c'.index _) c = _
        rw [Commands.get?_set hc.2, if_neg (Ne.symm hne)]
        rfl

/-- An event ends the attempt in a slot at once. -/
theorem Alerted.concluded (ha : e.Alerted r event arrival) (h : e.Holds r c command)
    (hwaits : command.isComplete = false) :
    e.Concluded r c (.interrupted event) (e.receive arrival) := by
  have hmarked : e.commands.set c.index command.forced =
      (e.commands).withSignals c (.both command.response) :=
    Commands.set_withSignals_self h.2 (.both command.response)
  cases ha with
  | mk hread hevent hroute =>
    rw [receive_alert ⟨hread, hevent, hroute⟩ h hwaits, hmarked]
    exact h.concluded command.response (.interrupted event)

end Engine

/-- An attempt that has ended with an event is over. -/
theorem Run.over_of_concluded {event : Event} (h : Run settings turns e) (hc : e.Holds r c command)
    (k : e.Concluded r c (.interrupted event) e') : e'.Over c command.generation event := by
  obtain ⟨old, response, hold, hnew, hstack⟩ := k.ended
  have hold := hold.symm.trans hc.2
  cases hold
  refine ⟨_, hnew, Nat.le_refl _, fun _ => ⟨?_, rfl, .inr rfl⟩⟩
  have hmem : c ∈ (e.queue r).members := Queue.mem_members.2 (.inl hc.1)
  rintro (⟨r', hm⟩ | ⟨r', ht⟩)
  · by_cases hne : r' = r
    · subst hne
      obtain ⟨router, hr, hslot, hr'⟩ := k.freed
      have hnodup := (h.sound.orderly r').nodup
      rw [queue_of_router? hr, Queue.members_of_slot hslot] at hnodup
      rw [queue_of_router? hr', Queue.members_release] at hm
      exact (List.nodup_cons.1 hnodup).1 hm
    · have hsame : e'.queue r' = e.queue r' := by
        unfold Engine.queue
        rw [k.routers r' hne]
      exact hne (h.sound.eq_of_mem (hsame ▸ hm) hmem)
  · rw [hstack] at ht
    rcases List.mem_append.1 ht with ht | ht
    · rcases List.mem_append.1 ht with ht | ht
      · obtain ⟨tag, -, heq⟩ := List.mem_map.1 ht
        cases heq
      · simp at ht
    · exact (h.sound.tasks _ ht).1 ⟨r, hmem⟩

/-- **An attempt ends once, and it does not matter which of its two signals comes first.** In every
state of a run in which a command holds the slot of a router:

* If neither signal is in, then of the report that the request was sent and one answer, whichever
comes second ends the attempt. It ends with as many words as were asked for, are declared and are
there, or with none if it is a write. Had the two come the other way round, with the same moves in
between, the engine would be the same.
* An event of that router ends the attempt at once, whatever has arrived before. As long as no other
attempt of the command has begun, the command is in no queue, the only end that can be taken note of
is that event, and no arrival changes the command. -/
theorem Run.ends_once (h : Run settings turns e) (hc : e.Holds r c command) :
    (command.sent = false → command.answered = false →
      ∀ channel hi lo third present first second between e₂ e₃ e₄,
        channel ≠ .notify → channel ≠ .hotplug → command.seq = (Address.ofWord third).seq →
        e.topology.lookup (Route.ofWords hi lo) = .ok r →
        [first, second].Perm [.sent (some command.frame.context),
          .received channel command.kind.packetType
            (Packet.toWire (hi :: lo :: third :: present))] →
        e.move? (.receive first) = some e₂ → e₂.Meanwhile r c between e₃ →
        e₃.move? (.receive second) = some e₄ →
          e₃.Concluded r c
            (.completed (command.wordsOf (Address.ofWord third).dwords present)) e₄ ∧
          ∃ e₂' e₃', e.move? (.receive second) = some e₂' ∧ e₂'.Meanwhile r c between e₃' ∧
            e₃'.move? (.receive first) = some e₄) ∧
    ∀ event arrival e', e.Alerted r event arrival → e.move? (.receive arrival) = some e' →
      e.Concluded r c (.interrupted event) e' ∧
      ∀ later e'', Run settings (later ++ ⟨e, .receive arrival, e'⟩ :: turns) e'' →
        (e''.attempt c).1 = command.generation →
          ¬ e''.Queued c ∧ ∃ command', e''.command? c = some command' ∧
            command'.pollComplete = true ∧
            (command'.ending = none ∨ command'.ending = some (.interrupted event)) ∧
            ∀ arrival', (e''.receive arrival').command? c = some command' := by
  refine ⟨fun hsent hanswered => ?_, ?_⟩
  · intro channel hi lo third present first second between e₂ e₃ e₄ hn hh hseq hroute hperm hm k hm'
    rw [(h.filled (queued_of_slot hc.1)).eq hc.2] at hperm
    have hnothing : command.signals = .nothing := by
      have hresponse := h.unanswered c command (queued_of_slot hc.1) hc.2 hanswered
      simp [Command.signals, Signals.nothing, hsent, hanswered, hresponse]
    have hwords := getD_kept_readable (h.dwords_le hc.2) (Address.ofWord third).dwords present
    have hnode := h.sound.node_of_holds hc
    have answer {e' : Engine} (hl : e'.topology.lookup (Route.ofWords hi lo) = .ok r) :=
      Reaches.answered hn hh (response?_toWire command hi lo third present) hl hseq
    rcases List.perm_pair.1 hperm with heq | heq
    · cases heq
      have hboth := h.either_order hc hnothing (by decide) hroute
        (fun e' h' hl => ⟨h'.reaches_report (lookup_get? hl) hnode, answer hl⟩) hm k hm'
      rw [Option.orElse_eq_or, Option.or_none, hwords] at hboth
      exact hboth
    · cases heq
      have hboth := h.either_order hc hnothing (by decide) hroute
        (fun e' h' hl => ⟨answer hl, h'.reaches_report (lookup_get? hl) hnode⟩) hm k hm'
      rw [Option.orElse_eq_or, Option.none_or, hwords] at hboth
      exact hboth
  · intro event arrival e' ha hm
    have he' := receive_of_receive hm
    have concluded : e.Concluded r c (.interrupted event) e' := by
      rw [he']
      exact ha.concluded hc (h.sound.isComplete_of_slot hc.slotOf?)
    refine ⟨concluded, fun later e'' h'' hsame => ?_⟩
    obtain ⟨command', hc', -, hover⟩ := h''.over_later (h.over_of_concluded hc concluded)
    rw [attempt_of_command hc'] at hsame
    obtain ⟨hdead, hpoll, hending⟩ := hover hsame
    have hq : ¬ e''.Queued c := fun hq => hdead (.inl hq)
    refine ⟨hq, command', hc', hpoll, hending, fun arrival' => ?_⟩
    exact (h''.sound.command?_receive hq arrival').trans hc'

namespace Engine

/-- What comes of moves from inside that leave an attempt in its slot and the tree as it is. -/
def meanwhile? (r : RouterRef) (c : CommandRef) (e : Engine) : List Move → Option Engine
  | [] => some e
  | .call _ :: _ => none
  | .receive _ :: _ => none
  | m :: ms =>
    match e.move? m with
    | none => none
    | some mid =>
      if (mid.queue r).slot = some c ∧ mid.topology.tree = e.topology.tree then
        meanwhile? r c mid ms
      else
        none

theorem meanwhile_of_meanwhile? (h : meanwhile? r c e ms = some e') : e.Meanwhile r c ms e' := by
  fun_induction meanwhile? r c e ms with
  | case1 e =>
    cases h
    exact .done _
  | case5 e m ms hcall hreceive mid hm hkept ih =>
    refine .next (.apart (fun call heq => (hcall call heq).elim)
      (fun arrival heq => (hreceive arrival heq).elim) hm hkept.1 fun route hroute => ?_) (ih h)
    unfold Topology.lookup at hroute ⊢
    rw [hkept.2]
    exact hroute
  | _ => cases h

end Engine

/-- A word is read from the host router, and the request has just been handed to the transport. -/
def readingMoves : List Move :=
  hostMoves hostWords ++
  ([.call (.operate ⟨0⟩ (.transfer (.read .router 0 64 1) (.waiting .woken))), .proceed,
    .grant (.ok ()), .proceed, .proceed] : List Move)

/-- The address word of an answer to that request. -/
def readingWord : UInt32 := (Address.mk .router 0 64 1 1).word

/-- The answer arrives before the transport has accepted the request, and the report that it was
sent completes the read; or a link error ends it at once. -/
theorem answered_while_submitted : ∃ (turns : List Turn) (e e₃ e₄ e' : Engine) (command : Command),
    Run {} turns e ∧ e.Holds ⟨0⟩ ⟨1⟩ command ∧ e₃.Concluded ⟨0⟩ ⟨1⟩ (.completed [5]) e₄ ∧
      e.Concluded ⟨0⟩ ⟨1⟩ (.interrupted .linkError) e' := by
  have played : (replay? {} readingMoves.reverse).any (fun played =>
      decide ((played.2.queue ⟨0⟩).slot = some ⟨1⟩) &&
      decide (played.2.topology.lookup (Route.ofWords 0x80000000 0) = .ok ⟨0⟩) &&
      (played.2.command? ⟨1⟩).any fun command =>
        decide (command.sent = false) && decide (command.answered = false) &&
        decide (command.seq = (Address.ofWord readingWord).seq) &&
        decide (command.wordsOf (Address.ofWord readingWord).dwords [5] = [5]) &&
        (played.2.move? (.receive (.received .notify .notify
          (Notification.encode ⟨Route.root, 1, 0, 0⟩)))).isSome &&
        (played.2.move? (.receive (.received .read command.kind.packetType
          (Packet.toWire [0x80000000, 0, readingWord, 5])))).any fun e₂ : Engine =>
            (meanwhile? ⟨0⟩ ⟨1⟩ e₂ [.collect, .grant (.ok ()), .proceed, .proceed]).any fun e₃ =>
              (e₃.move? (.receive (.sent (some command.frame.context)))).isSome) = true := by
    decide +kernel
  have read : Notification.decode (Notification.encode ⟨Route.root, 1, 0, 0⟩) =
      .ok ⟨Route.root, 1, 0, 0⟩ := by
    decide +kernel
  obtain ⟨turns, e, run, hcheck⟩ := exists_of_replay? played
  simp only [Bool.and_eq_true, decide_eq_true_eq, Option.any_eq_true, Option.isSome_iff_exists]
    at hcheck
  obtain ⟨⟨hslot, hroute⟩, command, hc, ⟨⟨⟨⟨⟨hsent, hanswered⟩, hseq⟩, hwords⟩, e', halert⟩,
    e₂, hm, e₃, hmeanwhile, e₄, hm'⟩⟩ := hcheck
  obtain ⟨horder, hevent⟩ := run.ends_once ⟨hslot, hc⟩
  have concluded := (horder hsent hanswered .read 0x80000000 0 readingWord [5] _ _ _ e₂ e₃ e₄
    (by decide) (by decide) hseq hroute (List.Perm.swap _ _ _) hm
    (meanwhile_of_meanwhile? hmeanwhile) hm').1
  rw [hwords] at concluded
  have hroot : e.topology.lookup Route.root = .ok ⟨0⟩ := hroute
  exact ⟨turns, e, e₃, e₄, e', command, run, ⟨hslot, hc⟩, concluded,
    (hevent .linkError _ e' ⟨read, rfl, hroot⟩ halert).1⟩

end RouterFabric
