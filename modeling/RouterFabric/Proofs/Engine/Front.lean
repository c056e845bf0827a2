import RouterFabric.Proofs.Completion

/-!
# The front of a router

Whoever stands in the line of a router has to reckon with the command in the slot and with those in
front of it in the line. As long as nobody calls, the transport takes what it is offered, and the
command in the slot is not answered, the tasks that are under way besides the caller's own can do
only one thing about them: a free slot is given to the head of the line.

* `Front`, `Engine.front?` : what is to be reckoned with at a router
* `Command.stance` : what is to be reckoned with in a command
* `Engine.Quiet` : nobody calls, everything is taken, and a router does not answer
* `Engine.Bypasses`, `Engine.Takes` : what is done at a router meanwhile
* `Stored.errand` : a quiet move while something else than the caller's task is in progress
-/

namespace RouterFabric

/-- What is to be reckoned with at a router. -/
structure Front where
  slot : Option CommandRef
  pending : List CommandRef
  timeouts : Nat
  detached : Bool

/-- A free slot has nobody in front of it, or a pass over the queue is still to come. -/
def Front.Tended (front : Front) (r : RouterRef) (chores : List Task) : Prop :=
  front.slot = none → front.pending = [] ∨ .drain r ∈ chores

/-- Loose tasks that hand no command to the transport. -/
def Task.isMinor : Task → Bool
  | .offer _ _ => false
  | t => t.isLoose

theorem Task.isLoose_of_minor {t : Task} (h : t.isMinor = true) : t.isLoose = true := by
  cases t <;> first | exact h | cases h

def Router.front (router : Router) : Front where
  slot := router.queue.slot
  pending := router.queue.pending
  timeouts := router.stats.timeouts
  detached := router.detached

/-- What is to be reckoned with in a command. -/
structure Stance where
  node : NodeId
  kind : CommandKind
  address : Address
  generation : Nat
  answered : Bool
  response : Option (List UInt32)
  pollComplete : Bool
  ending : Option Ending
  listener : Listener

def Command.stance (command : Command) : Stance where
  node := command.node
  kind := command.kind
  address := command.address
  generation := command.generation
  answered := command.answered
  response := command.response
  pollComplete := command.pollComplete
  ending := command.ending
  listener := command.listener

namespace Engine

variable {e e' : Engine} {m : Move} {r r' : RouterRef} {router : Router} {c c' x : CommandRef}
  {command : Command} {arrival : Arrival} {t task : Task} {chores chores' below : List Task}

def front? (e : Engine) (r : RouterRef) : Option Front :=
  (e.router? r).map Router.front

/-- Nobody calls, the transport takes whatever it is offered, and nothing but the report that its
request was sent arrives for the attempt in the slot of the router. -/
def Quiet (e : Engine) (r : RouterRef) : Move → Prop
  | .call _ => False
  | .grant answer => answer = .ok ()
  | .receive arrival => ∀ c, e.Concerns r c arrival → ∃ context, arrival = .sent context
  | .collect => ∀ result below, e.stack ≠ .answer result :: below
  | _ => True

/-- Nothing that is to be reckoned with at a router changes. -/
structure Bypasses (e e' : Engine) (r : RouterRef) : Prop where
  front : e'.front? r = e.front? r
  commands : ∀ c command, e.command? c = some command → command.node = ⟨r.index⟩ →
    ∃ command', e'.command? c = some command' ∧ command'.stance = command.stance ∧
      command'.since = command.since

/-- The head of the line is taken into the slot of a router, and nothing else changes there. -/
structure Takes (e e' : Engine) (r : RouterRef) : Prop where
  front : ∃ x rest timeouts detached, e.front? r = some ⟨none, x :: rest, timeouts, detached⟩ ∧
    e'.front? r = some ⟨some x, rest, timeouts, detached⟩
  commands : ∀ c command, e.command? c = some command →
    ∃ command', e'.command? c = some command' ∧ command'.stance = command.stance

theorem queue_of_front {front : Front} (h : e.front? r = some front) :
    (e.queue r).slot = front.slot ∧ (e.queue r).pending = front.pending := by
  obtain ⟨router, hr, rfl⟩ := Option.map_eq_some_iff.1 h
  rw [queue_of_router? hr]
  exact ⟨rfl, rfl⟩

theorem pending_of_front? (h : e'.front? r = e.front? r) :
    (e'.queue r).pending = (e.queue r).pending := by
  cases hfront : e.front? r with
  | none =>
    have hr : e.router? r = none := Option.map_eq_none_iff.1 hfront
    have hr' : e'.router? r = none := Option.map_eq_none_iff.1 (h.trans hfront)
    unfold queue
    rw [hr, hr']
  | some front =>
    exact (queue_of_front (h.trans hfront)).2.trans (queue_of_front hfront).2.symm

theorem front?_updateRouter (e : Engine) (r r' : RouterRef) {f : Router → Router}
    (hf : ∀ router, (f router).front = router.front) :
    (e.updateRouter r' f).front? r = e.front? r := by
  unfold front?
  rw [router?_updateRouter]
  split
  · cases e.router? r with
    | none => rfl
    | some router => exact congrArg some (hf router)
  · rfl

theorem front?_count (e : Engine) (r r' : RouterRef) {f : Statistics → Statistics}
    (hf : ∀ stats, (f stats).timeouts = stats.timeouts) :
    (e.count r' f).front? r = e.front? r := by
  refine front?_updateRouter e r r' fun router => ?_
  unfold Router.front
  rw [hf]

theorem bypasses_of_eq (hr : e'.front? r = e.front? r) (hc : e'.commands = e.commands) :
    e.Bypasses e' r := by
  refine ⟨hr, fun c command hcommand _ => ⟨command, ?_, rfl, rfl⟩⟩
  unfold command?
  rw [hc]
  exact hcommand

theorem bypasses_elsewhere (hr : e'.router? r = e.router? r)
    (hc : ∀ c command, e.command? c = some command → command.node = ⟨r.index⟩ →
      e'.command? c = some command) : e.Bypasses e' r :=
  ⟨congrArg (·.map Router.front) hr, fun c command hcommand hnode =>
    ⟨command, hc c command hcommand hnode, rfl, rfl⟩⟩

theorem router?_updateRouter_of_ne (hne : r' ≠ r) (f : Router → Router) :
    (e.updateRouter r' f).router? r = e.router? r := by
  rw [router?_updateRouter, if_neg hne]

/-- What stands in the queue of another router is no command of this one. -/
theorem Stored.ne_of_member (h : e.Stored) (hmem : c' ∈ (e.queue r').members) (hne : r' ≠ r)
    (hc : e.command? c = some command) (hnode : command.node = ⟨r.index⟩) : c ≠ c' := by
  rintro rfl
  obtain ⟨command', hc', ⟨hnode', -⟩, -⟩ := h.members r' c hmem
  cases hc'.symm.trans hc
  exact hne (ref_eq_iff.2 (NodeId.mk.inj (hnode'.symm.trans hnode)))

/-! ## Passes over queues -/

/-- A pass ends where the slot is taken or the line is empty. -/
theorem Stored.drain_of_held (h : e.Stored)
    (hend : (e.queue r).slot ≠ none ∨ (e.queue r).pending = []) : e.drain r = e := by
  rw [drain_eq]
  split
  · rfl
  · rename_i router hr
    have ho := h.orderly r
    rw [queue_of_router? hr] at hend ho
    split
    · rfl
    · rename_i hbegin
      obtain ⟨hidle, rest, hpending, -⟩ := Queue.beginDrain_eq_some hbegin
      rcases hend with hslot | hnone
      · exact absurd (ho.idle_iff.1 hidle) hslot
      · rw [hnone] at hpending
        cases hpending

/-- The head of the line of a free slot is taken and offered to the transport. -/
theorem Stored.drain_of_free (h : e.Stored) (hr : e.router? r = some router)
    (hslot : router.queue.slot = none) {rest : List CommandRef}
    (hpending : router.queue.pending = x :: rest) : e.drain r = (e.setLine r
      (⟨rest, some x, .draining⟩, e.commands.update x (·.setPhase .inflight e.now))).push
        [.offer r x] := by
  have ho := h.orderly r
  rw [queue_of_router? hr] at ho
  have hidle := ho.idle_iff.2 hslot
  rw [drain_eq]
  simp only [hr, Queue.beginDrain, hidle, hpending]

theorem Stored.drain_takes (h : e.Stored) {rest : List CommandRef} {timeouts : Nat}
    {detached : Bool} (hfront : e.front? r = some ⟨none, x :: rest, timeouts, detached⟩) :
    (e.drain r).front? r = some ⟨some x, rest, timeouts, detached⟩ ∧
      (e.drain r).stack = .offer r x :: e.stack ∧
      (∀ c, c ≠ x → (e.drain r).command? c = e.command? c) ∧ e.Takes (e.drain r) r := by
  obtain ⟨router, hr, heq⟩ := Option.map_eq_some_iff.1 hfront
  have hslot : router.queue.slot = none := congrArg Front.slot heq
  have hpending : router.queue.pending = x :: rest := congrArg Front.pending heq
  have htimeouts : router.stats.timeouts = timeouts := congrArg Front.timeouts heq
  have hdetached : router.detached = detached := congrArg Front.detached heq
  rw [h.drain_of_free hr hslot hpending]
  have front : Engine.front? ((e.setLine r (⟨rest, some x, .draining⟩,
      e.commands.update x (·.setPhase .inflight e.now))).push [.offer r x]) r =
        some ⟨some x, rest, timeouts, detached⟩ := by
    show ((e.setQueue r _).router? r).map Router.front = _
    unfold setQueue
    rw [router?_updateRouter, if_pos rfl, hr]
    show some (Router.front _) = _
    unfold Router.front
    rw [← htimeouts, ← hdetached]
  refine ⟨front, rfl, fun c hne => ?_, ⟨x, rest, timeouts, detached, hfront, front⟩,
    fun c command hc => ?_⟩
  · show Commands.get? (e.commands.update x _) c = _
    rw [Commands.get?_update, if_neg (Ne.symm hne)]
    rfl
  · show ∃ command', Commands.get? (e.commands.update x _) c = some command' ∧ _
    rw [Commands.get?_update]
    split
    · have hc : Commands.get? e.commands c = some command := hc
      rw [hc]
      exact ⟨_, rfl, rfl⟩
    · exact ⟨command, hc, rfl⟩

/-- A pass over the queue of another router. -/
theorem Stored.drain_elsewhere (h : e.Stored) (hne : r' ≠ r) : e.Bypasses (e.drain r') r := by
  rw [drain_eq]
  split
  · exact bypasses_of_eq rfl rfl
  · rename_i router hr
    split
    · exact bypasses_of_eq rfl rfl
    · rename_i y line hbegin
      obtain ⟨-, rest, hpending, rfl⟩ := Queue.beginDrain_eq_some hbegin
      have hmem : y ∈ (e.queue r').members := by
        rw [queue_of_router? hr, Queue.mem_members, hpending]
        exact .inr List.mem_cons_self
      refine bypasses_elsewhere (router?_updateRouter_of_ne hne _) fun c command hc hnode => ?_
      show Commands.get? (e.commands.update y _) c = _
      rw [Commands.get?_update, if_neg (Ne.symm (h.ne_of_member hmem hne hc hnode))]
      exact hc

/-- A command that the transport accepts keeps its slot. -/
theorem bypasses_accepted (e : Engine) (r r' : RouterRef) (c : CommandRef) :
    e.Bypasses (e.answerOffer r' c (.ok ())) r := by
  rw [answerOffer_eq]
  split
  · exact bypasses_of_eq rfl rfl
  · rename_i router hr
    refine bypasses_of_eq ?_ rfl
    have counted := front?_count (e.setQueue r' (router.queue.submitted c)) r r'
      (f := fun stats => { stats with submitted := stats.submitted + 1 }) fun _ => rfl
    refine counted.trans ?_
    unfold front? setQueue
    rw [router?_updateRouter]
    split
    · rename_i same
      rw [← same, hr]
      show some (Router.front _) = some router.front
      unfold Router.front Queue.submitted
      simp only
      split <;> rfl
    · rfl

theorem stack_accepted (e : Engine) (r' : RouterRef) (c : CommandRef) :
    (e.answerOffer r' c (.ok ())).stack = e.stack ∨
      (e.answerOffer r' c (.ok ())).stack = .drain r' :: e.stack := by
  rw [answerOffer_eq]
  split
  · exact .inl rfl
  · exact .inr rfl

/-! ## Arrivals -/

theorem router?_finish (e : Engine) (c : CommandRef) (ending : Ending) (r : RouterRef) :
    (e.finish c ending).router? r = e.router? r := by
  unfold finish
  split
  · rfl
  · simp only
    split <;> rfl

theorem router?_complete_of_ne (hne : r' ≠ r) (c : CommandRef) (generation : Nat)
    (ending : Ending) : (e.complete r' c generation ending).router? r = e.router? r := by
  unfold complete
  split
  · rfl
  · split
    · exact router?_updateRouter_of_ne hne _
    · rename_i queue _
      rw [router?_finish]
      show (Engine.count (e.setQueue r' queue) r' fun stats =>
        { stats with completed := stats.completed + 1 }).router? r = _
      rw [count, router?_updateRouter_of_ne hne, setQueue, router?_updateRouter_of_ne hne]

theorem router?_signal_of_ne (hne : r' ≠ r) (c : CommandRef) (generation : Nat) (signal : Signal)
    (words : Option (List UInt32)) :
    (e.signal r' c generation signal words).router? r = e.router? r := by
  unfold Engine.signal
  simp only
  split
  · exact router?_complete_of_ne hne _ _ _
  · rfl

theorem front?_discard (e : Engine) (r r' : RouterRef) : (e.discard r').front? r = e.front? r :=
  front?_count e r r' fun _ => rfl

/-- An arrival for no attempt at all. -/
theorem bypasses_stray (hno : ∀ r c, ¬ e.Concerns r c arrival) (r : RouterRef) :
    e.Bypasses (e.receive arrival) r := by
  refine bypasses_of_eq ?_ (receive_stray hno).1
  by_cases hsignal : arrival.isSignal = true
  · by_cases haddr : ∃ r' fits, e.Addressed r' arrival fits
    · obtain ⟨r', fits, ha⟩ := haddr
      rw [receive_stale ha fun c command hc hf => hno r' c ⟨command, hc, .inl ⟨fits, ha, hf⟩⟩,
        front?_discard]
      rfl
    · rw [receive_unaddressed hsignal fun r' fits ha => haddr ⟨r', fits, ha⟩]
      rfl
  · cases arrival with
    | sent context => exact absurd rfl hsignal
    | received channel label bytes =>
      cases channel with
      | read | write => exact absurd rfl hsignal
      | hotplug =>
        show ((e.push [.handled]).onHotplug bytes).front? r = _
        unfold onHotplug
        split <;> rfl
      | notify =>
        rw [receive_unalerted fun r' event c command ha hc =>
          hno r' c ⟨command, hc, .inr ⟨event, ha⟩⟩]
        rfl

/-- The report that the request in a slot was sent is noted, if there is no answer yet. -/
theorem Stored.bypasses_sent (h : e.Stored) (hc : e.Holds r c command)
    (hanswered : command.answered = false) :
    e.Bypasses ((e.push [.handled]).signal r c command.generation .sent none) r := by
  have hwaits := h.isComplete_of_slot hc.slotOf?
  have hfirst : (command.noted .sent none).isComplete = false := by
    simp [Command.isComplete, Command.noted, hanswered]
  rw [signal_noted (e := e.push [.handled]) hc.slotOf? hwaits hfirst]
  refine ⟨rfl, fun c' command' hc' hnode => ?_⟩
  show ∃ command'', Commands.get? (e.commands.set c.index _) c' = some command'' ∧ _
  rw [Commands.get?_set hc.2]
  split
  · rename_i same
    subst same
    cases hc.2.symm.trans hc'
    refine ⟨_, rfl, ?_, rfl⟩
    unfold Command.stance
    simp [Command.noted]
  · exact ⟨command', hc', rfl, rfl⟩

/-- An arrival that is for no attempt on the router leaves its front as it is. -/
theorem Stored.bypasses_unconcerned (h : e.Stored) (hunconcerned : ∀ c, ¬ e.Concerns r c arrival) :
    e.Bypasses (e.receive arrival) r := by
  by_cases hno : ∀ r' c', ¬ e.Concerns r' c' arrival
  · exact bypasses_stray hno r
  · simp only [not_forall, not_not] at hno
    obtain ⟨r', c', hconcerns⟩ := hno
    have hne : r' ≠ r := fun hr => hunconcerned c' (hr ▸ hconcerns)
    obtain ⟨command', hc, hwhat⟩ := hconcerns
    have hmem : c' ∈ (e.queue r').members := Queue.mem_members.2 (.inl hc.1)
    -- what happens to the command of another router does not matter here
    have elsewhere (hrouter : (e.receive arrival).router? r = e.router? r)
        (hcommands : ∀ c, c ≠ c' → (e.receive arrival).command? c = e.command? c) :
        e.Bypasses (e.receive arrival) r := by
      refine bypasses_elsewhere hrouter fun c command hc' hnode => ?_
      rw [hcommands c (h.ne_of_member hmem hne hc' hnode)]
      exact hc'
    rcases hwhat with ⟨fits, ha, hfits⟩ | ⟨event, ha⟩
    · cases ha with
      | sent hnode =>
        obtain ⟨rfl, rfl⟩ := hfits
        refine elsewhere ?_ fun c hother => ?_
        · rw [receive_sent hnode hc, router?_signal_of_ne hne]
          rfl
        · rw [receive_sent hnode hc, command?_signal_of_ne hother]
          rfl
      | answered hn hh hread hroute =>
        obtain ⟨rfl, hseq⟩ := hfits
        refine elsewhere ?_ fun c hother => ?_
        · rw [receive_answer hn hh hread hroute hseq hc, router?_signal_of_ne hne]
          rfl
        · rw [receive_answer hn hh hread hroute hseq hc, command?_signal_of_ne hother]
          rfl
    · have hwaits := h.isComplete_of_slot hc.slotOf?
      cases ha with
      | mk hread hevent hroute =>
        refine elsewhere ?_ fun c hother => ?_
        · rw [receive_alert ⟨hread, hevent, hroute⟩ hc hwaits, router?_complete_of_ne hne]
          rfl
        · rw [receive_alert ⟨hread, hevent, hroute⟩ hc hwaits, command?_complete_of_ne hother]
          show Commands.get? (e.commands.set c'.index _) c = _
          rw [Commands.get?_set hc.2, if_neg (Ne.symm hother)]
          rfl

/-- A quiet arrival leaves the front of the router as it is. -/
theorem Stored.bypasses_receive (h : e.Stored) (hq : e.Quiet r (.receive arrival))
    (hsilent : ∀ c command, e.Holds r c command → command.answered = false) :
    e.Bypasses (e.receive arrival) r := by
  by_cases hno : ∀ c, ¬ e.Concerns r c arrival
  · exact h.bypasses_unconcerned hno
  · simp only [not_forall, not_not] at hno
    obtain ⟨c, hconcerns⟩ := hno
    obtain ⟨context, rfl⟩ := hq c hconcerns
    obtain ⟨command, hc, ⟨fits, ha, hfits⟩ | ⟨event, ha⟩⟩ := hconcerns
    · cases ha with
      | sent hnode =>
        obtain ⟨rfl, rfl⟩ := hfits
        rw [receive_sent hnode hc]
        exact h.bypasses_sent hc (hsilent c command hc)
    · cases ha

/-! ## Errands -/

/-- Other tasks have come on top of the stack, none of which anyone waits for. -/
def Grows (e e' : Engine) : Prop :=
  ∃ added, e'.stack = added ++ e.stack ∧ ∀ t ∈ added, t.isMinor = true

theorem grows_refl (e : Engine) : e.Grows e :=
  ⟨[], rfl, List.forall_mem_nil _⟩

theorem grows_finish (e : Engine) (c : CommandRef) (ending : Ending) :
    e.Grows (e.finish c ending) := by
  cases hc : e.command? c with
  | none =>
    unfold finish
    rw [hc]
    exact grows_refl e
  | some command =>
    rw [finish_eq hc]
    refine ⟨_, rfl, fun t ht => ?_⟩
    obtain ⟨tag, -, rfl⟩ := List.mem_map.1 ht
    rfl

theorem Grows.above {added : List Task} (h : (e.push added).Grows e')
    (hadded : ∀ t ∈ added, t.isMinor = true) : e.Grows e' := by
  obtain ⟨more, hstack, hmore⟩ := h
  exact ⟨more ++ added, hstack.trans (List.append_assoc more added e.stack).symm,
    List.forall_mem_append.2 ⟨hmore, hadded⟩⟩

theorem grows_complete (e : Engine) (r : RouterRef) (c : CommandRef) (generation : Nat)
    (ending : Ending) : e.Grows (e.complete r c generation ending) := by
  unfold complete
  split
  · exact grows_refl e
  · split
    · exact grows_refl e
    · rename_i queue _
      exact Grows.above (e := (e.setQueue r queue).count r _) (grows_finish _ c ending)
        (by simp [Task.isMinor, Task.isLoose, Task.isQuiet])

theorem grows_signal (e : Engine) (r : RouterRef) (c : CommandRef) (generation : Nat)
    (signal : Signal) (words : Option (List UInt32)) :
    e.Grows (e.signal r c generation signal words) := by
  unfold Engine.signal
  simp only
  split
  · exact grows_complete { e with commands := _ } _ _ _ _
  · exact grows_refl e

theorem Heard.grows (h : e.Heard arrival e') : e.Grows e' := by
  cases h with
  | ignored => exact grows_refl _
  | discarded r => exact grows_refl _
  | sent | answered => exact grows_signal _ _ _ _ _ _
  | interrupted event hslot =>
    simp only
    split
    · exact grows_complete { e with commands := _ } _ _ _ _
    · exact grows_refl _
  | plugged event =>
    exact ⟨[.acknowledge event, .announce event], rfl,
      by simp [Task.isMinor, Task.isLoose, Task.isQuiet]⟩

theorem grows_receive (e : Engine) (arrival : Arrival) : e.Grows (e.receive arrival) :=
  (heard_receive e arrival).grows.above (List.forall_mem_singleton.2 rfl)

/-- What becomes of the errands above a caller's task, and of the front of a router meanwhile. -/
structure Errand (e e' : Engine) (r : RouterRef) (chores chores' : List Task) : Prop where
  loose : ∀ t ∈ chores', t.isLoose = true
  front : e.Bypasses e' r ∨ e.Takes e' r
  tended : ∀ front front', e.front? r = some front → e'.front? r = some front' →
    front.Tended r chores → front'.Tended r chores'
  /-- only the head of the line of a free slot is offered to the transport -/
  offers : ∀ r' x, .offer r' x ∈ chores' →
    .offer r' x ∈ chores ∨ (e.queue r').slot = none ∧ x ∈ (e.queue r').pending

/-- A task that looks after no queue of the router makes way for others. -/
theorem errand_of_bypasses (hfront : e.Bypasses e' r) (hloose : ∀ t ∈ chores', t.isLoose = true)
    (hdrain : .drain r ∈ chores → .drain r ∈ chores')
    (hoffers : ∀ r' x, .offer r' x ∈ chores' →
      .offer r' x ∈ chores ∨ (e.queue r').slot = none ∧ x ∈ (e.queue r').pending) :
    e.Errand e' r chores chores' := by
  refine ⟨hloose, .inl hfront, fun front front' hf hf' htended hslot => ?_, hoffers⟩
  cases hf.symm.trans (hfront.front.symm.trans hf')
  exact (htended hslot).imp id hdrain

/-- Where minor tasks come in the place of another one, nothing more is offered. -/
theorem offers_of_minor {t : Task} {added rest : List Task}
    (hadded : ∀ t ∈ added, t.isMinor = true) (r : RouterRef) (x : CommandRef)
    (h : .offer r x ∈ added ++ rest) : .offer r x ∈ t :: rest := by
  rcases List.mem_append.1 h with h | h
  · cases hadded _ h
  · exact List.mem_cons_of_mem _ h

theorem Bypasses.restacked {s : List Task} (h : ({ e with stack := s } : Engine).Bypasses e' r) :
    e.Bypasses e' r :=
  ⟨h.front, h.commands⟩

theorem Takes.restacked {s : List Task} (h : ({ e with stack := s } : Engine).Takes e' r) :
    e.Takes e' r :=
  ⟨h.front, h.commands⟩

/-- A pass over a queue ends, or offers the head of its line, which leaves the line. -/
theorem Stored.drain_cases (h : e.Stored) (r : RouterRef) : e.drain r = e ∨ ∃ c rest,
    (e.queue r).slot = none ∧ (e.queue r).pending = c :: rest ∧
      (e.drain r).stack = .offer r c :: e.stack ∧ ((e.drain r).queue r).pending = rest := by
  cases hfront : e.front? r with
  | none =>
    have hr : e.router? r = none := Option.map_eq_none_iff.1 hfront
    refine .inl ?_
    rw [drain_eq]
    rw [hr]
  | some front =>
    obtain ⟨hslot, hpending⟩ := queue_of_front hfront
    obtain ⟨slot, pending, timeouts, detached⟩ := front
    cases slot with
    | some x => exact .inl (h.drain_of_held (.inl (by rw [hslot]; nofun)))
    | none =>
      cases pending with
      | nil => exact .inl (h.drain_of_held (.inr hpending))
      | cons c rest =>
        obtain ⟨hfront', hstack, -, -⟩ := h.drain_takes hfront
        exact .inr ⟨c, rest, hslot, hpending, hstack, (queue_of_front hfront').2⟩

theorem Stored.errand_drain (h : e.Stored) {rest : List Task} (hs : e.stack = .drain r' :: below)
    (hloose : ∀ t ∈ rest, t.isLoose = true) : ∃ added,
      (({ e with stack := below } : Engine).drain r').stack = added ++ below ∧
        e.Errand (({ e with stack := below } : Engine).drain r') r (.drain r' :: rest)
          (added ++ rest) := by
  have hpop : ({ e with stack := below } : Engine).Stored := h.restack below
  obtain ⟨added, hstack, hadded, hoffers⟩ : ∃ added,
      (({ e with stack := below } : Engine).drain r').stack = added ++ below ∧
        (∀ t ∈ added, t.isLoose = true) ∧ ∀ r'' x, .offer r'' x ∈ added →
          (e.queue r'').slot = none ∧ x ∈ (e.queue r'').pending := by
    rcases hpop.drain_cases r' with hsame | ⟨c, line, hslot, hpending, hstack, -⟩
    · exact ⟨[], congrArg Engine.stack hsame, List.forall_mem_nil _, nofun⟩
    · refine ⟨[.offer r' c], hstack, List.forall_mem_singleton.2 rfl, fun r'' x hmem => ?_⟩
      cases List.mem_singleton.1 hmem
      have hhead : (e.queue r').pending = c :: line := hpending
      exact ⟨hslot, hhead ▸ List.mem_cons_self⟩
  have hloose' : ∀ t ∈ added ++ rest, t.isLoose = true :=
    List.forall_mem_append.2 ⟨hadded, hloose⟩
  have hoffers' (r'' : RouterRef) (x : CommandRef) (hmem : .offer r'' x ∈ added ++ rest) :
      .offer r'' x ∈ Task.drain r' :: rest ∨
        (e.queue r'').slot = none ∧ x ∈ (e.queue r'').pending :=
    (List.mem_append.1 hmem).elim (.inr ∘ hoffers r'' x) (.inl ∘ List.mem_cons_of_mem _)
  refine ⟨added, hstack, ?_⟩
  by_cases hr : r' = r
  · subst hr
    have kept (hsame : ({ e with stack := below } : Engine).drain r' = { e with stack := below })
        (hend : ∀ front, e.front? r' = some front → front.slot ≠ none ∨ front.pending = []) :
        e.Errand (({ e with stack := below } : Engine).drain r') r' (.drain r' :: rest)
          (added ++ rest) := by
      rw [hsame]
      refine ⟨hloose', .inl (bypasses_of_eq rfl rfl), fun front front' _ hf' _ hslot => ?_,
        hoffers'⟩
      exact (hend front' hf').elim (absurd hslot) .inl
    cases hfront : e.front? r' with
    | none =>
      have hr : ({ e with stack := below } : Engine).router? r' = none :=
        Option.map_eq_none_iff.1 hfront
      refine kept ?_ fun front hf => by cases hfront.symm.trans hf
      rw [drain_eq]
      rw [hr]
    | some front =>
      obtain ⟨hslot, hpending⟩ := queue_of_front hfront
      by_cases hend : front.slot ≠ none ∨ front.pending = []
      · refine kept (hpop.drain_of_held ?_) fun front' hf => ?_
        · show (e.queue r').slot ≠ none ∨ (e.queue r').pending = []
          rw [hslot, hpending]
          exact hend
        · cases hfront.symm.trans hf
          exact hend
      · obtain ⟨slot, pending, timeouts, detached⟩ := front
        rw [not_or, not_not] at hend
        obtain ⟨rfl, hline⟩ := hend
        obtain ⟨x, line, rfl⟩ := List.exists_cons_of_ne_nil hline
        obtain ⟨hfront', -, -, takes⟩ := hpop.drain_takes (r := r') hfront
        refine ⟨hloose', .inr takes.restacked, fun _ front' _ hf' _ hfree => ?_, hoffers'⟩
        cases hfront'.symm.trans hf'
        cases hfree
  · refine errand_of_bypasses (hpop.drain_elsewhere hr).restacked hloose' ?_ hoffers'
    rintro (_ | ⟨_, hmem⟩)
    · exact absurd rfl hr
    · exact List.mem_append_right _ hmem

/-- An errand makes way for others, which touch nothing that is to be reckoned with. -/
theorem errand_replaced {t : Task} {rest : List Task} (added : List Task)
    (hchores : chores = t :: rest) (hloose : ∀ t ∈ chores, t.isLoose = true)
    (hstack : e'.stack = added ++ (rest ++ task :: below)) (hfront : e.Bypasses e' r)
    (hadded : ∀ t ∈ added, t.isMinor = true) (ht : t ≠ .drain r) :
    ∃ chores', e'.stack = chores' ++ task :: below ∧ e.Errand e' r chores chores' := by
  subst hchores
  have hloose' : ∀ t ∈ added ++ rest, t.isLoose = true := List.forall_mem_append.2
    ⟨fun t ht => Task.isLoose_of_minor (hadded t ht),
      fun t ht => hloose t (List.mem_cons_of_mem _ ht)⟩
  refine ⟨added ++ rest, by rw [hstack, List.append_assoc], errand_of_bypasses hfront hloose' ?_
    fun r' x hmem => .inl (offers_of_minor hadded r' x hmem)⟩
  rintro (_ | ⟨_, hmem⟩)
  · exact absurd rfl ht
  · exact List.mem_append_right _ hmem

/-- **A move while something else than the caller's task is in progress**, if nobody calls and the
transport takes what it is offered, only adds to what is to be done before that task, or does some
of it. -/
theorem Stored.errand_of_receive (h : e.Stored) (hcall : ∀ call, m ≠ .call call)
    (hgrant : ∀ answer, m = .grant answer → answer = .ok ())
    (hreceive : ∀ arrival, m = .receive arrival → e.Bypasses (e.receive arrival) r)
    (hm : e.move? m = some e') (hs : e.stack = chores ++ task :: below)
    (hloose : ∀ t ∈ chores, t.isLoose = true) :
    (∃ chores', e'.stack = chores' ++ task :: below ∧ e.Errand e' r chores chores') ∨
      chores = [] ∧ (∀ arrival, m ≠ .receive arrival) ∧ ∀ ms, m ≠ .elapse ms := by
  have split {t : Task} {rest : List Task} (hs' : e.stack = t :: rest) :
      chores = [] ∨ ∃ others, chores = t :: others ∧ rest = others ++ task :: below ∧
        t.isLoose = true := by
    rw [hs] at hs'
    cases chores with
    | nil => exact .inl rfl
    | cons t' others =>
      cases hs'
      exact .inr ⟨others, rfl, rfl, hloose _ List.mem_cons_self⟩
  -- what is in progress is no errand
  have own {t : Task} {rest : List Task} (hs' : e.stack = t :: rest) (ht : t.isLoose = false) :
      chores = [] := by
    rcases split hs' with hnil | ⟨_, -, -, hl⟩
    · exact hnil
    · rw [ht] at hl
      cases hl
  cases acts_of_move? hm with
  | dropped hs' hdrops =>
    rcases split hs' with hnil | ⟨others, hchores, rfl, -⟩
    · refine .inr ⟨hnil, ?_, ?_⟩ <;> cases hdrops <;> nofun
    · refine .inl (errand_replaced [] hchores hloose rfl (bypasses_of_eq rfl rfl)
        (List.forall_mem_nil _) ?_)
      cases hdrops <;> nofun
  | concluded hs' | asked hs' | replied hs' | retried hs' | watched hs' | expired hs' | framed hs'
  | unframed hs' | registered hs' | unregistered hs' | gaveUp hs' | collected hs' =>
    exact .inr ⟨own hs' rfl, nofun, nofun⟩
  | settled hs' ht =>
    refine .inr ⟨own hs' ?_, nofun, nofun⟩
    rcases ht with rfl | ⟨deadline, rfl⟩ <;> rfl
  | drained hs' =>
    rcases split hs' with hnil | ⟨others, rfl, rfl, -⟩
    · exact .inr ⟨hnil, nofun, nofun⟩
    · obtain ⟨added, hstack, errand⟩ := h.errand_drain (r := r) hs'
        fun t ht => hloose t (List.mem_cons_of_mem _ ht)
      exact .inl ⟨_, by rw [hstack, List.append_assoc], errand⟩
  | kicked hs' =>
    rcases split hs' with hnil | ⟨others, hchores, rfl, -⟩
    · exact .inr ⟨hnil, nofun, nofun⟩
    · exact .inl (errand_replaced [_] hchores hloose rfl (bypasses_of_eq rfl rfl)
        (List.forall_mem_singleton.2 rfl) nofun)
  | @toured ids _ hs' =>
    rcases split hs' with hnil | ⟨others, hchores, rfl, -⟩
    · exact .inr ⟨hnil, nofun, nofun⟩
    · cases ids with
      | nil =>
        exact .inl (errand_replaced [] hchores hloose rfl (bypasses_of_eq rfl rfl)
          (List.forall_mem_nil _) nofun)
      | cons id rest =>
        refine .inl (errand_replaced ((e.topology.tree.get? id).toList.map .drain ++
          [Task.drainEach rest]) hchores hloose rfl (bypasses_of_eq rfl rfl)
          (List.forall_mem_append.2
            ⟨List.forall_mem_map.2 fun _ _ => rfl, List.forall_mem_singleton.2 rfl⟩) nofun)
  | announced hs' | acknowledged hs' =>
    rcases split hs' with hnil | ⟨others, hchores, rfl, -⟩
    · exact .inr ⟨hnil, nofun, nofun⟩
    · exact .inl (errand_replaced [] hchores hloose rfl (bypasses_of_eq rfl rfl)
        (List.forall_mem_nil _) nofun)
  | acknowledging hs' =>
    rcases split hs' with hnil | ⟨others, hchores, rfl, -⟩
    · exact .inr ⟨hnil, nofun, nofun⟩
    · exact .inl (errand_replaced [_] hchores hloose rfl (bypasses_of_eq rfl rfl)
        (List.forall_mem_singleton.2 rfl) nofun)
  | @answered r' c answer _ hs' =>
    rcases split hs' with hnil | ⟨others, hchores, rfl, -⟩
    · exact .inr ⟨hnil, nofun, nofun⟩
    · obtain rfl : answer = .ok () := hgrant _ rfl
      have bypasses := (bypasses_accepted ({ e with stack := others ++ task :: below } : Engine) r
        r' c).restacked
      rcases stack_accepted ({ e with stack := others ++ task :: below } : Engine) r' c with
        hstack | hstack
      · exact .inl (errand_replaced [] hchores hloose hstack bypasses (List.forall_mem_nil _) nofun)
      · exact .inl (errand_replaced [_] hchores hloose hstack bypasses
          (List.forall_mem_singleton.2 rfl) nofun)
  | called call => exact absurd rfl (hcall call)
  | received arrival =>
    obtain ⟨added, hstack, hadded⟩ := grows_receive e arrival
    refine .inl ⟨added ++ chores, by rw [hstack, hs, List.append_assoc], errand_of_bypasses
      (hreceive arrival rfl) (List.forall_mem_append.2
        ⟨fun t ht => Task.isLoose_of_minor (hadded t ht), hloose⟩) (List.mem_append_right _)
      fun r' x hmem => .inl ?_⟩
    rcases List.mem_append.1 hmem with hmem | hmem
    · cases hadded _ hmem
    · exact hmem
  | elapsed ms =>
    exact .inl ⟨chores, hs, errand_of_bypasses (bypasses_of_eq rfl rfl) hloose id
      fun _ _ => .inl⟩

/-- A quiet move does no more than that. -/
theorem Stored.errand (h : e.Stored) (hq : e.Quiet r m)
    (hsilent : ∀ c command, e.Holds r c command → command.answered = false)
    (hm : e.move? m = some e') (hs : e.stack = chores ++ task :: below)
    (hloose : ∀ t ∈ chores, t.isLoose = true) :
    (∃ chores', e'.stack = chores' ++ task :: below ∧ e.Errand e' r chores chores') ∨
      chores = [] ∧ (∀ arrival, m ≠ .receive arrival) ∧ ∀ ms, m ≠ .elapse ms := by
  refine h.errand_of_receive (fun call heq => ?_) (fun answer heq => ?_) (fun arrival heq => ?_)
    hm hs hloose
  · subst heq
    exact hq.elim
  · subst heq
    exact hq
  · subst heq
    exact h.bypasses_receive hq hsilent

end Engine

end RouterFabric
