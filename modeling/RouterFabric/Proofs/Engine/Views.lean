import RouterFabric.Proofs.Calls
import RouterFabric.Proofs.Engine.Signals

/-!
# Views of an engine

What is on top of a stack is worked on without regard to what is below, to how often a waiting
caller would try again, and to a future that keeps how a command has ended. A view changes all of
that at once: an engine that is seen through it has other tasks below its own, other settings, and
a command with a future that nobody sees. Chores and arrivals come to the same, whether an engine is
seen through a view before or after them.

* `View`, `Engine.seen` : the same engine, seen in another way
* `drain_seen`, `answerOffer_seen`, `complete_seen`, … : what the engine does, section by section
* `receive_seen` : what arrives
* `move?_seen` : every move while a chore is on top of the stack
-/

namespace RouterFabric

/-! ## Listeners -/

/-- A listener as it is seen by one who sees no futures. -/
def Listener.unheard : Listener → Listener
  | .future _ => .nobody
  | listener => listener

theorem Listener.unheard_told (listener : Listener) (reply : Reply) :
    (listener.told reply).unheard = listener.unheard.told reply := by
  cases listener with
  | future first => cases first <;> rfl
  | nobody | callback => rfl

namespace Command

variable {command : Command}

theorem listener_finish (command : Command) (ending : Ending) :
    (command.finish ending).listener = command.listener.told ending.reply := by
  unfold finish Listener.told
  cases command.listener with
  | future first => cases first <;> rfl
  | nobody | callback => rfl

/-- The command without its future. -/
def unheard (command : Command) : Command :=
  { command with listener := command.listener.unheard }

theorem callback?_unheard (command : Command) : command.unheard.callback? = command.callback? := by
  unfold callback? unheard
  cases command.listener <;> rfl

theorem unheard_finish (command : Command) (ending : Ending) :
    (command.finish ending).unheard = command.unheard.finish ending := by
  have hl : (command.finish ending).listener.unheard =
      (command.unheard.finish ending).listener := by
    rw [listener_finish, listener_finish, Listener.unheard_told]
    rfl
  show ({ command.finish ending with listener := _ } : Command) = _
  rw [hl]
  rfl

end Command

/-! ## Stores -/

/-- Another way to look at an engine. -/
structure View where
  /-- how often a waiting caller is said to try again, if not as often as the settings say -/
  retries : Option Nat
  /-- the command whose future is not seen -/
  deaf : Option CommandRef
  /-- what the tasks of the engine stand on -/
  below : List Task

namespace View

variable {v : View} {cs : Commands} {c : CommandRef} {command : Command}

/-- The settings as they are seen. -/
def governs (v : View) (s : Settings) : Settings :=
  { s with retries := v.retries.getD s.retries }

/-- A command as it is seen. -/
def shown (v : View) (c : CommandRef) (command : Command) : Command :=
  if v.deaf = some c then command.unheard else command

/-- A store of commands as it is seen. -/
def store (v : View) (cs : Commands) : Commands :=
  match v.deaf with
  | none => cs
  | some c => cs.update c Command.unheard

/-- The same view, of an engine that stands on other tasks. -/
def on (v : View) (tasks : List Task) : View :=
  { v with below := tasks }

/-- What is not changed by a view, whether the command is deaf or not. -/
theorem shown_eq {α : Type} (f : Command → α) (hf : ∀ command, f command.unheard = f command) :
    f (v.shown c command) = f command := by
  unfold shown
  split
  · exact hf command
  · rfl

/-- A change that does not matter to the future of a command. -/
theorem shown_comm {f : Command → Command}
    (hf : ∀ command, f command.unheard = (f command).unheard) :
    f (v.shown c command) = v.shown c (f command) := by
  unfold shown
  split
  · exact hf command
  · rfl

theorem callback?_shown : (v.shown c command).callback? = command.callback? :=
  shown_eq _ Command.callback?_unheard

theorem get?_store (v : View) (cs : Commands) (c : CommandRef) :
    (v.store cs).get? c = (cs.get? c).map (v.shown c) := by
  unfold store shown
  split
  · rename_i hdeaf
    cases cs.get? c <;> simp [hdeaf]
  · rename_i c' hdeaf
    rw [Commands.get?_update]
    by_cases hsame : c' = c
    · simp only [hdeaf, hsame, if_true]
    · have hne : ¬ some c' = some c := fun heq => hsame (Option.some.inj heq)
      simp only [hdeaf, hsame, hne, if_false]
      cases cs.get? c <;> rfl

theorem update_store {f : Command → Command}
    (hf : ∀ command, f command.unheard = (f command).unheard) :
    (v.store cs).update c f = v.store (cs.update c f) := by
  refine Commands.ext_get? fun c' => ?_
  rw [get?_store, Commands.get?_update, Commands.get?_update, get?_store]
  split
  · cases cs.get? c' with
    | none => rfl
    | some command => exact congrArg some (shown_comm hf)
  · rfl

theorem setPhase_store (c : CommandRef) (phase : Phase) (now : Nat) :
    (v.store cs).update c (·.setPhase phase now) = v.store (cs.update c (·.setPhase phase now)) :=
  update_store fun _ => rfl

theorem beginAttempt_store (c : CommandRef) (seq : Nat) :
    (v.store cs).update c (·.beginAttempt seq) = v.store (cs.update c (·.beginAttempt seq)) :=
  update_store fun _ => rfl

theorem finish_store (c : CommandRef) (ending : Ending) :
    (v.store cs).update c (·.finish ending) = v.store (cs.update c (·.finish ending)) :=
  update_store fun command => (command.unheard_finish ending).symm

theorem set_store (hc : cs.get? c = some command) (changed : Command) :
    (v.store cs).set c.index (v.shown c changed) = v.store (cs.set c.index changed) := by
  refine Commands.ext_get? fun c' => ?_
  have hseen : (v.store cs).get? c = some (v.shown c command) := by
    rw [get?_store, hc]
    rfl
  rw [get?_store, Commands.get?_set hseen, Commands.get?_set hc, get?_store]
  split
  · rename_i same
    rw [same]
    rfl
  · rfl

theorem change_store {α : Type} (v : View) (cs : Commands) (c : CommandRef) (absent : α)
    {f : Command → α × Command}
    (hf : ∀ command, f command.unheard = ((f command).1, (f command).2.unheard)) :
    (v.store cs).change c absent f =
      ((cs.change c absent f).1, v.store (cs.change c absent f).2) := by
  unfold Commands.change
  rw [get?_store]
  cases hc : cs.get? c with
  | none => rfl
  | some command =>
    have hseen : f (v.shown c command) = ((f command).1, v.shown c (f command).2) := by
      unfold shown
      split
      · exact hf command
      · rfl
    simp only [Option.map_some, hseen, set_store hc]

end View

theorem Command.mark_unheard (command : Command) (generation : Nat) (signal : Signal)
    (words : Option (List UInt32)) : command.unheard.mark generation signal words =
      ((command.mark generation signal words).1,
        (command.mark generation signal words).2.unheard) := by
  unfold mark
  by_cases hg : command.generation = generation
  · rw [if_pos hg, if_pos (show command.unheard.generation = generation from hg)]
    rfl
  · rw [if_neg hg, if_neg (show ¬ command.unheard.generation = generation from hg)]

theorem Command.markAll_unheard (command : Command) (generation : Nat) :
    command.unheard.markAll generation =
      ((command.markAll generation).1, (command.markAll generation).2.unheard) := by
  unfold markAll
  by_cases hg : command.generation = generation
  · rw [if_pos hg, if_pos (show command.unheard.generation = generation from hg)]
    rfl
  · rw [if_neg hg, if_neg (show ¬ command.unheard.generation = generation from hg)]

/-! ## Queues -/

namespace Queue

variable {q : Queue} {v : View} {cs : Commands} {c : CommandRef} {limit now generation : Nat}

theorem enqueue_seen : q.enqueue (v.store cs) c =
    ((q.enqueue cs c).1, v.store (q.enqueue cs c).2) := by
  unfold enqueue
  rw [View.setPhase_store]

theorem beginDrain_seen : q.beginDrain (v.store cs) now =
    (q.beginDrain cs now).map fun p => (p.1, p.2.1, v.store p.2.2) := by
  unfold beginDrain
  split
  · rw [View.setPhase_store]
    rfl
  · rfl

theorem defer_seen : q.defer (v.store cs) c =
    ((q.defer cs c).1, (q.defer cs c).2.1, v.store (q.defer cs c).2.2) := by
  unfold defer
  split
  · rw [View.setPhase_store]
  · rfl

theorem complete_seen : q.complete (v.store cs) c generation = q.complete cs c generation := by
  have hsame (command : Command) :
      ((v.shown c command).generation == generation) = (command.generation == generation) :=
    View.shown_eq (fun command => command.generation == generation) fun _ => rfl
  unfold complete
  rw [View.get?_store, Option.any_map]
  simp only [hsame]

theorem expire_seen : q.expire (v.store cs) limit now =
    ((q.expire cs limit now).1, (q.expire cs limit now).2.1,
      v.store (q.expire cs limit now).2.2) := by
  unfold expire
  cases q.slot with
  | none => rfl
  | some c =>
    simp only [View.get?_store]
    cases hc : cs.get? c with
    | none => rfl
    | some command =>
      have hheld : (v.shown c command).heldFor limit now = command.heldFor limit now :=
        View.shown_eq (·.heldFor limit now) fun _ => rfl
      have hmarked : (v.shown c command).markAll (v.shown c command).generation =
          ((command.markAll command.generation).1,
            v.shown c (command.markAll command.generation).2) := by
        unfold View.shown
        split
        · exact command.markAll_unheard command.generation
        · rfl
      simp only [Option.map_some, hheld, hmarked]
      split
      · split
        · rw [View.set_store hc]
        · rfl
      · rfl

end Queue

/-! ## Sections -/

namespace Engine

variable {e e' : Engine} {m : Move} {v : View} {r : RouterRef} {c : CommandRef} {w : Waiter}
  {t : Task} {below : List Task}

/-- The engine as it is seen. -/
def seen (e : Engine) (v : View) : Engine where
  topology := { e.topology with settings := v.governs e.topology.settings }
  routers := e.routers
  commands := v.store e.commands
  now := e.now
  stack := e.stack ++ v.below
  lent := e.lent

@[simp] theorem router?_seen : (e.seen v).router? r = e.router? r := rfl

@[simp] theorem commands_seen : (e.seen v).commands = v.store e.commands := rfl

@[simp] theorem now_seen : (e.seen v).now = e.now := rfl

@[simp] theorem stack_seen : (e.seen v).stack = e.stack ++ v.below := rfl

@[simp] theorem tree_seen : (e.seen v).topology.tree = e.topology.tree := rfl

@[simp] theorem nextCommand_seen : (e.seen v).topology.nextCommand = e.topology.nextCommand := rfl

@[simp] theorem timeoutMs_seen :
    (e.seen v).topology.settings.timeoutMs = e.topology.settings.timeoutMs := rfl

theorem lookup_seen (route : Route) :
    (e.seen v).topology.lookup route = e.topology.lookup route := rfl

theorem command?_seen (c : CommandRef) :
    (e.seen v).command? c = (e.command? c).map (v.shown c) :=
  v.get?_store e.commands c

theorem push_seen (tasks : List Task) : (e.seen v).push tasks = (e.push tasks).seen v := by
  unfold push seen
  simp only [List.append_assoc]

/-- Tasks on top of the stack of an engine that is seen are as good as below it. -/
theorem seen_on (hs : e.stack = []) (tasks : List Task) :
    (e.push tasks).seen v = e.seen (v.on (tasks ++ v.below)) := by
  unfold push seen View.on
  simp only [hs, List.append_nil, List.nil_append]
  rfl

theorem updateRouter_seen (r : RouterRef) (f : Router → Router) :
    (e.seen v).updateRouter r f = (e.updateRouter r f).seen v := rfl

theorem count_seen (r : RouterRef) (f : Statistics → Statistics) :
    (e.seen v).count r f = (e.count r f).seen v := rfl

theorem setQueue_seen (r : RouterRef) (q : Queue) :
    (e.seen v).setQueue r q = (e.setQueue r q).seen v := rfl

theorem setLine_seen (r : RouterRef) (q : Queue) (cs : Commands) :
    (e.seen v).setLine r (q, v.store cs) = (e.setLine r (q, cs)).seen v := rfl

theorem setCommands_seen (cs : Commands) :
    { e.seen v with commands := v.store cs } = ({ e with commands := cs } : Engine).seen v := rfl

theorem launch_seen (r : RouterRef) (c : CommandRef) (next : List Task) :
    (e.seen v).launch r c next = (e.launch r c next).seen v := by
  unfold launch
  simp only [router?_seen, commands_seen, updateRouter_seen, View.beginAttempt_store,
    setCommands_seen]
  split
  · rfl
  · split
    · exact push_seen _
    · simp only [Queue.enqueue_seen, setLine_seen, push_seen]

theorem finish_seen (c : CommandRef) (ending : Ending) :
    (e.seen v).finish c ending = (e.finish c ending).seen v := by
  unfold finish
  simp only [command?_seen, commands_seen]
  cases e.command? c with
  | none => rfl
  | some command =>
    simp only [Option.map_some, View.callback?_shown]
    rw [View.finish_store]
    split <;> rfl

theorem complete_seen (r : RouterRef) (c : CommandRef) (generation : Nat) (ending : Ending) :
    (e.seen v).complete r c generation ending = (e.complete r c generation ending).seen v := by
  unfold complete
  simp only [router?_seen, commands_seen, Queue.complete_seen]
  split
  · rfl
  · split
    · rfl
    · simp only [setQueue_seen, count_seen, push_seen, finish_seen]

theorem withdraw_seen (w : Waiter) : (e.seen v).withdraw w = (e.withdraw w).seen v := by
  unfold withdraw
  simp only [router?_seen, commands_seen, timeoutMs_seen, now_seen]
  split
  · rfl
  · split
    · rfl
    · simp only [Queue.expire_seen, setLine_seen, count_seen, push_seen]

theorem drain_seen (r : RouterRef) : (e.seen v).drain r = (e.drain r).seen v := by
  rw [drain_eq, drain_eq]
  simp only [router?_seen, commands_seen, now_seen, Queue.beginDrain_seen]
  split
  · rfl
  · rename_i router _
    cases router.queue.beginDrain e.commands e.now <;> rfl

theorem defer_seen (id : NodeId) :
    { e.seen v with topology := (e.seen v).topology.defer id } =
      ({ e with topology := e.topology.defer id } : Engine).seen v := by
  unfold Topology.defer
  by_cases h : id ∈ e.topology.deferred
  · have h' : id ∈ (e.seen v).topology.deferred := h
    rw [if_pos h, if_pos h']
  · have h' : id ∉ (e.seen v).topology.deferred := h
    rw [if_neg h, if_neg h']
    rfl

theorem answerOffer_seen (r : RouterRef) (c : CommandRef) (answer : Except TransportFault Unit) :
    (e.seen v).answerOffer r c answer = (e.answerOffer r c answer).seen v := by
  rw [answerOffer_eq, answerOffer_eq]
  simp only [router?_seen, commands_seen]
  split
  · rfl
  · rename_i router _
    split
    · rfl
    · simp only [Queue.defer_seen, setLine_seen, count_seen, defer_seen]
    · split
      · rfl
      · rename_i queue _
        have marked := v.change_store (e.setQueue r queue).commands c false
          (f := fun command => command.markAll command.generation)
          fun command => command.markAll_unheard command.generation
        simp only [setQueue_seen, commands_seen, marked, setCommands_seen]
        split
        · simp only [push_seen, finish_seen]
        · simp only [push_seen]

theorem kick_seen : (e.seen v).kick = e.kick.seen v := rfl

theorem drainFirst_seen (ids : List NodeId) :
    (e.seen v).drainFirst ids = (e.drainFirst ids).seen v := by
  cases ids with
  | nil => rfl
  | cons id rest => exact push_seen _

theorem issue_seen (r : RouterRef) (t : Transfer) (style : Style) :
    (e.seen v).issue r t style = (e.issue r t style).seen v := by
  unfold issue
  simp only [router?_seen]
  split
  · rfl
  · split
    · rfl
    · split
      · rfl
      · split
        · rfl
        · simp only [nextCommand_seen]
          split <;> rfl

/-! ## Arrivals -/

theorem slotOf?_seen (r : RouterRef) :
    (e.seen v).slotOf? r = (e.slotOf? r).map fun p => (p.1, v.shown p.1 p.2) := by
  unfold slotOf?
  simp only [router?_seen, command?_seen]
  cases e.router? r with
  | none => rfl
  | some router =>
    cases hslot : router.queue.slot with
    | none => simp [hslot]
    | some c => cases hc : e.command? c <;> simp [hslot, hc]

theorem discard_seen (r : RouterRef) : (e.seen v).discard r = (e.discard r).seen v := rfl

theorem signal_seen (r : RouterRef) (c : CommandRef) (generation : Nat) (signal : Signal)
    (words : Option (List UInt32)) :
    (e.seen v).signal r c generation signal words =
      (e.signal r c generation signal words).seen v := by
  have marked := v.change_store e.commands c false (f := (·.mark generation signal words))
    fun command => command.mark_unheard generation signal words
  have took := v.change_store (e.commands.change c false (·.mark generation signal words)).2 c []
    (f := Command.takeResponse) fun _ => rfl
  unfold Engine.signal
  simp only [commands_seen, marked, setCommands_seen, took, complete_seen]
  split <;> rfl

theorem onSent_seen (context : Option FrameContext) :
    (e.seen v).onSent context = (e.onSent context).seen v := by
  have hid (c : CommandRef) (command : Command) : (v.shown c command).id = command.id :=
    View.shown_eq (·.id) fun _ => rfl
  have hgeneration (c : CommandRef) (command : Command) :
      (v.shown c command).generation = command.generation :=
    View.shown_eq (·.generation) fun _ => rfl
  unfold onSent
  split
  · rw [tree_seen]
    split
    · rfl
    · rename_i r _
      rw [slotOf?_seen]
      cases e.slotOf? r with
      | none => rfl
      | some p =>
        simp only [Option.map_some, hid, hgeneration, signal_seen, discard_seen]
        split <;> rfl
  · rfl

theorem onResponse_seen (label : PacketType) (bytes : List UInt8) :
    (e.seen v).onResponse label bytes = (e.onResponse label bytes).seen v := by
  have hkind (c : CommandRef) (command : Command) : (v.shown c command).kind = command.kind :=
    View.shown_eq (·.kind) fun _ => rfl
  have hseq (c : CommandRef) (command : Command) : (v.shown c command).seq = command.seq :=
    View.shown_eq (·.seq) fun _ => rfl
  have haddress (c : CommandRef) (command : Command) :
      (v.shown c command).address = command.address :=
    View.shown_eq (·.address) fun _ => rfl
  have hgeneration (c : CommandRef) (command : Command) :
      (v.shown c command).generation = command.generation :=
    View.shown_eq (·.generation) fun _ => rfl
  unfold onResponse
  split
  · rfl
  · rw [lookup_seen]
    split
    · rfl
    · rename_i r _
      rw [slotOf?_seen]
      cases e.slotOf? r with
      | none => rfl
      | some p =>
        simp only [Option.map_some, hkind, hseq, haddress, hgeneration, signal_seen, discard_seen]
        split <;> rfl

theorem onNotification_seen (bytes : List UInt8) :
    (e.seen v).onNotification bytes = (e.onNotification bytes).seen v := by
  have hgeneration (c : CommandRef) (command : Command) :
      (v.shown c command).generation = command.generation :=
    View.shown_eq (·.generation) fun _ => rfl
  unfold onNotification
  split
  · rfl
  · split
    · rfl
    · rw [lookup_seen]
      split
      · rfl
      · rename_i r _
        rw [slotOf?_seen]
        cases e.slotOf? r with
        | none => rfl
        | some p =>
          have marked := v.change_store e.commands p.1 false (f := (·.markAll p.2.generation))
            fun command => command.markAll_unheard p.2.generation
          simp only [Option.map_some, hgeneration, commands_seen, marked, setCommands_seen,
            complete_seen]
          split <;> rfl

theorem onHotplug_seen (bytes : List UInt8) :
    (e.seen v).onHotplug bytes = (e.onHotplug bytes).seen v := by
  unfold onHotplug
  split
  · rfl
  · exact push_seen _

/-- **What arrives is dealt with in the same way.** -/
theorem receive_seen (arrival : Arrival) :
    (e.seen v).receive arrival = (e.receive arrival).seen v := by
  unfold receive
  rw [push_seen]
  cases arrival with
  | sent context => exact onSent_seen context
  | received channel label bytes =>
    cases channel with
    | read | write => exact onResponse_seen label bytes
    | notify => exact onNotification_seen bytes
    | hotplug => exact onHotplug_seen bytes

/-! ## Chores -/

section chores

variable (hs : e.stack = t :: below) (ht : t.isChore = true)

include hs ht

theorem pause_seen : (e.seen v).pause = e.pause := by
  have hframe (c : CommandRef) (command : Command) : (v.shown c command).frame = command.frame :=
    View.shown_eq (·.frame) fun _ => rfl
  unfold pause
  rw [stack_seen, hs]
  cases t with
  | offer r c =>
    simp only [List.cons_append, command?_seen]
    cases e.command? c with
    | none => rfl
    | some command => exact congrArg Pause.submission (hframe c command)
  | drain | kick | drainEach | hold | acknowledge | offerAcknowledgment | announce | handled
  | sleep | expire | notify => rfl
  | _ => cases ht

theorem step_seen : (e.seen v).step = e.step.seen v := by
  have hrest : ({ e.seen v with stack := below ++ v.below } : Engine) =
      ({ e with stack := below } : Engine).seen v := rfl
  unfold step
  rw [stack_seen, hs]
  simp only [List.cons_append, hrest]
  cases t with
  | drain r => exact drain_seen r
  | kick => exact kick_seen
  | drainEach ids => exact drainFirst_seen ids
  | expire r c => simp only [count_seen, push_seen, finish_seen]
  | hold | announce | offer | acknowledge | offerAcknowledgment | handled | sleep | notify => rfl
  | _ => cases ht

theorem granted?_seen (answer : Except TransportFault Unit) :
    (e.seen v).granted? answer = (e.granted? answer).map (·.seen v) := by
  have hrest : ({ e.seen v with stack := below ++ v.below } : Engine) =
      ({ e with stack := below } : Engine).seen v := rfl
  unfold granted?
  rw [stack_seen, hs]
  simp only [List.cons_append, hrest]
  cases t with
  | offer r c => simp only [answerOffer_seen, Option.map_some]
  | acknowledge event => cases answer <;> rfl
  | drain | kick | drainEach | hold | offerAcknowledgment | announce | handled | sleep | expire
  | notify => rfl
  | _ => cases ht

/-- **While a chore is on top of the stack**, a move with no call comes to the same. -/
theorem move?_seen (hi : ∀ call, m ≠ .call call) :
    (e.seen v).move? m = (e.move? m).map (·.seen v) := by
  have hpause : (e.seen v).pause = e.pause := pause_seen hs ht
  have hworking : (e.seen v).isWorking = e.isWorking := by
    unfold isWorking
    rw [hpause]
  have hproceed : (e.seen v).canProceed = e.canProceed := by
    unfold canProceed
    rw [hpause]
  cases m with
  | proceed =>
    show (if (e.seen v).canProceed then some (e.seen v).step else none) =
      (if e.canProceed then some e.step else none).map (·.seen v)
    rw [hproceed, step_seen hs ht]
    split <;> rfl
  | grant answer => exact granted?_seen hs ht answer
  | back =>
    show (e.seen v).returned? = e.returned?.map (·.seen v)
    unfold returned?
    rw [stack_seen, hs]
    cases t <;> rfl
  | giveUp =>
    show (if (e.seen v).canProceed then none else (e.seen v).gaveUp?) =
      (if e.canProceed then none else e.gaveUp?).map (·.seen v)
    unfold gaveUp?
    rw [hproceed, stack_seen, hs]
    cases t <;> first | (split <;> rfl) | cases ht
  | collect =>
    show (e.seen v).collected? = e.collected?.map (·.seen v)
    unfold collected?
    rw [stack_seen, hs]
    cases t <;> rfl
  | call call => exact absurd rfl (hi call)
  | receive arrival =>
    show (if (e.seen v).isWorking then none else some ((e.seen v).receive arrival)) =
      (if e.isWorking then none else some (e.receive arrival)).map (·.seen v)
    rw [hworking, receive_seen]
    split <;> rfl
  | elapse ms => rfl

end chores

end Engine

end RouterFabric
