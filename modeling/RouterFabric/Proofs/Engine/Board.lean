import RouterFabric.Proofs.Engine.Acts
import RouterFabric.Proofs.Store

/-!
# What is to be done about hot-plug events

A hot-plug event that arrives puts tasks of its own on the stack, and they are the only ones that
concern whoever listens for such events. No section of the engine besides these touches them or the
listener, whatever it does to the routers and their queues.

* `Engine.board` : the tasks for hot-plug events, the listener, and the frames for acknowledgments
* `board_launch`, `board_complete`, … : the sections that leave the board alone
* `Engine.Plugs`, `plugs_of_move?` : what a move does to the board
* `Engine.Lends`, `Engine.Plugs.lends` : how frames are taken for acknowledgments and given back
-/

namespace RouterFabric

/-- A task that is there for a hot-plug event. -/
def Task.isPlug : Task → Bool
  | .acknowledge _ | .offerAcknowledgment _ | .announce _ => true
  | _ => false

/-- Whether a task has a frame of its own, besides those of its commands. -/
def Task.hasFrame : Task → Bool
  | .offerAcknowledgment _ => true
  | _ => false

/-- What is to be done about hot-plug events, what is kept for whoever listens for them, and how
many frames there are for their acknowledgments. -/
structure Board where
  tasks : List Task
  listener : Option (List HotplugEvent)
  lent : Nat

namespace Engine

variable {e e' : Engine} {m : Move} {r : RouterRef} {w : Waiter} {t : Task}
  {tasks below : List Task}

def board (e : Engine) : Board where
  tasks := e.stack.filter Task.isPlug
  listener := e.topology.listener
  lent := e.lent

/-- Tasks that are there for something else make no difference. -/
@[simp] theorem board_push (e : Engine) (h : tasks.filter Task.isPlug = []) :
    (e.push tasks).board = e.board := by
  show Board.mk ((tasks ++ e.stack).filter Task.isPlug) _ _ = _
  rw [List.filter_append, h]
  rfl

theorem board_restacked (hs : e.stack = t :: below) (ht : t.isPlug = false) :
    ({ e with stack := below } : Engine).board = e.board := by
  unfold board
  rw [hs, List.filter_cons, ht]
  rfl

@[simp] theorem board_updateRouter (e : Engine) (r : RouterRef) (f : Router → Router) :
    (e.updateRouter r f).board = e.board := rfl

@[simp] theorem board_count (e : Engine) (r : RouterRef) (f : Statistics → Statistics) :
    (e.count r f).board = e.board := rfl

@[simp] theorem board_setQueue (e : Engine) (r : RouterRef) (q : Queue) :
    (e.setQueue r q).board = e.board := rfl

@[simp] theorem board_setLine (e : Engine) (r : RouterRef) (line : Queue × Commands) :
    (e.setLine r line).board = e.board := rfl

@[simp] theorem board_withCommands (e : Engine) (cs : Commands) :
    ({ e with commands := cs } : Engine).board = e.board := rfl

/-! ## Sections that leave the board alone -/

@[simp] theorem board_finish (e : Engine) (c : CommandRef) (ending : Ending) :
    (e.finish c ending).board = e.board := by
  unfold finish
  split
  · rfl
  · simp only
    split <;> simp [Task.isPlug]

@[simp] theorem board_launch (e : Engine) (r : RouterRef) (c : CommandRef) (next : List Task)
    (h : next.filter Task.isPlug = []) : (e.launch r c next).board = e.board := by
  unfold launch
  split
  · rfl
  · simp only
    split <;> simp [Task.isPlug, h]

@[simp] theorem board_complete (e : Engine) (r : RouterRef) (c : CommandRef) (generation : Nat)
    (ending : Ending) : (e.complete r c generation ending).board = e.board := by
  unfold complete
  split
  · rfl
  · split <;> simp [Task.isPlug]

theorem board_settle? (h : e.settle? w = some e') : e'.board = e.board := by
  unfold settle? at h
  split at h
  · cases h
  · split at h
    · split at h
      · cases h
        simp [Task.isPlug]
      · cases h
    · split at h
      · simp only at h
        split at h <;> (cases h; simp [Task.isPlug])
      · cases h

@[simp] theorem board_retry (e : Engine) (w : Waiter) : (e.retry w).board = e.board := by
  unfold retry
  split <;> simp [Task.isPlug]

@[simp] theorem board_withdraw (e : Engine) (w : Waiter) : (e.withdraw w).board = e.board := by
  unfold withdraw
  split
  · rfl
  · split
    · simp [Task.isPlug]
    · simp only
      rw [board_push]
      · simp
      · unfold afterTimeout
        split <;> simp [Task.isPlug, List.filter_append]

@[simp] theorem board_drain (e : Engine) (r : RouterRef) : (e.drain r).board = e.board := by
  rw [drain_eq]
  split
  · rfl
  · split <;> simp [Task.isPlug]

@[simp] theorem board_defer (e : Engine) (id : NodeId) :
    ({ e with topology := e.topology.defer id } : Engine).board = e.board := by
  unfold Topology.defer
  split <;> rfl

@[simp] theorem board_answerOffer (e : Engine) (r : RouterRef) (c : CommandRef)
    (answer : Except TransportFault Unit) : (e.answerOffer r c answer).board = e.board := by
  rw [answerOffer_eq]
  split
  · rfl
  · split
    · simp [Task.isPlug]
    · exact board_defer ..
    · split
      · simp [Task.isPlug]
      · simp only
        split <;> simp [Task.isPlug]

@[simp] theorem board_kick (e : Engine) : e.kick.board = e.board :=
  board_push _ rfl

@[simp] theorem board_drainFirst (e : Engine) (ids : List NodeId) :
    (e.drainFirst ids).board = e.board := by
  cases ids with
  | nil => rfl
  | cons id rest =>
    unfold drainFirst
    cases e.topology.tree.get? id <;> simp [Task.isPlug]

@[simp] theorem board_passOn (e : Engine) (reply : Reply) : (e.passOn reply).board = e.board := by
  unfold passOn
  split
  · rename_i hs
    unfold board
    rw [hs]
    rfl
  · rfl

@[simp] theorem board_begin (e : Engine) (r : RouterRef) (command : Command) (style : Style) :
    (e.begin r command style).board = e.board := by
  unfold begin
  split <;> simp [Task.isPlug]

@[simp] theorem board_issue (e : Engine) (r : RouterRef) (t : Transfer) (style : Style) :
    (e.issue r t style).board = e.board := by
  unfold issue
  simp only
  split
  · simp [Task.isPlug]
  · split
    · simp [Task.isPlug]
    · split
      · simp [Task.isPlug]
      · split
        · simp [Task.isPlug]
        · split <;> exact board_push _ rfl

@[simp] theorem board_enrol (e : Engine) (r : RouterRef) (identity : Identity) :
    (e.enrol r identity).board = e.board := by
  unfold enrol
  split
  · simp [Task.isPlug]
  · split
    · simp [Task.isPlug]
    · exact board_push _ rfl

@[simp] theorem board_unlink (e : Engine) (r : RouterRef) : (e.unlink r).board = e.board := by
  unfold unlink
  split
  · simp [Task.isPlug]
  · exact board_push _ rfl

theorem board_meet (e : Engine) (r : RouterRef) (request : Request) :
    (e.meet r request).board = e.board := by
  cases request with
  | transfer t style => exact board_issue ..
  | pause ms => exact board_push _ rfl
  | fallAsleep => exact board_push _ rfl
  | enrol identity => exact board_enrol ..
  | unlink => exact board_unlink ..

@[simp] theorem board_signal (e : Engine) (r : RouterRef) (c : CommandRef) (generation : Nat)
    (signal : Signal) (words : Option (List UInt32)) :
    (e.signal r c generation signal words).board = e.board := by
  unfold Engine.signal
  simp only
  split <;> simp

/-- No arrival makes a difference, unless it is a hot-plug event. -/
theorem board_heard {arrival : Arrival} (h : e.Heard arrival e')
    (hplug : ∀ label bytes, arrival ≠ .received .hotplug label bytes) : e'.board = e.board := by
  cases h with
  | ignored | discarded => rfl
  | sent | answered => exact board_signal ..
  | interrupted event =>
    simp only
    split <;> simp
  | plugged => exact absurd rfl (hplug _ _)

/-! ## Calls -/

theorem board_expireEach (e : Engine) (rs : List RouterRef) :
    (e.expireEach rs).2.board = e.board := by
  induction rs generalizing e with
  | nil => rfl
  | cons r rest ih =>
    unfold expireEach
    split
    · exact ih e
    · exact (ih _).trans (board_setLine e r _)

theorem board_removeEach (e : Engine) (l : List (NodeId × RouterRef)) :
    (e.removeEach l).2.board = e.board := by
  induction l generalizing e with
  | nil => rfl
  | cons p rest ih =>
    unfold removeEach
    simp only
    split
    · rfl
    · exact (ih _).trans rfl

theorem board_detach (e : Engine) (r : RouterRef) : (e.detach r).board = e.board := by
  unfold detach
  simp only
  split
  · exact board_push _ rfl
  · rw [board_push]
    · unfold removeSubtree
      split
      · exact board_expireEach e _
      · exact (board_removeEach _ _).trans (board_expireEach e _)
    · refine List.filter_eq_nil_iff.2 (List.forall_mem_append.2 ⟨List.forall_mem_append.2
        ⟨List.forall_mem_map.2 fun _ _ => Bool.false_ne_true, ?_⟩, by simp [Task.isPlug]⟩)
      split
      · exact List.forall_mem_nil _
      · exact List.forall_mem_append.2 ⟨List.forall_mem_map.2 fun _ _ => Bool.false_ne_true,
          List.forall_mem_singleton.2 Bool.false_ne_true⟩

theorem board_linkRoot (e : Engine) : e.linkRoot.board = e.board := by
  unfold linkRoot
  simp only
  split <;> exact board_push _ rfl

theorem board_attachChild (e : Engine) (parent : RouterRef) (route : Route) :
    (e.attachChild parent route).board = e.board := by
  unfold attachChild
  split
  · exact board_push _ rfl
  · simp only
    split <;> exact board_push _ rfl

theorem board_operate (e : Engine) (r : RouterRef) (operation : Operation) :
    (e.operate r operation).board = e.board := by
  unfold operate
  split <;> exact board_push _ rfl

theorem board_resume (e : Engine) (r : RouterRef) : (e.resume r).board = e.board := by
  unfold resume
  split
  · exact board_push _ rfl
  · split <;> exact board_push _ rfl

/-- No call makes a difference, unless it starts a new topology. -/
theorem board_call {call : Call} (h : ∀ settings, call ≠ .attachRoot settings) :
    (e.call call).board = e.board := by
  cases call with
  | attachRoot settings => exact absurd rfl (h settings)
  | attachChild parent route => exact board_attachChild ..
  | detach r => exact board_detach ..
  | resume r => exact board_resume ..
  | operate r operation => exact board_operate ..

/-! ## Moves -/

/-- What a move does to the board. -/
inductive Plugs (e : Engine) : Move → Engine → Prop
  | aside {m : Move} {e' : Engine} : e'.board = e.board → Plugs e m e'
  /-- a hot-plug event arrives that can be read -/
  | delivered {label : PacketType} {bytes : List UInt8} {event : HotplugEvent} :
      HotplugEvent.decode bytes = .ok event →
      Plugs e (.receive (.received .hotplug label bytes))
        (e.push [.acknowledge event, .announce event, .handled])
  /-- there is a frame for the acknowledgment -/
  | framed {event : HotplugEvent} {below : List Task} : e.stack = .acknowledge event :: below →
      Plugs e (.grant (.ok ()))
        ({ e with stack := .offerAcknowledgment event :: below } : Engine).takeFrame
  | unframed {event : HotplugEvent} {fault : TransportFault} {below : List Task} :
      e.stack = .acknowledge event :: below →
      Plugs e (.grant (.error fault)) { e with stack := below }
  /-- the transport answers for the acknowledgment -/
  | offered {event : HotplugEvent} {answer : Except TransportFault Unit} {below : List Task} :
      e.stack = .offerAcknowledgment event :: below →
      Plugs e (.grant answer) ({ e with stack := below } : Engine).freeFrame
  /-- the event is passed on -/
  | announced {event : HotplugEvent} {below : List Task} : e.stack = .announce event :: below →
      Plugs e .proceed { e with stack := below, topology := e.topology.announce event }

theorem plugs_receive (e : Engine) (arrival : Arrival) :
    e.Plugs (.receive arrival) (e.receive arrival) := by
  have aside (hplug : ∀ label bytes, arrival ≠ .received .hotplug label bytes) :
      e.Plugs (.receive arrival) (e.receive arrival) :=
    .aside ((board_heard (heard_receive e arrival) hplug).trans (board_push e rfl))
  cases arrival with
  | sent context => exact aside nofun
  | received channel label bytes =>
    cases channel with
    | hotplug =>
      show e.Plugs _ ((e.push [.handled]).onHotplug bytes)
      unfold onHotplug
      split
      · exact .aside (board_push e rfl)
      · rename_i event hread
        exact .delivered hread
    | read | write | notify => exact aside nofun

/-- **Every move leaves the board alone or does one of these things to it.** -/
theorem plugs_of_move? (hm : e.move? m = some e')
    (hnew : ∀ settings, m ≠ .call (.attachRoot settings)) : e.Plugs m e' := by
  cases acts_of_move? hm with
  | dropped hs hd =>
    cases hd with
    | unacknowledged => exact .unframed hs
    | released | returned | rested | handled => exact .aside (board_restacked hs rfl)
  | concluded hs | watched hs | unframed hs | unregistered hs =>
    exact .aside ((board_push _ rfl).trans (board_restacked hs rfl))
  | asked hs =>
    exact .aside (((board_meet ..).trans (board_push _ rfl)).trans (board_restacked hs rfl))
  | replied hs => exact .aside ((board_passOn ..).trans (board_restacked hs rfl))
  | retried hs => exact .aside ((board_retry ..).trans (board_restacked hs rfl))
  | settled hs ht hsettle =>
    refine .aside ((board_settle? hsettle).trans (board_restacked hs ?_))
    rcases ht with rfl | ⟨deadline, rfl⟩ <;> rfl
  | drained hs => exact .aside ((board_drain ..).trans (board_restacked hs rfl))
  | kicked hs => exact .aside ((board_kick _).trans (board_restacked hs rfl))
  | toured hs => exact .aside ((board_drainFirst ..).trans (board_restacked hs rfl))
  | expired hs =>
    refine .aside ((board_finish ..).trans ((board_push _ rfl).trans ?_))
    exact board_restacked hs rfl
  | announced hs => exact .announced hs
  | framed hs => exact .aside ((board_begin ..).trans (board_restacked hs rfl))
  | answered hs => exact .aside ((board_answerOffer ..).trans (board_restacked hs rfl))
  | registered hs => exact .aside ((board_linkRoot _).trans (board_restacked hs rfl))
  | acknowledging hs => exact .framed hs
  | acknowledged hs => exact .offered hs
  | gaveUp hs => exact .aside ((board_withdraw ..).trans (board_restacked hs rfl))
  | collected hs => exact .aside (board_restacked hs rfl)
  | called call => exact .aside (board_call fun settings heq => hnew settings (congrArg _ heq))
  | received arrival => exact plugs_receive e arrival
  | elapsed => exact .aside rfl

/-- Only tasks for hot-plug events have frames of their own. -/
theorem countP_hasFrame (tasks : List Task) :
    (tasks.filter Task.isPlug).countP Task.hasFrame = tasks.countP Task.hasFrame := by
  rw [List.countP_filter]
  refine List.countP_congr fun t _ => ?_
  cases t <;> simp [Task.hasFrame, Task.isPlug]

/-- A frame is taken for an acknowledgment that comes to be on offer, and given back for one that is
done with. -/
inductive Lends (e e' : Engine) : Prop
  | kept : e'.stack.countP Task.hasFrame = e.stack.countP Task.hasFrame → e'.lent = e.lent →
      Lends e e'
  | taken : e'.stack.countP Task.hasFrame = e.stack.countP Task.hasFrame + 1 →
      e'.lent = e.lent + 1 → Lends e e'
  | freed : e'.stack.countP Task.hasFrame + 1 = e.stack.countP Task.hasFrame →
      e'.lent = e.lent - 1 → Lends e e'

/-- **Every move keeps to that.** -/
theorem Plugs.lends (k : e.Plugs m e') : e.Lends e' := by
  cases k with
  | aside hboard =>
    refine .kept ?_ (congrArg Board.lent hboard)
    rw [← countP_hasFrame, ← countP_hasFrame e.stack]
    exact congrArg (fun b : Board => b.tasks.countP Task.hasFrame) hboard
  | delivered => exact .kept rfl rfl
  | framed hs => exact .taken (by simp [takeFrame, hs, List.countP_cons, Task.hasFrame]) rfl
  | unframed hs | announced hs => exact .kept (by simp [hs, Task.hasFrame]) rfl
  | offered hs => exact .freed (by simp [freeFrame, hs, List.countP_cons, Task.hasFrame]) rfl

end Engine

end RouterFabric
