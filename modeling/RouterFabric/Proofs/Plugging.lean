import RouterFabric.Proofs.Engine.Board
import RouterFabric.Proofs.Packets
import RouterFabric.Proofs.Run

/-!
# Hot-plug events

A hot-plug event that arrives is acknowledged, as far as the transport provides for it, and then
passed on to whoever listens. Until that is done anything else may happen, and other events may
arrive; these are dealt with first.

* `History` : what happens to a topology, from whichever state on
* `Duty`, `Handling` : what is done about one event, while other things happen
* `Handling.due` : the deeds that an event comes to
* `stacked`, `Conveyed` : in which order events are passed on, and who sees them
* `Engine.hotplug_events` : all of it
-/

namespace RouterFabric

open Engine

/-! ## Histories -/

/-- What can happen to a topology: a move of its engine, or someone begins to listen for hot-plug
events, stops, or takes those that have come. -/
inductive Happening
  | move (m : Move)
  | listen
  | close
  | take

/-- What comes of it, if it can happen. -/
def Engine.happens? (e : Engine) : Happening → Option Engine
  | .move m => e.move? m
  | .listen => some { e with topology := { e.topology with listener := some [] } }
  | .close => some { e with topology := { e.topology with listener := none } }
  | .take => some { e with
      topology := { e.topology with listener := e.topology.listener.map fun _ => [] } }

/-- What has happened, and the engine before and after it. -/
structure Episode where
  before : Engine
  what : Happening
  after : Engine

/-- What happens to a topology from a state on, the latest first. -/
inductive History (e : Engine) : List Episode → Engine → Prop
  | start : History e [] e
  | next {course : List Episode} {e' e'' : Engine} {w : Happening} : History e course e' →
      (∀ settings, w ≠ .move (.call (.attachRoot settings))) → e'.happens? w = some e'' →
      History e (⟨e', w, e''⟩ :: course) e''

/-! ## Deeds -/

/-- What the engine does about a hot-plug event. -/
inductive Deed
  /-- it asks the transport for a frame -/
  | request (answer : Except TransportFault Unit)
  /-- it hands a frame to the transport -/
  | submission (frame : Frame) (answer : Except TransportFault Unit)
  /-- it passes the event on -/
  | forward (event : HotplugEvent)

/-- The frames a deed takes from the pool. -/
def Deed.taken : Deed → Nat
  | .request (.ok ()) => 1
  | _ => 0

/-- The frames a deed gives back. -/
def Deed.returned : Deed → Nat
  | .submission _ _ => 1
  | _ => 0

namespace Episode

/-- What is done about the hot-plug event whose task is on top. -/
def deed? (episode : Episode) : Option Deed :=
  match episode.before.stack, episode.before.pause, episode.what with
  | .acknowledge _ :: _, _, .move (.grant answer) => some (.request answer)
  | .offerAcknowledgment _ :: _, .submission frame, .move (.grant answer) =>
    some (.submission frame answer)
  | .announce event :: _, _, .move .proceed => some (.forward event)
  | _, _, _ => none

/-- Nothing changes but the stack, the time, the count of frames and what is kept for the listener.
-/
def Spares (episode : Episode) : Prop :=
  episode.after.routers = episode.before.routers ∧
    episode.after.commands = episode.before.commands ∧
    ∃ listener, episode.after.topology = { episode.before.topology with listener := listener }

/-- The hot-plug event that arrives, if it can be read. -/
def delivered? (episode : Episode) : Option HotplugEvent :=
  match episode.what with
  | .move (.receive (.received .hotplug _ bytes)) => (HotplugEvent.decode bytes).toOption
  | _ => none

/-- The hot-plug event that is passed on. -/
def forwarded? (episode : Episode) : Option HotplugEvent :=
  match episode.before.stack, episode.what with
  | .announce event :: _, .move .proceed => some event
  | _, _ => none

/-- The hot-plug events that the listener takes. -/
def taken (episode : Episode) : List HotplugEvent :=
  match episode.what with
  | .take => episode.before.topology.listener.getD []
  | _ => []

end Episode

/-! ## Acknowledgments -/

/-- The frame that acknowledges an event. -/
def HotplugEvent.acknowledgment (event : HotplugEvent) : Frame :=
  ⟨.notify, (Notification.acknowledging event).encode, 0, .acknowledgment⟩

/-- The frame is a notification that says the same as an event. -/
def Frame.Echoes (frame : Frame) (event : HotplugEvent) : Prop :=
  frame.packetType = .notify ∧ ∃ packet, Notification.decode frame.bytes = .ok packet ∧
    packet.route = event.route ∧ packet.adapter = event.adapter ∧
    packet.code = Event.hotplugAck.code ∧ packet.isUnplug = event.unplug

/-! ## One event -/

/-- What is done about an event in an episode: the tasks for it before, and after. -/
inductive Duty (event : HotplugEvent) : List Task → Episode → List Task → Prop
  | framed {e : Engine} {below : List Task} : e.stack = .acknowledge event :: below →
      Duty event [.acknowledge event, .announce event]
        ⟨e, .move (.grant (.ok ())),
          ({ e with stack := .offerAcknowledgment event :: below } : Engine).takeFrame⟩
        [.offerAcknowledgment event, .announce event]
  | unframed {e : Engine} {fault : TransportFault} {below : List Task} :
      e.stack = .acknowledge event :: below →
      Duty event [.acknowledge event, .announce event]
        ⟨e, .move (.grant (.error fault)), { e with stack := below }⟩ [.announce event]
  | offered {e : Engine} {answer : Except TransportFault Unit} {below : List Task} :
      e.stack = .offerAcknowledgment event :: below →
      Duty event [.offerAcknowledgment event, .announce event]
        ⟨e, .move (.grant answer), ({ e with stack := below } : Engine).freeFrame⟩
        [.announce event]
  | announced {e : Engine} {below : List Task} : e.stack = .announce event :: below →
      Duty event [.announce event]
        ⟨e, .move .proceed, { e with stack := below, topology := e.topology.announce event }⟩ []

/-- What happens from the arrival of an event on, the episodes in which something is done about it,
and the tasks that are left for it; they stand above those for `others`, and what has come on top
of them in the meantime is done first. -/
inductive Handling (event : HotplugEvent) (others : List Task) (e₀ : Engine) :
    List Episode → List Episode → List Task → Engine → Prop
  | delivered : e₀.board.tasks = [Task.acknowledge event, Task.announce event] ++ others →
      Handling event others e₀ [] [] [.acknowledge event, .announce event] e₀
  | aside {course own : List Episode} {left : List Task} {e e' : Engine} {w : Happening} :
      Handling event others e₀ course own left e → e.happens? w = some e' →
      (∃ above, e'.board.tasks = above ++ left ++ others) →
      Handling event others e₀ (⟨e, w, e'⟩ :: course) own left e'
  | own {course own : List Episode} {left left' : List Task} {e e' : Engine} {w : Happening} :
      Handling event others e₀ course own left e → e.happens? w = some e' →
      Duty event left ⟨e, w, e'⟩ left' → e'.board.tasks = left' ++ others →
      Handling event others e₀ (⟨e, w, e'⟩ :: course) (⟨e, w, e'⟩ :: own) left' e'

/-- What has been done in these episodes, in their order. -/
def deeds (own : List Episode) : List Deed :=
  own.reverse.filterMap Episode.deed?

variable {e e' e₀ : Engine} {course own : List Episode} {left left' others below above : List Task}
  {event : HotplugEvent} {what : Happening} {m : Move} {t : Task} {episode : Episode}
  {bytes : List UInt8} {label : PacketType}

theorem Route.unmarked_ofWords (hi lo : UInt32) : (ofWords hi lo).Unmarked := by
  have hlo := lo.toNat_lt
  rw [unmarked_iff, ofWords, UInt64.toNat_ofNat', Nat.shiftLeft_eq]
  omega

/-- What is read of an event has room in the packet that acknowledges it. -/
theorem HotplugEvent.fields_of_decode (h : decode bytes = .ok event) :
    event.route.Unmarked ∧ event.adapter < 64 := by
  unfold decode at h
  cases hwords : Packet.ofWire bytes with
  | error failure =>
    rw [hwords] at h
    cases h
  | ok words =>
    rw [hwords] at h
    match words with
    | [] | [_] | [_, _] => cases h
    | hi :: lo :: word :: rest =>
      cases h
      refine ⟨Route.unmarked_ofWords hi lo, ?_⟩
      show adapterField.get word.toNat < 64
      rw [BitField.get_eq]
      exact Nat.mod_lt _ (by decide)

/-- The acknowledgment of an event that could be read says the same as the event. -/
theorem HotplugEvent.echoes_of_decode (h : decode bytes = .ok event) :
    event.acknowledgment.Echoes event := by
  obtain ⟨hroute, hadapter⟩ := fields_of_decode h
  have hplug : (Notification.acknowledging event).plug.toNat % 2 ^ 30 = 0 := by
    show (if event.unplug then EventWord.unplugged else EventWord.plugged).toNat % 2 ^ 30 = 0
    split <;> rfl
  refine ⟨rfl, _, Notification.decode_encode hplug, hroute.eq, Nat.mod_eq_of_lt hadapter, rfl, ?_⟩
  show (EventWord.plug (if event.unplug then _ else _) == EventWord.unplugged) = event.unplug
  cases event.unplug <;> rfl

/-! ## What is done about one event -/

theorem deeds_cons (episode : Episode) (own : List Episode) :
    deeds (episode :: own) = deeds own ++ episode.deed?.toList := by
  unfold deeds
  rw [List.reverse_cons, List.filterMap_append]
  cases hdeed : episode.deed? <;> simp [hdeed]

/-- The acknowledgment of an event is over: there was no frame for it, or the transport has
answered for the one frame that it was given. -/
inductive Acknowledged (event : HotplugEvent) : List Deed → Prop
  | frameless (fault : TransportFault) : Acknowledged event [.request (.error fault)]
  | submitted (answer : Except TransportFault Unit) :
      Acknowledged event [.request (.ok ()), .submission event.acknowledgment answer]

/-- What has been done when these tasks are left. -/
inductive Due (event : HotplugEvent) : List Deed → List Task → Prop
  | acknowledgment : Due event [] [.acknowledge event, .announce event]
  | answer : Due event [.request (.ok ())] [.offerAcknowledgment event, .announce event]
  | announcement {done : List Deed} : Acknowledged event done → Due event done [.announce event]
  | nothing {done : List Deed} : Acknowledged event done →
      Due event (done ++ [Deed.forward event]) []

theorem Duty.due (d : Duty event left episode left') (h : Due event (deeds own) left) :
    Due event (deeds (episode :: own)) left' := by
  rw [deeds_cons]
  generalize deeds own = done at h
  cases d with
  | framed hs | unframed hs =>
    cases h with
    | acknowledgment =>
      simp only [Episode.deed?, hs]
      first
        | exact .answer
        | exact .announcement (.frameless _)
  | @offered e answer below hs =>
    cases h with
    | answer =>
      have hp : e.pause = .submission event.acknowledgment := by
        unfold pause
        rw [hs]
        rfl
      simp only [Episode.deed?, hs, hp]
      exact .announcement (.submitted answer)
  | announced hs =>
    cases h with
    | announcement hdone =>
      simp only [Episode.deed?, hs]
      exact .nothing hdone

theorem Handling.due (k : Handling event others e₀ course own left e) :
    Due event (deeds own) left := by
  induction k with
  | delivered => exact .acknowledgment
  | aside _ _ _ ih => exact ih
  | own _ _ d _ ih => exact d.due ih

theorem Handling.standing (k : Handling event others e₀ course own left e) :
    ∃ above, e.board.tasks = above ++ left ++ others := by
  cases k with
  | delivered htasks => exact ⟨[], htasks⟩
  | aside _ _ habove => exact habove
  | own _ _ _ htasks => exact ⟨[], htasks⟩

theorem board_cons (hs : e.stack = t :: below) (ht : t.isPlug = true) :
    e.board.tasks = t :: below.filter Task.isPlug := by
  show e.stack.filter Task.isPlug = _
  rw [hs, List.filter_cons, if_pos ht]

/-- A task for a hot-plug event that is on top belongs to what has come in the meantime, or it is
the first one that is left. -/
theorem board_top (hs : e.stack = t :: below) (ht : t.isPlug = true)
    (htasks : e.board.tasks = above ++ left ++ others) (hleft : left ≠ []) :
    (∃ above', above = t :: above' ∧
      below.filter Task.isPlug = above' ++ left ++ others) ∨
    ∃ left', left = t :: left' ∧ below.filter Task.isPlug = left' ++ others := by
  rw [board_cons hs ht] at htasks
  cases above with
  | cons t' above' =>
    obtain ⟨rfl, hrest⟩ := List.cons.inj htasks
    exact .inl ⟨above', rfl, hrest⟩
  | nil =>
    cases left with
    | nil => exact absurd rfl hleft
    | cons t' left' =>
      obtain ⟨rfl, hrest⟩ := List.cons.inj htasks
      exact .inr ⟨left', rfl, hrest⟩

/-- **Whatever happens** before an event is dealt with, it is something done about this event, or
what is left for it is still left. -/
theorem Handling.step (k : Handling event others e₀ course own left e) (hleft : left ≠ [])
    (hnew : ∀ settings, what ≠ .move (.call (.attachRoot settings)))
    (hh : e.happens? what = some e') :
    ∃ own' left', Handling event others e₀ (⟨e, what, e'⟩ :: course) own' left' e' := by
  obtain ⟨above, habove⟩ := k.standing
  have aside (front : List Task) (h : e'.board.tasks = front ++ left ++ others) :
      ∃ own' left', Handling event others e₀ (⟨e, what, e'⟩ :: course) own' left' e' :=
    ⟨own, left, k.aside hh ⟨front, h⟩⟩
  cases what with
  | listen | close | take =>
    cases hh
    exact aside above habove
  | move m =>
    have hdue := k.due
    generalize deeds own = done at hdue
    cases plugs_of_move? hh fun settings heq => hnew settings (congrArg _ heq) with
    | aside hboard => exact aside above (hboard ▸ habove)
    | @delivered label bytes event' hread =>
      refine aside (.acknowledge event' :: .announce event' :: above) ?_
      show .acknowledge event' :: .announce event' :: e.board.tasks = _
      rw [habove]
      rfl
    | @framed event' below hs =>
      rcases board_top hs rfl habove hleft with ⟨above', rfl, hrest⟩ | ⟨left', rfl, hrest⟩
      · refine aside (.offerAcknowledgment event' :: above') ?_
        exact congrArg (Task.offerAcknowledgment event' :: ·) hrest
      · cases hdue with
        | acknowledgment =>
          exact ⟨_, _, k.own hh (.framed hs)
            (congrArg (Task.offerAcknowledgment event :: ·) hrest)⟩
    | unframed hs =>
      rcases board_top hs rfl habove hleft with ⟨above', rfl, hrest⟩ | ⟨left', rfl, hrest⟩
      · exact aside above' hrest
      · cases hdue with
        | acknowledgment => exact ⟨_, _, k.own hh (.unframed hs) hrest⟩
    | offered hs =>
      rcases board_top hs rfl habove hleft with ⟨above', rfl, hrest⟩ | ⟨left', rfl, hrest⟩
      · exact aside above' hrest
      · cases hdue with
        | answer => exact ⟨_, _, k.own hh (.offered hs) hrest⟩
    | announced hs =>
      rcases board_top hs rfl habove hleft with ⟨above', rfl, hrest⟩ | ⟨left', rfl, hrest⟩
      · exact aside above' hrest
      · cases hdue with
        | announcement => exact ⟨_, _, k.own hh (.announced hs) hrest⟩

/-- A history from the arrival of an event on is the handling of the event, until that is over. -/
theorem History.handling (k : History e₀ course e)
    (htasks : e₀.board.tasks = [Task.acknowledge event, Task.announce event] ++ others) :
    ∃ later earlier own left mid, course = later ++ earlier ∧
      Handling event others e₀ earlier own left mid ∧ (later = [] ∧ mid = e ∨ left = []) := by
  induction k with
  | start => exact ⟨[], [], [], _, e₀, rfl, .delivered htasks, .inl ⟨rfl, rfl⟩⟩
  | @next course e e' what _ hnew hh ih =>
    obtain ⟨later, earlier, own, left, mid, rfl, handling, hover⟩ := ih
    by_cases hleft : left = []
    · exact ⟨⟨e, what, e'⟩ :: later, earlier, own, left, mid, rfl, handling, .inr hleft⟩
    · obtain ⟨rfl, rfl⟩ := hover.resolve_right hleft
      obtain ⟨own', left', handling'⟩ := handling.step hleft hnew hh
      exact ⟨[], _, own', left', e', rfl, handling', .inl ⟨rfl, rfl⟩⟩

/-! ## The pool -/

/-- No command is in use because of a task for a hot-plug event. -/
theorem commandsInUse_restacked (hs : e.stack = t :: below) (ht : t.isPlug = true)
    (outside : List RouterRef) :
    e.commandsInUse outside = ({ e with stack := below } : Engine).commandsInUse outside := by
  have hnone : t.routers = [] ∧ t.commands = [] := by
    cases t <;> first | exact ⟨rfl, rfl⟩ | cases ht
  unfold commandsInUse routersInUse
  simp only [hs, List.flatMap_cons, hnone.1, hnone.2, List.nil_append]
  rfl

/-- So the frames in use change as far as those of acknowledgments do. -/
theorem framesInUse_restacked (hs : e.stack = t :: below) (ht : t.isPlug = true) (lent : Nat)
    (outside : List RouterRef) :
    ({ e with stack := below, lent := lent } : Engine).framesInUse outside + e.lent =
      e.framesInUse outside + lent := by
  have hcommands := congrArg List.length (commandsInUse_restacked hs ht outside)
  show (({ e with stack := below } : Engine).commandsInUse outside).length + lent + e.lent =
    (e.commandsInUse outside).length + e.lent + lent
  omega

/-- Whatever is done about an event spares the routers, the commands and the tree. A frame is taken
for the acknowledgment when it is granted, and given back when the transport has answered. -/
theorem Duty.balance (d : Duty event left episode left')
    (hlent : left.countP Task.hasFrame ≤ episode.before.lent) :
    ∃ deed, episode.deed? = some deed ∧ episode.Spares ∧
      ∀ outside, episode.after.framesInUse outside + deed.returned =
        episode.before.framesInUse outside + deed.taken := by
  cases d with
  | @framed e below hs =>
    refine ⟨.request (.ok ()), by simp only [Episode.deed?, hs], ⟨rfl, rfl, _, rfl⟩,
      fun outside => ?_⟩
    have hpopped := framesInUse_restacked hs rfl e.lent outside
    have hoffered := framesInUse_restacked
      (e := ({ e with stack := .offerAcknowledgment event :: below } : Engine).takeFrame) rfl rfl
      e.lent outside
    simp only [takeFrame, Deed.taken, Deed.returned] at hoffered hpopped ⊢
    omega
  | @unframed e fault below hs =>
    refine ⟨.request (.error fault), by simp only [Episode.deed?, hs], ⟨rfl, rfl, _, rfl⟩,
      fun outside => ?_⟩
    exact Nat.add_right_cancel (framesInUse_restacked hs rfl e.lent outside)
  | @offered e answer below hs =>
    have hp : e.pause = .submission event.acknowledgment := by unfold pause; rw [hs]; rfl
    refine ⟨.submission event.acknowledgment answer, by simp only [Episode.deed?, hs, hp],
      ⟨rfl, rfl, _, rfl⟩, fun outside => ?_⟩
    have hpopped := framesInUse_restacked hs rfl (e.lent - 1) outside
    have hpos : 1 ≤ e.lent := hlent
    simp only [freeFrame, Deed.taken, Deed.returned] at hpopped ⊢
    omega
  | @announced e below hs =>
    refine ⟨.forward event, by simp only [Episode.deed?, hs], ⟨rfl, rfl, _, rfl⟩,
      fun outside => ?_⟩
    exact Nat.add_right_cancel (framesInUse_restacked hs rfl e.lent outside)

theorem lends_of_happens? (hh : e.happens? what = some e') : e.Lends e' := by
  cases what with
  | listen | close | take =>
    cases hh
    exact .kept rfl rfl
  | move m =>
    by_cases hroot : ∃ settings, m = .call (.attachRoot settings)
    · obtain ⟨settings, rfl⟩ := hroot
      have hm : (if e.isWorking then none else some (e.attachRoot settings)) = some e' := hh
      split at hm
      · cases hm
      · cases hm
        unfold attachRoot
        split <;> exact .kept rfl rfl
    · exact (plugs_of_move? hh fun settings heq => hroot ⟨settings, heq⟩).lends

/-- There are frames for all acknowledgments on offer, but perhaps for those that have been before
the event arrived. -/
theorem Handling.covered (k : Handling event others e₀ course own left e) :
    e.stack.countP Task.hasFrame ≤ e.lent + others.countP Task.hasFrame := by
  induction k with
  | delivered htasks =>
    rw [← countP_hasFrame, show e₀.stack.filter Task.isPlug = _ from htasks]
    exact Nat.le_add_left _ _
  | aside _ hh _ ih | own _ hh _ _ ih =>
    cases lends_of_happens? hh with
    | kept | taken | freed => omega

theorem Handling.balance (k : Handling event others e₀ course own left e) :
    ∀ episode ∈ own, ∃ deed, episode.deed? = some deed ∧ episode.Spares ∧
      ∀ outside, episode.after.framesInUse outside + deed.returned =
        episode.before.framesInUse outside + deed.taken := by
  induction k with
  | delivered => exact List.forall_mem_nil _
  | aside _ _ _ ih => exact ih
  | @own course own left left' e e' w k hh d htasks ih =>
    refine List.forall_mem_cons.2 ⟨d.balance ?_, ih⟩
    -- what is done first is on top of all that had been there before the event
    have hbefore : e.board.tasks = left ++ others := by
      cases d with
      | framed hs =>
        exact (board_cons hs rfl).trans (congrArg (_ :: ·) (List.cons.inj htasks).2)
      | unframed hs | offered hs | announced hs =>
        exact (board_cons hs rfl).trans (congrArg (_ :: ·) htasks)
    have hcovered := k.covered
    rw [← countP_hasFrame, show e.stack.filter Task.isPlug = _ from hbefore,
      List.countP_append] at hcovered
    exact Nat.le_of_add_le_add_right hcovered

/-! ## The order of events -/

/-- What some function gives for the episodes of a history, in their order. -/
def inOrder (f : Episode → List HotplugEvent) (course : List Episode) : List HotplugEvent :=
  course.reverse.flatMap f

/-- The event that the task passes on. -/
def Task.announces? : Task → Option HotplugEvent
  | .announce event => some event
  | _ => none

/-- The events that are still to be passed on, the next one first. -/
def Engine.unannounced (e : Engine) : List HotplugEvent :=
  e.board.tasks.filterMap Task.announces?

/-- The events that wait to be passed on, if each time an event is passed on it is, of those that
wait, the one that has arrived last. -/
def stacked (waiting : List HotplugEvent) : List Episode → Option (List HotplugEvent)
  | [] => some waiting
  | episode :: earlier =>
    (stacked waiting earlier).bind fun waiting =>
      match episode.delivered?, episode.forwarded? with
      | some event, _ => some (event :: waiting)
      | none, some event => if waiting.head? = some event then some waiting.tail else none
      | none, none => some waiting

theorem inOrder_cons (f : Episode → List HotplugEvent) (episode : Episode)
    (course : List Episode) : inOrder f (episode :: course) = inOrder f course ++ f episode := by
  unfold inOrder
  rw [List.reverse_cons, List.flatMap_append, List.flatMap_singleton]

/-- What an episode does to the events that wait, and to what is kept for the listener. -/
inductive Conducts (episode : Episode) : Prop
  | delivered (event : HotplugEvent) : episode.delivered? = some event →
      episode.forwarded? = none →
      episode.after.unannounced = event :: episode.before.unannounced →
      episode.after.topology.listener = episode.before.topology.listener → Conducts episode
  | forwarded (event : HotplugEvent) : episode.delivered? = none →
      episode.forwarded? = some event →
      episode.before.unannounced = event :: episode.after.unannounced →
      episode.after.topology.listener = episode.before.topology.listener.map (· ++ [event]) →
      Conducts episode
  | neither : episode.delivered? = none → episode.forwarded? = none →
      episode.after.unannounced = episode.before.unannounced →
      (∀ m, episode.what = .move m →
        episode.after.topology.listener = episode.before.topology.listener) → Conducts episode

/-- What is known of the board tells what waits and what is kept. -/
theorem conducts_of_board (hdelivered : (Episode.mk e what e').delivered? = none)
    (hforwarded : (Episode.mk e what e').forwarded? = none) (h : e'.board = e.board) :
    Conducts ⟨e, what, e'⟩ :=
  .neither hdelivered hforwarded
    (congrArg (fun board : Board => board.tasks.filterMap _) h)
    fun _ _ => congrArg Board.listener h

theorem unannounced_cons (hs : e.stack = t :: below) : e.unannounced =
    t.announces?.toList ++ ({ e with stack := below } : Engine).unannounced := by
  unfold unannounced board
  rw [hs]
  cases t <;> rfl

theorem Episode.delivered?_eq_some (h : episode.delivered? = some event) : ∃ label bytes,
    episode.what = .move (.receive (.received .hotplug label bytes)) ∧
      HotplugEvent.decode bytes = .ok event := by
  unfold delivered? at h
  split at h
  · rename_i label bytes hwhat
    refine ⟨label, bytes, hwhat, ?_⟩
    cases hread : HotplugEvent.decode bytes with
    | error failure => simp [hread, Except.toOption] at h
    | ok event' =>
      rw [hread] at h
      exact congrArg Except.ok (Option.some.inj h)
  · cases h

theorem Episode.forwarded?_eq_some (h : episode.forwarded? = some event) : ∃ below,
    episode.before.stack = .announce event :: below ∧ episode.what = .move .proceed := by
  unfold forwarded? at h
  split at h
  · rename_i event' below hs hwhat
    cases h
    exact ⟨below, hs, hwhat⟩
  · cases h

theorem Engine.receive_of_read (h : HotplugEvent.decode bytes = .ok event) :
    e.receive (.received .hotplug label bytes) =
      e.push [.acknowledge event, .announce event, .handled] := by
  show (e.push [.handled]).onHotplug bytes = _
  unfold onHotplug
  rw [h]
  rfl

theorem Engine.receive_of_unread {failure : Failure}
    (h : HotplugEvent.decode bytes = .error failure) :
    e.receive (.received .hotplug label bytes) = e.push [.handled] := by
  show (e.push [.handled]).onHotplug bytes = _
  unfold onHotplug
  rw [h]

theorem conducts_of_move? (hm : e.move? m = some e')
    (hnew : ∀ settings, m ≠ .call (.attachRoot settings)) : Conducts ⟨e, .move m, e'⟩ := by
  cases hdelivered : (Episode.mk e (.move m) e').delivered? with
  | some event =>
    obtain ⟨label, bytes, hwhat, hread⟩ := Episode.delivered?_eq_some hdelivered
    cases hwhat
    obtain rfl := (receive_of_receive hm).trans (receive_of_read hread)
    refine .delivered event hdelivered ?_ rfl rfl
    cases hforwarded : Episode.forwarded? _ with
    | none => rfl
    | some event' =>
      obtain ⟨below, -, hwhat⟩ := Episode.forwarded?_eq_some hforwarded
      cases hwhat
  | none =>
    cases hforwarded : (Episode.mk e (.move m) e').forwarded? with
    | some event =>
      obtain ⟨below, hs, hwhat⟩ := Episode.forwarded?_eq_some hforwarded
      cases hwhat
      have hs : e.stack = .announce event :: below := hs
      have hstep : e.step = { e with stack := below, topology := e.topology.announce event } := by
        unfold step
        rw [hs]
      obtain rfl := (step_of_proceed hm).trans hstep
      exact .forwarded event hdelivered hforwarded (unannounced_cons hs) rfl
    | none =>
      cases plugs_of_move? hm hnew with
      | aside hboard => exact conducts_of_board hdelivered hforwarded hboard
      | delivered hread => simp [Episode.delivered?, hread, Except.toOption] at hdelivered
      | framed hs | unframed hs | offered hs =>
        exact .neither hdelivered hforwarded (unannounced_cons hs).symm fun _ _ => rfl
      | announced hs => simp [Episode.forwarded?, hs] at hforwarded

/-- **What happens to the events** in one episode. -/
theorem conducts_of_happens? (hh : e.happens? what = some e')
    (hnew : ∀ settings, what ≠ .move (.call (.attachRoot settings))) :
    Conducts ⟨e, what, e'⟩ := by
  cases what with
  | move m => exact conducts_of_move? hh fun settings heq => hnew settings (congrArg _ heq)
  | listen | close | take =>
    cases hh
    refine .neither rfl ?_ rfl nofun
    simp [Episode.forwarded?]

/-- The events of a history are passed on in the order of a stack, each of them once; a listener
has seen or will see those that are passed on while it listens, in the order in which they are. -/
structure Conveyed (e : Engine) (course : List Episode) (e' : Engine) : Prop where
  /-- of the events that wait, the one that has arrived last is next -/
  order : stacked e.unannounced course = some e'.unannounced
  /-- all events that arrive are passed on, each once, apart from those that still wait -/
  once : (inOrder (·.forwarded?.toList) course ++ e'.unannounced).Perm
    (inOrder (·.delivered?.toList) course ++ e.unannounced)
  /-- events of which none arrives while another one waits are passed on in their order -/
  sequence : e.unannounced = [] →
    (∀ episode ∈ course, episode.delivered? ≠ none → episode.before.unannounced = []) →
    inOrder (·.forwarded?.toList) course ++ e'.unannounced = inOrder (·.delivered?.toList) course
  seen : ∀ kept, e.topology.listener = some kept →
    (∀ episode ∈ course, episode.what ≠ .listen ∧ episode.what ≠ .close) →
    ∃ kept', e'.topology.listener = some kept' ∧
      kept ++ inOrder (·.forwarded?.toList) course = inOrder Episode.taken course ++ kept'
  unseen : e.topology.listener = none → (∀ episode ∈ course, episode.what ≠ .listen) →
    e'.topology.listener = none

theorem Conducts.balance (k : Conducts episode) :
    episode.forwarded?.toList ++ episode.after.unannounced =
      episode.delivered?.toList ++ episode.before.unannounced := by
  cases k with
  | delivered event hdelivered hforwarded hwaiting =>
    rw [hdelivered, hforwarded, hwaiting]
    rfl
  | forwarded event hdelivered hforwarded hwaiting =>
    rw [hdelivered, hforwarded, hwaiting]
    rfl
  | neither hdelivered hforwarded hwaiting => rw [hdelivered, hforwarded, hwaiting]

/-- The listener sees what is passed on, if it does not take anything. -/
theorem Conducts.listener (k : Conducts episode) (hm : episode.what = .move m) :
    episode.after.topology.listener =
      episode.before.topology.listener.map (· ++ episode.forwarded?.toList) := by
  have hid (listener : Option (List HotplugEvent)) : listener.map (· ++ []) = listener := by
    cases listener <;> simp
  cases k with
  | delivered event hdelivered hforwarded hwaiting hlistener =>
    rw [hforwarded, hlistener]
    exact (hid _).symm
  | forwarded event hdelivered hforwarded hwaiting hlistener =>
    rw [hforwarded, hlistener]
    rfl
  | neither hdelivered hforwarded hwaiting hlistener =>
    rw [hforwarded, hlistener m hm]
    exact (hid _).symm

section

variable (h : Conveyed e₀ course e) (conducts : Conducts ⟨e, what, e'⟩)

include h conducts

theorem Conveyed.order_next :
    stacked e₀.unannounced (⟨e, what, e'⟩ :: course) = some e'.unannounced := by
  rw [stacked, h.order, Option.bind_some]
  cases conducts with
  | delivered event hdelivered hforwarded hwaiting => simp only [hdelivered, ← hwaiting]
  | forwarded event hdelivered hforwarded hwaiting =>
    have hwaiting : e.unannounced = event :: e'.unannounced := hwaiting
    simp [hdelivered, hforwarded, hwaiting]
  | neither hdelivered hforwarded hwaiting => simp only [hdelivered, hforwarded, ← hwaiting]

theorem Conveyed.once_next :
    (inOrder (·.forwarded?.toList) (⟨e, what, e'⟩ :: course) ++ e'.unannounced).Perm
      (inOrder (·.delivered?.toList) (⟨e, what, e'⟩ :: course) ++ e₀.unannounced) := by
  rw [inOrder_cons, inOrder_cons, List.append_assoc, List.append_assoc, conducts.balance]
  exact (List.perm_append_comm_assoc _ _ _).trans
    ((h.once.append_left _).trans (List.perm_append_comm_assoc _ _ _))

theorem Conveyed.sequence_next (hnone : e₀.unannounced = [])
    (halone : ∀ episode ∈ (⟨e, what, e'⟩ :: course : List Episode),
      episode.delivered? ≠ none → episode.before.unannounced = []) :
    inOrder (·.forwarded?.toList) (⟨e, what, e'⟩ :: course) ++ e'.unannounced =
      inOrder (·.delivered?.toList) (⟨e, what, e'⟩ :: course) := by
  obtain ⟨hlast, hearlier⟩ := List.forall_mem_cons.1 halone
  have hprior := h.sequence hnone hearlier
  rw [inOrder_cons, inOrder_cons, List.append_assoc, conducts.balance, ← hprior]
  cases hdelivered : (Episode.mk e what e').delivered? with
  | none => exact (List.append_nil _).symm
  | some event =>
    have hempty : e.unannounced = [] := hlast (by rw [hdelivered]; nofun)
    show _ ++ ([event] ++ e.unannounced) = _ ++ e.unannounced ++ [event]
    rw [hempty, List.append_nil, List.append_nil]

theorem Conveyed.seen_next (hh : e.happens? what = some e') {kept : List HotplugEvent}
    (hkept : e₀.topology.listener = some kept)
    (hlistening : ∀ episode ∈ (⟨e, what, e'⟩ :: course : List Episode),
      episode.what ≠ .listen ∧ episode.what ≠ .close) :
    ∃ kept', e'.topology.listener = some kept' ∧
      kept ++ inOrder (·.forwarded?.toList) (⟨e, what, e'⟩ :: course) =
        inOrder Episode.taken (⟨e, what, e'⟩ :: course) ++ kept' := by
  obtain ⟨hlast, hearlier⟩ := List.forall_mem_cons.1 hlistening
  obtain ⟨before, hbefore, hprior⟩ := h.seen kept hkept hearlier
  rw [inOrder_cons, inOrder_cons, ← List.append_assoc, hprior]
  cases what with
  | listen => exact absurd rfl hlast.1
  | close => exact absurd rfl hlast.2
  | take =>
    cases hh
    refine ⟨[], congrArg (Option.map _) hbefore, ?_⟩
    simp [Episode.forwarded?, Episode.taken, hbefore]
  | move m =>
    have hlistener := conducts.listener rfl
    refine ⟨_, hlistener.trans (congrArg (Option.map _) hbefore), ?_⟩
    simp [Episode.taken]

theorem Conveyed.unseen_next (hh : e.happens? what = some e')
    (hnone : e₀.topology.listener = none)
    (hdeaf : ∀ episode ∈ (⟨e, what, e'⟩ :: course : List Episode), episode.what ≠ .listen) :
    e'.topology.listener = none := by
  obtain ⟨hlast, hearlier⟩ := List.forall_mem_cons.1 hdeaf
  have hbefore := h.unseen hnone hearlier
  cases what with
  | listen => exact absurd rfl hlast
  | close =>
    cases hh
    rfl
  | take =>
    cases hh
    exact congrArg (Option.map _) hbefore
  | move m => exact (conducts.listener rfl).trans (congrArg (Option.map _) hbefore)

end

theorem History.conveyed (k : History e course e') : Conveyed e course e' := by
  induction k with
  | start =>
    exact ⟨rfl, .refl _, fun h _ => h, fun kept h _ => ⟨kept, h, List.append_nil _⟩, fun h _ => h⟩
  | next _ hnew hh ih =>
    have conducts := conducts_of_happens? hh hnew
    exact ⟨ih.order_next conducts, ih.once_next conducts, ih.sequence_next conducts,
      fun kept => ih.seen_next conducts hh, ih.unseen_next conducts hh⟩

/-! ## All of it -/

/-- What is done about an event if the transport answers like this. -/
def HotplugEvent.deeds (event : HotplugEvent) (frame answer : Except TransportFault Unit) :
    List Deed :=
  match frame with
  | .ok () => [.request (.ok ()), .submission event.acknowledgment answer, .forward event]
  | .error fault => [.request (.error fault), .forward event]

/-- An event that has arrived can be dealt with at once, whatever the transport answers. -/
theorem Handling.completes (e : Engine) (event : HotplugEvent)
    (frame answer : Except TransportFault Unit) : ∃ course own e',
      History (e.push [.acknowledge event, .announce event, .handled]) course e' ∧
      Handling event e.board.tasks (e.push [.acknowledge event, .announce event, .handled])
        course own [] e' ∧ RouterFabric.deeds own = event.deeds frame answer := by
  have arrived : Handling event e.board.tasks
      (e.push [.acknowledge event, .announce event, .handled]) [] []
      [.acknowledge event, .announce event] _ := .delivered rfl
  cases frame with
  | error fault =>
    have asked := arrived.own (w := .move (.grant (.error fault))) rfl (.unframed rfl) rfl
    have ended := asked.own (w := .move .proceed) rfl (.announced rfl) rfl
    refine ⟨_, _, _, ?_, ended, rfl⟩
    exact .next (w := .move .proceed)
      (.next (w := .move (.grant (.error fault))) .start nofun rfl) nofun rfl
  | ok granted =>
    have asked := arrived.own (w := .move (.grant (.ok ()))) rfl (.framed rfl) rfl
    have sent := asked.own (w := .move (.grant answer)) rfl (.offered rfl) rfl
    have ended := sent.own (w := .move .proceed) rfl (.announced rfl) rfl
    refine ⟨_, _, _, ?_, ended, rfl⟩
    exact .next (w := .move .proceed) (.next (w := .move (.grant answer))
      (.next (w := .move (.grant (.ok ()))) .start nofun rfl) nofun rfl) nofun rfl

/-- **Hot-plug events.** One that cannot be read changes nothing. For one that can be read, the
transport is asked for a frame, and if there is one it is handed to the transport once, as a
notification that says the same as the event, and is back in the pool whatever the transport
answers; in each case the event is then passed on once, and nothing else changes. Events are passed
on to whoever listens at that moment, so that a listener sees all events that are passed on while it
listens, in the order in which they are; an event that arrives while an earlier one is still waiting
for its acknowledgment is passed on first, and apart from that they come in the order of their
arrival. -/
theorem Engine.hotplug_events :
    (∀ (e : Engine) label bytes failure, HotplugEvent.decode bytes = .error failure →
      e.receive (.received .hotplug label bytes) = e.push [.handled]) ∧
    (∀ (e : Engine) label bytes event, HotplugEvent.decode bytes = .ok event →
      event.acknowledgment.Echoes event ∧
      e.receive (.received .hotplug label bytes) =
        e.push [.acknowledge event, .announce event, .handled] ∧
      (∀ course e', History (e.receive (.received .hotplug label bytes)) course e' →
        ∃ later earlier own left mid, course = later ++ earlier ∧
          Handling event e.board.tasks (e.receive (.received .hotplug label bytes))
            earlier own left mid ∧ (later = [] ∧ mid = e' ∨ left = [])) ∧
      (∀ course own left e', Handling event e.board.tasks
          (e.receive (.received .hotplug label bytes)) course own left e' →
        Due event (deeds own) left ∧
        ∀ episode ∈ own, ∃ deed, episode.deed? = some deed ∧ episode.Spares ∧
          ∀ outside, episode.after.framesInUse outside + deed.returned =
            episode.before.framesInUse outside + deed.taken) ∧
      ∀ frame answer, ∃ course own e',
        History (e.receive (.received .hotplug label bytes)) course e' ∧
        Handling event e.board.tasks (e.receive (.received .hotplug label bytes))
          course own [] e' ∧ deeds own = event.deeds frame answer) ∧
    ∀ e course e', History e course e' → Conveyed e course e' := by
  refine ⟨fun e label bytes failure => receive_of_unread, fun e label bytes event hread => ?_,
    fun e course e' => History.conveyed⟩
  rw [receive_of_read hread]
  exact ⟨HotplugEvent.echoes_of_decode hread, rfl, fun course e' k => k.handling rfl,
    fun course own left e' k => ⟨k.due, k.balance⟩, Handling.completes e event⟩

/-! ## Two events -/

/-- An adapter of the host router is plugged. -/
def adapterPlugged : HotplugEvent := ⟨.root, 3, false⟩

/-- Another one is unplugged. -/
def adapterUnplugged : HotplugEvent := ⟨.root, 5, true⟩

/-- Someone listens, and nothing is under way. -/
def listeningEngine : Engine where
  topology := { listener := some [] }

theorem adapterPlugged_read : HotplugEvent.decode adapterPlugged.encode = .ok adapterPlugged :=
  (HotplugEvent.decode_encode _).trans rfl

theorem adapterUnplugged_read :
    HotplugEvent.decode adapterUnplugged.encode = .ok adapterUnplugged :=
  (HotplugEvent.decode_encode _).trans rfl

theorem happens_of_read (hread : HotplugEvent.decode bytes = .ok event)
    (hidle : e.isWorking = false) :
    e.happens? (.move (.receive (.received .hotplug label bytes))) =
      some (e.push [.acknowledge event, .announce event, .handled]) := by
  show e.move? (.receive (.received .hotplug label bytes)) = _
  unfold move?
  simp only [hidle, receive_of_read hread]
  rfl

/-- An event cannot be read, and another one is passed on although the transport refuses to send
its acknowledgment. -/
theorem hotplug_event_unsent :
    (∃ failure, HotplugEvent.decode [] = .error failure ∧
      listeningEngine.receive (.received .hotplug .hotplug []) = listeningEngine.push [.handled]) ∧
    ∃ course own e', HotplugEvent.decode adapterPlugged.encode = .ok adapterPlugged ∧
      History (listeningEngine.receive (.received .hotplug .hotplug adapterPlugged.encode))
        course e' ∧
      deeds own = [.request (.ok ()),
        .submission adapterPlugged.acknowledgment (.error .closed), .forward adapterPlugged] ∧
      Conveyed (listeningEngine.receive (.received .hotplug .hotplug adapterPlugged.encode))
        course e' := by
  obtain ⟨unread, read, conveyed⟩ := Engine.hotplug_events
  obtain ⟨-, -, -, -, completes⟩ :=
    read listeningEngine .hotplug adapterPlugged.encode adapterPlugged adapterPlugged_read
  obtain ⟨course, own, e', history, -, hdeeds⟩ := completes (.ok ()) (.error .closed)
  exact ⟨⟨_, rfl, unread listeningEngine .hotplug [] _ rfl⟩, course, own, e', adapterPlugged_read,
    history, hdeeds, conveyed _ course e' history⟩

/-- An adapter is unplugged while the plugging of another one is being acknowledged: it is the
unplugging that the listener sees first. -/
theorem later_event_first :
    ∃ course e', History listeningEngine course e' ∧ listeningEngine.topology.listener = some [] ∧
      (∀ episode ∈ course, ∃ m, episode.what = .move m) ∧
      listeningEngine.stack = [] ∧ e'.stack = [] ∧
      inOrder (·.delivered?.toList) course = [adapterPlugged, adapterUnplugged] ∧
      e'.topology.listener = some [adapterUnplugged, adapterPlugged] ∧
      adapterPlugged ≠ adapterUnplugged := by
  have first := History.start.next (w := .move (.receive
    (.received .hotplug .hotplug adapterPlugged.encode))) nofun
      (happens_of_read (e := listeningEngine) adapterPlugged_read rfl)
  have framed := first.next (w := .move (.grant (.ok ()))) nofun rfl
  have second := framed.next (w := .move (.receive
    (.received .hotplug .hotplug adapterUnplugged.encode))) nofun
      (happens_of_read adapterUnplugged_read rfl)
  -- the second event is dealt with inside the submission for the first one
  have inner := ((second.next (w := .move (.grant (.ok ()))) nofun rfl).next
    (w := .move (.grant (.ok ()))) nofun rfl).next (w := .move .proceed) nofun rfl
  have returned := inner.next (w := .move .collect) nofun rfl
  have outer := (returned.next (w := .move (.grant (.ok ()))) nofun rfl).next
    (w := .move .proceed) nofun rfl
  have ended := outer.next (w := .move .collect) nofun rfl
  refine ⟨_, _, ended, rfl, ?_, rfl, rfl, ?_, rfl, by decide⟩
  · simp
  · simp [inOrder, Episode.delivered?, adapterPlugged_read, adapterUnplugged_read, Except.toOption]

end RouterFabric
