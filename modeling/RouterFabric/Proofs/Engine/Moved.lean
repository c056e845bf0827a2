import RouterFabric.Proofs.Engine.Acts
import RouterFabric.Proofs.Engine.Changes

/-!
# What a move can do

The stack of an engine is made of the tasks that calls wait on, each above what it reports to, and
of chores in between. A move changes what is on top, makes one of the kinds of change to what is
stored, and leaves everything below alone. `Moved` lists all there is; what holds of every run is
derived from it.

* `Engine.Sound` : what is stored is sound, and every task fits it
* `Engine.Moved` : the possible moves, by what they do
* `Sound.moved` : every move is one of them
-/

namespace RouterFabric

/-! ## Tasks -/

namespace Task

/-- Chores that can be dropped without anyone waiting for them. -/
def isQuiet : Task → Bool
  | .sleep _ => true
  | .drain _ => true
  | .offer _ _ => true
  | .kick => true
  | .drainEach _ => true
  | .hold _ _ => true
  | .acknowledge _ => true
  | .offerAcknowledgment _ => true
  | .announce _ => true
  | .handled => true
  | _ => false

/-- The caller that waits in a task. -/
def waiter? : Task → Option Waiter
  | .attempt w => some w
  | .watch w => some w
  | .await w _ => some w
  | .claimed w => some w
  | _ => none

/-- The commands that are in no queue as long as the task stands: one that is to begin its next
attempt, or one that is to end. -/
def unqueued : Task → List CommandRef
  | .attempt w => [w.command]
  | .expire _ c => [c]
  | _ => []

theorem unqueued_subset (t : Task) : t.unqueued ⊆ t.commands := by
  cases t <;> first | exact List.Subset.refl _ | exact List.nil_subset _

theorem mem_commands_of_waiter? {t : Task} {w : Waiter} (hw : t.waiter? = some w) :
    w.command ∈ t.commands := by
  cases t <;> cases hw <;> exact List.mem_cons_self

theorem waiter?_of_quiet {t : Task} (h : t.isQuiet = true) : t.waiter? = none := by
  cases t <;> first | rfl | cases h

end Task

/-- Moves that neither begin a call nor take anything from the engine. -/
def Move.isInner : Move → Bool
  | .call _ => false
  | .collect => false
  | _ => true

namespace Engine

variable {e e' e'' : Engine} {r r' : RouterRef} {router : Router} {c c' : CommandRef}
  {command old new : Command} {t t' : Task} {w : Waiter} {below tasks gone : List Task}

/-- A waiting caller has a command of a router it may know of. No callback is told how it ends. -/
def Attends (e : Engine) (w : Waiter) : Prop :=
  e.Known w.router ∧ ∃ command, e.command? w.command = some command ∧
    e.Owns w.router command ∧ ∀ tag, command.listener ≠ .callback tag

/-- What a task refers to is there. A command that is to begin an attempt or to end is in no
queue. -/
def Suits (e : Engine) : Task → Prop
  | .perform r _ => e.Known r
  | .resume r _ => e.Known r
  | .allocate r command _ => e.Known r ∧ e.Owns r command ∧ command = command.made
  | .attempt w => e.Attends w ∧ ¬ e.Queued w.command ∧
      ∃ watching left, w.patience = .retrying watching left
  | .watch w => e.Attends w
  | .await w _ => e.Attends w
  | .claimed w => e.Attends w
  | .expire _ c => ¬ e.Queued c
  | _ => True

/-- A task suits the engine, and the commands it names exist. -/
def Fits (e : Engine) (t : Task) : Prop :=
  e.Suits t ∧ ∀ c ∈ t.commands, c.index < e.commands.length

/-- A caller that waits has a younger command than anything below it knows of, so that nothing
below has to do with its attempts. -/
def Aged (stack : List Task) : Prop :=
  stack.Pairwise fun t below =>
    ∀ w, t.waiter? = some w → ∀ c ∈ below.commands, c.index < w.command.index

/-- What is stored is sound, and all tasks fit it. -/
structure Sound (e : Engine) : Prop extends Stored e where
  tasks : ∀ t ∈ e.stack, e.Fits t
  aged : Aged e.stack

theorem Attends.mono (h : e.Attends w) (x : e.Extends e') : e'.Attends w := by
  obtain ⟨hk, command, hc, ho, hl⟩ := h
  obtain ⟨command', hc', hm, hl'⟩ := x.commands _ command hc
  exact ⟨x.known _ hk, command', hc', x.owns ho hm, fun tag h => hl tag (hl' tag h)⟩

theorem Fits.mono (h : e.Fits t) (x : e.Extends e')
    (hq : ∀ c ∈ t.unqueued, e'.Queued c → e.Queued c) : e'.Fits t := by
  obtain ⟨hs, hn⟩ := h
  refine ⟨?_, fun c hc => Nat.lt_of_lt_of_le (hn c hc) x.length_le⟩
  cases t with
  | perform | resume => exact x.known _ hs
  | allocate => exact ⟨x.known _ hs.1, x.owns hs.2.1 rfl, hs.2.2⟩
  | attempt w =>
    exact ⟨hs.1.mono x, fun h => hs.2.1 (hq _ List.mem_cons_self h), hs.2.2⟩
  | watch | await | claimed => exact Attends.mono hs x
  | expire => exact fun h => hs (hq _ List.mem_cons_self h)
  | _ => trivial

theorem aged_append (hquiet : ∀ t ∈ tasks, t.waiter? = none) (h : Aged below) :
    Aged (tasks ++ below) := by
  unfold Aged at h ⊢
  rw [List.pairwise_append]
  refine ⟨List.pairwise_iff_forall_sublist.2 fun hsub w hw => ?_, h, fun t ht b _ w hw => ?_⟩
  · rw [hquiet _ (hsub.subset List.mem_cons_self)] at hw
    cases hw
  · rw [hquiet t ht] at hw
    cases hw

theorem aged_replace (h : Aged (t :: below)) (hw : ∀ w', t'.waiter? = some w' →
    ∃ w, t.waiter? = some w ∧ w'.command = w.command) : Aged (t' :: below) := by
  unfold Aged at h ⊢
  rw [List.pairwise_cons] at h ⊢
  refine ⟨fun b hb w' hw' c hc => ?_, h.2⟩
  obtain ⟨w, hw, same⟩ := hw w' hw'
  rw [same]
  exact h.1 b hb w hw c hc

theorem aged_of_append (h : Aged (gone ++ below)) : Aged below :=
  (List.pairwise_append.1 h).2.1

/-- The rest of a sound engine's stack. -/
theorem Sound.pop (h : e.Sound) (hs : e.stack = gone ++ below) :
    ({ e with stack := below } : Engine).Sound where
  toStored := ⟨h.tree, h.nextId, h.ids, h.places, h.orderly, h.members⟩
  tasks t ht := h.tasks t (hs ▸ List.mem_append_right gone ht)
  aged := aged_of_append (hs ▸ h.aged : Aged (gone ++ below))

/-- A sound engine again: what is below fits still, and what is new fits. -/
theorem Sound.advance (h : e.Sound) (hs : e'.Stored) (x : e.Extends e')
    (he : e.stack = gone ++ below) (he' : e'.stack = tasks ++ below)
    (hq : ∀ t ∈ below, ∀ c ∈ t.commands, e'.Queued c → e.Queued c)
    (fits : ∀ t ∈ tasks, e'.Fits t) (aged : Aged (tasks ++ below)) : e'.Sound where
  toStored := hs
  tasks t ht := by
    rw [he'] at ht
    rcases List.mem_append.1 ht with ht | ht
    · exact fits t ht
    · exact (h.tasks t (he ▸ List.mem_append_right gone ht)).mono x fun c hc =>
        hq t ht c (t.unqueued_subset hc)
  aged := he' ▸ aged

/-! ## Moves -/

/-- A signal for the attempt in the slot of a router, with the words that come with it. -/
inductive Signalled (e : Engine) (r : RouterRef) (command : Command) :
    Move → Signal → Option (List UInt32) → Prop
  | sent (context : Option FrameContext) :
    Signalled e r command (.receive (.sent context)) .sent none
  | answered {channel : PacketType} {bytes : List UInt8} {route : Route} {address : Address}
    {data : List UInt32} : channel ≠ .notify → channel ≠ .hotplug →
      response? command.kind.packetType bytes = some (route, address, data) →
      e.topology.lookup route = .ok r → command.seq = address.seq →
      Signalled e r command (.receive (.received channel command.kind.packetType bytes)) .answered
        (match command.kind with
          | .read => some (data.take command.address.dwords)
          | .write => none)

/-- What stands above a program that has asked for something. -/
inductive Asked (e : Engine) (r : RouterRef) : Request → Task → Prop
  | refused {request : Request} (failure : Failure) :
    Asked e r request (.reply (.error failure))
  | met {request : Request} (reply : Reply) : (∀ t style, request ≠ .transfer t style) →
      request ≠ .unlink → Asked e r request (.reply reply)
  | transfer {t : Transfer} {style : Style} {command : Command} : e.Owns r command →
      command = command.made → command.kind = t.kind → t.address = .ok command.address →
      Asked e r (.transfer t style) (.allocate r command style)

/-- The listener of a command that is issued in a style. -/
def listenerFor : Style → Listener
  | .waiting _ => .nobody
  | .callback tag => .callback tag
  | .future => .future none

/-- What is left to do for a transfer that nobody waits for by watching, once it is queued. -/
inductive Issued (r : RouterRef) (c : CommandRef) : Style → Task → Prop
  | callback (tag : Nat) : Issued r c (.callback tag) (.reply (.ok []))
  | future : Issued r c .future (.watch ⟨r, c, .future⟩)

/-- What a move does that neither begins a call nor takes its answer. -/
inductive Inner (e : Engine) (m : Move) (e' : Engine) : Prop
  /-- chores come and go -/
  | quiet (gone tasks below : List Task) : e.stack = gone ++ below → e'.stack = tasks ++ below →
      (∀ t ∈ gone, t.isQuiet = true) → (∀ t ∈ tasks, t.isQuiet = true) →
      (∀ t ∈ tasks, e'.Fits t) → e.Alike e' → Inner e m e'
  | returned (tag : Nat) (reply : Reply) (below : List Task) :
      e.stack = .notify tag reply :: below → e'.stack = below → m = .back → e.Alike e' →
      Inner e m e'
  /-- a command that had been taken out of its slot ends -/
  | expired (r : RouterRef) (c : CommandRef) (old : Command) (tasks below : List Task) :
      e.stack = .expire r c :: below → e'.stack = old.notes .expired ++ tasks ++ below →
      (∀ t ∈ tasks, t.isQuiet = true) → (∀ t ∈ tasks, e'.Fits t) →
      e.Changed e' c old (old.finish .expired) true → Inner e m e'
  /-- the transport refuses the slot's command for good -/
  | refused (r : RouterRef) (c : CommandRef) (old : Command) (fault : TransportFault)
      (tasks below : List Task) : e.stack = .offer r c :: below →
      e'.stack = old.notes (.refused fault) ++ tasks ++ below → (∀ t ∈ tasks, t.isQuiet = true) →
      (∀ t ∈ tasks, e'.Fits t) → (e.queue r).slot = some c →
      e.Changed e' c old (old.forced.finish (.refused fault)) true → Inner e m e'
  /-- the first signal of an attempt is noted -/
  | noted (r : RouterRef) (c : CommandRef) (old : Command) (signal : Signal)
      (words : Option (List UInt32)) : e'.stack = .handled :: e.stack →
      (e.queue r).slot = some c → Signalled e r old m signal words →
      (old.noted signal words).isComplete = false →
      e.Changed e' c old (old.noted signal words) false → Inner e m e'
  /-- the second signal of an attempt ends it -/
  | completed (r : RouterRef) (c : CommandRef) (old : Command) (signal : Signal)
      (words : Option (List UInt32)) (tasks : List Task) :
      e'.stack = old.notes (.completed ((old.noted signal words).response.getD [])) ++ tasks ++
        e.stack → (∀ t ∈ tasks, t.isQuiet = true) → (∀ t ∈ tasks, e'.Fits t) →
      (e.queue r).slot = some c → Signalled e r old m signal words →
      (old.noted signal words).isComplete = true →
      e.Changed e' c old (({ old.noted signal words with response := none } : Command).finish
        (.completed ((old.noted signal words).response.getD []))) true → Inner e m e'
  /-- an event ends the attempt in a slot -/
  | interrupted (r : RouterRef) (c : CommandRef) (old : Command) (event : Event)
      (tasks : List Task) : e'.stack = old.notes (.interrupted event) ++ tasks ++ e.stack →
      (∀ t ∈ tasks, t.isQuiet = true) → (∀ t ∈ tasks, e'.Fits t) → (e.queue r).slot = some c →
      e.Changed e' c old (old.forced.finish (.interrupted event)) true → Inner e m e'
  /-- a program has come to its end -/
  | finished (r : RouterRef) (result : Outcome Answer) (below : List Task) :
      e.stack = .perform r (.done result) :: below → e'.stack = .answer result :: below →
      e.Alike e' → Inner e m e'
  /-- a program asks for something -/
  | asked (r : RouterRef) (request : Request) (next : Reply → Program Request Answer) (t : Task)
      (tasks below : List Task) : e.stack = .perform r (.ask request next) :: below →
      e'.stack = tasks ++ t :: .resume r next :: below → (∀ t ∈ tasks, t.isQuiet = true) →
      (∀ t ∈ tasks, e'.Fits t) → Asked e r request t → e.Alike e' → Inner e m e'
  /-- a program has its router taken out of the tree -/
  | unlinked (r : RouterRef) (next : Reply → Program Request Answer) (below : List Task) :
      e.stack = .perform r (.ask .unlink next) :: below →
      e'.stack = .reply (.ok []) :: .resume r next :: below → e.Parted e' r → m = .proceed →
      Inner e m e'
  /-- a program goes on with a reply -/
  | resumed (r : RouterRef) (next : Reply → Program Request Answer) (reply : Reply)
      (below : List Task) : e.stack = .reply reply :: .resume r next :: below →
      e'.stack = .perform r (next reply) :: below → e.Alike e' → Inner e m e'
  /-- a reply that no program waits for is dropped -/
  | dropped (reply : Reply) (below : List Task) : e.stack = .reply reply :: below →
      (∀ r next rest, below ≠ .resume r next :: rest) → e'.stack = below → e.Alike e' →
      Inner e m e'
  /-- there is no frame for a command -/
  | unframed (r : RouterRef) (command : Command) (style : Style) (failure : Failure)
      (below : List Task) : e.stack = .allocate r command style :: below →
      e'.stack = .reply (.error failure) :: below → e.Alike e' → Inner e m e'
  /-- a caller that watches has its command -/
  | framed (r : RouterRef) (command : Command) (watching : Watching) (below : List Task) :
      e.stack = .allocate r command (.waiting watching) :: below →
      e'.stack =
        .attempt ⟨r, ⟨e.commands.length⟩, .retrying watching e.topology.settings.attempts⟩ ::
          below →
      e.Added e' command → Inner e m e'
  /-- any other caller has its command queued at once -/
  | issued (r : RouterRef) (command : Command) (style : Style) (t : Task) (mid : Engine)
      (router : Router) (below : List Task) : e.stack = .allocate r command style :: below →
      e'.stack =
        (if router.detached then [Task.reply (.error .notFound)] else [Task.drain r, t]) ++ below →
      Issued r ⟨e.commands.length⟩ style t →
      e.Added mid { command with listener := listenerFor style } →
      mid.Begun e' r ⟨e.commands.length⟩ router { command with listener := listenerFor style } →
      Inner e m e'
  /-- a waiting caller makes its next attempt -/
  | retried (w : Waiter) (watching : Watching) (left : Nat) (router : Router) (old : Command)
      (below : List Task) : e.stack = .attempt w :: below →
      e'.stack = (if router.detached then [Task.reply (.error .notFound)] else
        [Task.drain w.router, Task.watch { w with patience := .retrying watching left }]) ++ below →
      e.Begun e' w.router w.command router old → Inner e m e'
  | exhausted (w : Waiter) (below : List Task) : e.stack = .attempt w :: below →
      e'.stack = .reply (.error .timeout) :: below → e.Alike e' → Inner e m e'
  | watched (w : Waiter) (deadline : Nat) (below : List Task) : e.stack = .watch w :: below →
      e'.stack = .await w deadline :: below → e.Alike e' → Inner e m e'
  /-- a waiting caller learns how its command has ended, or that it may try again -/
  | settled (w : Waiter) (t t' : Task) (command : Command) (below : List Task) :
      e.stack = t :: below → (t = .claimed w ∨ ∃ deadline, t = .await w deadline) →
      e'.stack = t' :: below → e.command? w.command = some command →
      ((∃ reply, t' = .reply reply ∧ (command.listener = .future (some reply) ∨
          ∃ ending, command.ending = some ending ∧ reply = ending.reply)) ∨
        t' = .attempt w ∧ e'.Fits t' ∧ ∃ watching, notices watching command = true) →
      e.Alike e' → Inner e m e'
  | unclaimed (w : Waiter) (deadline : Nat) (below : List Task) :
      e.stack = .await w deadline :: below → e'.stack = .claimed w :: below → e.Alike e' →
      Inner e m e'
  /-- a caller gives its attempt up, and expires what it waited behind -/
  | withdrawn (w : Waiter) (deadline : Nat) (mid : Engine) (old : Command)
      (expired : Option CommandRef) (t : Task) (tasks below : List Task) :
      e.stack = .await w deadline :: below →
      e'.stack = expired.toList.map (.expire w.router) ++ tasks ++ t :: below →
      (∀ t ∈ tasks, t.isQuiet = true) → (∀ t ∈ tasks, e'.Fits t) →
      (t = .reply (.error .timeout) ∨ t = .attempt w ∧ ∃ watching left,
        w.patience = .retrying watching left) →
      w.command ∈ (e.queue w.router).members → e.Changed mid w.command old old true →
      Forced mid (expired.toList.map (w.router, ·)) e' → Inner e m e'
  | unregistered (failure : Failure) (below : List Task) : e.stack = .register :: below →
      e'.stack = .answer (.error failure) :: below → e.Alike e' → Inner e m e'
  /-- the host router is added -/
  | rooted (linked : Bool) (t : Task) (below : List Task) : e.stack = .register :: below →
      e'.stack = t :: below → e.Joined e' Route.root linked →
      (linked = false ∧ (∃ failure, t = .answer (.error failure)) ∨
        linked = true ∧ ∃ settings, t = .perform ⟨e.routers.length⟩ (do
          Procedure.discover settings Route.root
          return .router ⟨e.routers.length⟩)) → Inner e m e'

/-- What the beginning of a call does. -/
inductive Called (e : Engine) : Call → Engine → Prop
  /-- it is answered at once -/
  | answered {call : Call} {e' : Engine} (result : Outcome Answer) :
      (∀ r operation, call = .operate r operation → ∃ failure, result = .error failure) →
      e'.stack = .answer result :: e.stack → e.Alike e' → Called e call e'
  | operated {e' : Engine} (r : RouterRef) (operation : Operation) (router : Router)
      (settings : Settings) : e.router? r = some router →
      e'.stack = .perform r (operation.program settings router) :: e.stack → e.Alike e' →
      Called e (.operate r operation) e'
  | attached {e' : Engine} (parent : RouterRef) (route : Route) (linked : Bool) (t : Task) :
      e'.stack = t :: e.stack → e.Joined e' route linked →
      (linked = false ∧ (∃ failure, t = .answer (.error failure)) ∨
        linked = true ∧ ∃ settings, t = .perform ⟨e.routers.length⟩ (do
          Procedure.discover settings route
          return .router ⟨e.routers.length⟩)) → Called e (.attachChild parent route) e'
  | detached {e' : Engine} (r : RouterRef) (expired : List (RouterRef × CommandRef)) (mid : Engine)
      (rs : List RouterRef) (tasks : List Task) (result : Outcome Answer) :
      e'.stack = expired.map (fun (r, c) => Task.expire r c) ++ tasks ++ .answer result :: e.stack →
      (∀ t ∈ tasks, t.isQuiet = true) → (∀ t ∈ tasks, e'.Fits t) → Forced e expired mid →
      Cut mid rs e' → (∀ r ∈ rs, (mid.queue r).members = []) → Called e (.detach r) e'

/-- What a move can do. -/
inductive Moved (e : Engine) : Move → Engine → Prop
  | inner {m : Move} {e' : Engine} : (∀ call, m ≠ .call call) →
      (m = .collect → ∀ result below, e.stack ≠ .answer result :: below) → Inner e m e' →
      Moved e m e'
  | called {call : Call} {e' : Engine} : Called e call e' → Moved e (.call call) e'
  /-- the answer of a call is taken -/
  | collected {e' : Engine} (result : Outcome Answer) (below : List Task) :
      e.stack = .answer result :: below → e'.stack = below → e.Alike e' → Moved e .collect e'

/-! ## Every move is one of these -/

section restacked

variable {s : List Task}

theorem Spared.restacked (a : Spared { e with stack := s } e' c) : e.Spared e' c :=
  ⟨a.substance, a.ending⟩

theorem Framed.restacked (a : Framed { e with stack := s } e') : e.Framed e' :=
  ⟨a.routers, a.orderly, a.tree, a.nextId, a.places⟩

theorem Alike.restacked (a : Alike { e with stack := s } e') : e.Alike e' :=
  ⟨a.toFramed.restacked, a.begun, a.members, fun c => (a.commands c).restacked⟩

theorem Changed.restacked {left : Bool} (a : Changed { e with stack := s } e' c old new left) :
    e.Changed e' c old new left :=
  ⟨a.toFramed.restacked, a.begun, a.members, a.before, a.after,
    fun c' h => (a.others c' h).restacked⟩

theorem Added.restacked (a : Added { e with stack := s } e' new) : e.Added e' new :=
  ⟨a.toFramed.restacked, a.begun, a.members, a.commands⟩

theorem Added.onto (a : e.Added e' new) : e.Added { e' with stack := s } new :=
  ⟨⟨a.routers, a.orderly, a.tree, a.nextId, a.places⟩, a.begun, a.members, a.commands⟩

theorem Begun.restacked (a : Begun { e with stack := s } e' r c router old) :
    e.Begun e' r c router old :=
  ⟨a.toFramed.restacked, a.on, a.begun, a.members, a.before, a.after,
    fun c' h => (a.others c' h).restacked⟩

theorem Joined.restacked {route : Route} {linked : Bool}
    (a : Joined { e with stack := s } e' route linked) : e.Joined e' route linked :=
  ⟨a.routers, a.commands, a.tree, a.nextId, a.places, a.place⟩

theorem Parted.restacked (a : Parted { e with stack := s } e' r) : e.Parted e' r :=
  ⟨a.routers, a.begun, a.queues, a.commands, a.tree, a.nextId, a.places⟩

theorem Asked.restacked {request : Request} (a : Asked { e with stack := s } r request t) :
    Asked e r request t := by
  cases a with
  | refused failure => exact .refused failure
  | met reply ht hu => exact .met reply ht hu
  | transfer ho hm hk ha => exact .transfer ho hm hk ha

end restacked

theorem router_of_known (h : e.Stored) (hk : e.Known r) : ∃ router, e.router? r = some router := by
  rcases hk with ⟨id, hid⟩ | ⟨router, hr, -⟩
  · rw [RouterTree.get?_eq_place] at hid
    obtain ⟨⟨value, route, parent⟩, he, rfl⟩ := Option.map_eq_some_iff.1 hid
    obtain ⟨-, router, hr, -⟩ := h.places id value route parent he
    exact ⟨router, hr⟩
  · exact ⟨router, hr⟩

/-- A command that has just been made is in no queue. -/
theorem Stored.not_queued_next (h : e.Stored) (a : e.Added e' new) :
    ¬ e'.Queued ⟨e.commands.length⟩ := by
  rintro ⟨r, hm⟩
  rw [a.members] at hm
  exact Nat.lt_irrefl _ (h.lt_of_queued ⟨r, hm⟩)

theorem fits_of_quiet (hq : t.isQuiet = true)
    (hn : ∀ c ∈ t.commands, c.index < e.commands.length) : e.Fits t := by
  refine ⟨?_, hn⟩
  cases t <;> trivial

/-- The chores that the end of an attempt leaves. -/
theorem fits_of_ended (hc : c.index < e.commands.length)
    (ht : t ∈ [.drain r, .kick, .hold [r] [c]]) : t.isQuiet = true ∧ e.Fits t := by
  rcases List.mem_cons.1 ht with rfl | ht
  · exact ⟨rfl, fits_of_quiet rfl (by simp [Task.commands])⟩
  · rcases List.mem_cons.1 ht with rfl | ht
    · exact ⟨rfl, fits_of_quiet rfl (by simp [Task.commands])⟩
    · rw [List.mem_singleton.1 ht]
      refine ⟨rfl, fits_of_quiet rfl fun c' hc' => ?_⟩
      rw [List.mem_singleton.1 hc']
      exact hc

/-- A request that is met does not wait for anything. -/
theorem Stored.meet_spec (h : e.Stored) (r : RouterRef) (request : Request)
    (hu : request ≠ .unlink) :
    e.Alike (e.meet r request) ∧ ∃ t tasks, (e.meet r request).stack = tasks ++ t :: e.stack ∧
      (∀ t ∈ tasks, t.isQuiet = true ∧ t.commands = []) ∧ Asked e r request t := by
  unfold meet
  split
  · rename_i transfer style
    obtain ⟨a, ⟨failure, hs⟩ | ⟨command, router, hs, hr, hm, hn, hroute, hkind, haddr⟩⟩ :=
      h.issue_spec r transfer style
    · exact ⟨a, _, [], hs, by simp, .refused failure⟩
    · refine ⟨a, _, [], hs, by simp, .transfer ⟨?_, router, hr, hroute⟩ hm hkind haddr⟩
      rw [hn, h.ids r router hr]
  · rename_i ms
    refine ⟨h.alike_push _, _, [.sleep ms], rfl, fun t ht => ?_, .met _ nofun nofun⟩
    rw [List.mem_singleton.1 ht]
    exact ⟨rfl, rfl⟩
  · have a := h.alike_updateRouter r (f := fun router => { router with suspended := true })
      (fun _ => rfl) (fun _ => rfl) fun _ => rfl
    exact ⟨a.trans ((h.of_alike a).alike_push _), _, [], rfl, by simp, .met _ nofun nofun⟩
  · rename_i identity
    obtain ⟨a, reply, hs⟩ := h.enrol_spec r identity
    exact ⟨a, _, [], hs, by simp, .met _ nofun nofun⟩
  · exact absurd rfl hu

theorem passOn_spec (h : e.Stored) (reply : Reply) (m : Move) {e' : Engine}
    (he : e'.stack = .reply reply :: e.stack) (a : e'.Alike e) : Inner e' m (e.passOn reply) := by
  unfold passOn
  split
  · rename_i r next below hs
    exact .resumed r next reply below (he.trans (by rw [hs])) rfl
      (a.trans (h.alike_of_eq rfl rfl rfl))
  · rename_i hs
    exact .dropped reply e.stack he (fun r next rest => hs r next rest) rfl a

theorem Sound.retry_inner (h : e.Sound) (hs : e.stack = .attempt w :: below) (m : Move) :
    Inner e m (({ e with stack := below } : Engine).retry w) := by
  have hpop : e.stack = [Task.attempt w] ++ below := hs
  have hrest := (h.pop hpop).toStored
  obtain ⟨⟨⟨hk, old, hc, -⟩, hq, watching, left, hp⟩, -⟩ :=
    h.tasks (.attempt w) (by rw [hs]; exact List.mem_cons_self)
  obtain ⟨router, hr⟩ := router_of_known h.toStored hk
  unfold retry
  rw [hp]
  cases left with
  | zero => exact .exhausted w below hs rfl (hrest.alike_push _).restacked
  | succ left =>
    obtain ⟨begun, hstack⟩ := hrest.launch_spec hr hc hq
      [.watch { w with patience := .retrying watching left }]
    exact .retried w watching left router old below hs hstack begun.restacked

theorem Sound.settle_inner (h : e.Sound) (hs : e.stack = t :: below)
    (ht : t = .claimed w ∨ ∃ deadline, t = .await w deadline)
    (hsettle : ({ e with stack := below } : Engine).settle? w = some e') (m : Move) :
    Inner e m e' := by
  have hpop : e.stack = [t] ++ below := hs
  have hrest := (h.pop hpop).toStored
  obtain ⟨hsuits, hnamed⟩ := h.tasks t (by rw [hs]; exact List.mem_cons_self)
  have hattends : e.Attends w ∧ w.command.index < e.commands.length := by
    rcases ht with rfl | ⟨deadline, rfl⟩ <;>
      exact ⟨hsuits, hnamed _ List.mem_cons_self⟩
  obtain ⟨command, hc, a, ⟨reply, hstack, hreply⟩ | ⟨hstack, hq, watching, left, hp, hn⟩⟩ :=
    hrest.settle?_spec hsettle
  · refine .settled w t _ command below hs ht hstack hc (.inl ⟨reply, rfl, ?_⟩) a.restacked
    rcases hreply with ⟨hl, -⟩ | hend
    · exact .inl hl
    · exact .inr hend
  · refine .settled w t _ command below hs ht hstack hc (.inr ⟨rfl, ?_, watching, hn⟩)
      a.restacked
    have x := a.restacked.extends
    refine ⟨⟨hattends.1.mono x, fun hq' => hq ?_, watching, left, hp⟩, fun c hc => ?_⟩
    · obtain ⟨r, hm⟩ := hq'
      exact ⟨r, a.members r ▸ hm⟩
    · rw [List.mem_singleton.1 hc]
      exact Nat.lt_of_lt_of_le hattends.2 x.length_le

/-- Chores take the place of what was on top, and nothing is stored anew. -/
theorem quiet_inner (m : Move) (gone tasks : List Task) (hs : e.stack = gone ++ below)
    (hs' : e'.stack = tasks ++ below) (hgone : ∀ t ∈ gone, t.isQuiet = true)
    (htasks : ∀ t ∈ tasks, t.isQuiet = true ∧ t.commands = []) (a : e.Alike e') :
    Inner e m e' := by
  refine .quiet gone tasks below hs hs' hgone (fun t ht => (htasks t ht).1)
    (fun t ht => fits_of_quiet (htasks t ht).1 ?_) a
  rw [(htasks t ht).2]
  simp

theorem Sound.ask_inner (h : e.Sound) {request : Request} {next : Reply → Program Request Answer}
    (hs : e.stack = .perform r (.ask request next) :: below) :
    Inner e .proceed
      ((({ e with stack := below } : Engine).push [.resume r next]).meet r request) := by
  have hpop : e.stack = [Task.perform r (.ask request next)] ++ below := hs
  have hrest := (h.pop hpop).toStored
  have hpush := hrest.of_alike (hrest.alike_push [.resume r next])
  by_cases hu : request = .unlink
  · subst hu
    obtain ⟨hk, -⟩ :=
      h.tasks (.perform r (.ask .unlink next)) (by rw [hs]; exact List.mem_cons_self)
    obtain ⟨router, hr⟩ := router_of_known h.toStored hk
    obtain ⟨⟨-, hnone⟩ | parted, hstack⟩ := hpush.unlink_spec r
    · have hr' : e.router? r = none := hnone
      rw [hr] at hr'
      cases hr'
    · exact .unlinked r next below hs hstack parted.restacked.restacked rfl
  · obtain ⟨a, t, tasks, hstack, hquiet, asked⟩ := hpush.meet_spec r request hu
    refine .asked r request next t tasks below hs hstack (fun t ht => (hquiet t ht).1)
      (fun t ht => fits_of_quiet (hquiet t ht).1 ?_) asked.restacked.restacked
      a.restacked.restacked
    rw [(hquiet t ht).2]
    simp

theorem Sound.drain_inner (h : e.Sound) (hs : e.stack = .drain r :: below) (m : Move) :
    Inner e m (({ e with stack := below } : Engine).drain r) := by
  have hpop : e.stack = [Task.drain r] ++ below := hs
  have hrest := (h.pop hpop).toStored
  obtain ⟨a, hstack | ⟨c, hstack, hslot⟩⟩ := hrest.drain_spec r
  · exact quiet_inner m [.drain r] [] hs hstack (by simp [Task.isQuiet]) (by simp) a.restacked
  · refine .quiet [.drain r] [.offer r c] below hs hstack (by simp [Task.isQuiet])
      (by simp [Task.isQuiet]) (fun t ht => ?_) a.restacked
    rw [List.mem_singleton.1 ht]
    refine fits_of_quiet rfl fun c' hc' => ?_
    rw [List.mem_singleton.1 hc']
    exact (hrest.of_alike a).lt_of_queued ⟨r, Queue.mem_members.2 (.inl hslot)⟩

theorem Sound.tour_inner (h : e.Sound) {ids : List NodeId}
    (hs : e.stack = .drainEach ids :: below) (m : Move) :
    Inner e m (({ e with stack := below } : Engine).drainFirst ids) := by
  cases ids with
  | nil =>
    exact quiet_inner m [.drainEach []] [] hs rfl (by simp [Task.isQuiet]) (by simp)
      (h.alike_of_eq rfl rfl rfl)
  | cons id rest =>
    have htasks : ∀ t ∈ (e.topology.tree.get? id).toList.map Task.drain ++ [Task.drainEach rest],
        t.isQuiet = true ∧ t.commands = [] := by
      intro t ht
      rcases List.mem_append.1 ht with ht | ht
      · obtain ⟨r, -, rfl⟩ := List.mem_map.1 ht
        exact ⟨rfl, rfl⟩
      · rw [List.mem_singleton.1 ht]
        exact ⟨rfl, rfl⟩
    exact quiet_inner m [.drainEach (id :: rest)] _ hs rfl (by simp [Task.isQuiet]) htasks
      (h.alike_of_eq rfl rfl rfl)

theorem Sound.expire_inner (h : e.Sound) (hs : e.stack = .expire r c :: below)
    (f : Statistics → Statistics) (m : Move) :
    Inner e m (((({ e with stack := below } : Engine).count r f).push [.hold [r] [c]]).finish c
      .expired) := by
  have hpop : e.stack = [Task.expire r c] ++ below := hs
  obtain ⟨hsuits, hnamed⟩ := h.tasks (.expire r c) (by rw [hs]; exact List.mem_cons_self)
  obtain ⟨old, hc⟩ := Option.isSome_iff_exists.1
    (Commands.get?_isSome_iff.2 (hnamed c List.mem_cons_self))
  obtain ⟨changed, hstack⟩ := (h.pop hpop).toStored.expired_spec (r := r) hc hsuits f
  have hlt := Commands.lt_of_get? changed.after
  have chores : ∀ t ∈ [Task.hold [r] [c]], t ∈ [.drain r, .kick, .hold [r] [c]] := by simp
  exact .expired r c old [.hold [r] [c]] below hs hstack
    (fun t ht => (fits_of_ended hlt (chores t ht)).1)
    (fun t ht => (fits_of_ended hlt (chores t ht)).2) changed.restacked

theorem Sound.begin_inner (h : e.Sound) {style : Style}
    (hs : e.stack = .allocate r command style :: below) (m : Move) :
    Inner e m (({ e with stack := below } : Engine).begin r command style) := by
  have hpop : e.stack = [Task.allocate r command style] ++ below := hs
  have hrest := (h.pop hpop).toStored
  obtain ⟨⟨hk, -, -⟩, -⟩ :=
    h.tasks (.allocate r command style) (by rw [hs]; exact List.mem_cons_self)
  obtain ⟨router, hr⟩ := router_of_known h.toStored hk
  cases style with
  | waiting watching =>
    exact .framed r command watching below hs rfl (hrest.add_spec command).onto.restacked
  | callback tag =>
    have added := hrest.add_spec { command with listener := .callback tag }
    obtain ⟨begun, hstack⟩ := (hrest.of_added added).launch_spec hr added.command_new
      (hrest.not_queued_next added) [.reply (.ok [])]
    exact .issued r command (.callback tag) _ _ router below hs hstack (.callback tag)
      added.restacked begun
  | future =>
    have added := hrest.add_spec { command with listener := .future none }
    obtain ⟨begun, hstack⟩ := (hrest.of_added added).launch_spec hr added.command_new
      (hrest.not_queued_next added) [.watch ⟨r, ⟨e.commands.length⟩, .future⟩]
    exact .issued r command .future _ _ router below hs hstack .future added.restacked begun

theorem Sound.offer_inner (h : e.Sound) (hs : e.stack = .offer r c :: below)
    (answer : Except TransportFault Unit) (m : Move) :
    Inner e m (({ e with stack := below } : Engine).answerOffer r c answer) := by
  have hpop : e.stack = [Task.offer r c] ++ below := hs
  have hrest := (h.pop hpop).toStored
  have again {e'' : Engine} (hstack : e''.stack = below ∨ e''.stack = .drain r :: below)
      (a : ({ e with stack := below } : Engine).Alike e'') : Inner e m e'' := by
    rcases hstack with hstack | hstack
    · exact quiet_inner m [.offer r c] [] hs hstack (by simp [Task.isQuiet]) (by simp) a.restacked
    · exact quiet_inner m [.offer r c] [.drain r] hs hstack (by simp [Task.isQuiet])
        (by simp [Task.isQuiet, Task.commands]) a.restacked
  by_cases kept : answer = .ok () ∨ answer = .error .busy
  · obtain ⟨a, hstack⟩ := hrest.answerOffer_kept r c kept
    exact again hstack a
  · obtain ⟨fault, rfl, hf⟩ : ∃ fault, answer = .error fault ∧ fault ≠ .busy := by
      cases answer with
      | ok done => exact absurd (.inl rfl) kept
      | error fault => exact ⟨fault, rfl, fun hf => kept (.inr (by rw [hf]))⟩
    obtain ⟨a, hstack⟩ | ⟨old, hslot, changed, hstack⟩ := hrest.answerOffer_refused r c hf
    · exact again hstack a
    · have hlt := Commands.lt_of_get? changed.after
      have chores : ∀ t ∈ [Task.hold [r] [c], .drain r], t ∈ [.drain r, .kick, .hold [r] [c]] := by
        simp
      exact .refused r c old fault [.hold [r] [c], .drain r] below hs hstack
        (fun t ht => (fits_of_ended hlt (chores t ht)).1)
        (fun t ht => (fits_of_ended hlt (chores t ht)).2) hslot changed.restacked

theorem Sound.register_inner (h : e.Sound) (hs : e.stack = .register :: below) (m : Move) :
    Inner e m ({ e with stack := below } : Engine).linkRoot := by
  have hpop : e.stack = [Task.register] ++ below := hs
  obtain ⟨linked, joined, ⟨hl, failure, hstack⟩ | ⟨hl, settings, hstack⟩⟩ :=
    (h.pop hpop).toStored.linkRoot_spec
  · exact .rooted linked _ below hs hstack joined.restacked (.inl ⟨hl, failure, rfl⟩)
  · exact .rooted linked _ below hs hstack joined.restacked (.inr ⟨hl, settings, rfl⟩)

theorem Sound.withdraw_inner (h : e.Sound) {deadline : Nat}
    (hs : e.stack = .await w deadline :: below) (m : Move) :
    Inner e m (({ e with stack := below } : Engine).withdraw w) := by
  have hpop : e.stack = [Task.await w deadline] ++ below := hs
  have hrest := (h.pop hpop).toStored
  obtain ⟨hattends, hnamed⟩ :=
    h.tasks (.await w deadline) (by rw [hs]; exact List.mem_cons_self)
  obtain ⟨router, hr⟩ := router_of_known h.toStored hattends.1
  rcases hrest.withdraw_spec hr with
    ⟨a, hstack⟩ | ⟨mid, old, expired, changed, hmem, forced, hstack⟩
  · exact .unclaimed w deadline below hs hstack a.restacked
  · have x := (changed.extends rfl fun _ => id).trans forced.extends
    have hlt : w.command.index <
        (({ e with stack := below } : Engine).withdraw w).commands.length :=
      Nat.lt_of_lt_of_le (hnamed _ List.mem_cons_self) x.length_le
    have fits : ∀ t ∈ [Task.drain w.router, .kick, .hold [w.router] [w.command]],
        t.isQuiet = true ∧ (({ e with stack := below } : Engine).withdraw w).Fits t :=
      fun t ht => fits_of_ended hlt ht
    cases hp : w.patience with
    | retrying watching left =>
      have hafter : afterTimeout w = [.attempt w] := by
        unfold afterTimeout
        rw [hp]
      rw [hafter] at hstack
      refine .withdrawn w deadline mid old expired (.attempt w) [.drain w.router, .kick] below
        hs (hstack.trans (by simp)) (fun t ht => (fits t ?_).1) (fun t ht => (fits t ?_).2)
        (.inr ⟨rfl, watching, left, hp⟩) hmem changed.restacked forced <;>
          simp only [List.mem_cons, List.not_mem_nil, or_false] at ht ⊢ <;>
            rcases ht with rfl | rfl <;> simp
    | future =>
      have hafter : afterTimeout w =
          [.hold [w.router] [w.command], .reply (.error .timeout)] := by
        unfold afterTimeout
        rw [hp]
      rw [hafter] at hstack
      exact .withdrawn w deadline mid old expired (.reply (.error .timeout))
        [.drain w.router, .kick, .hold [w.router] [w.command]] below hs
        (hstack.trans (by simp)) (fun t ht => (fits t ht).1) (fun t ht => (fits t ht).2)
        (.inl rfl) hmem changed.restacked forced

theorem slot_of_slotOf? (h : e.slotOf? r = some (c, command)) : (e.queue r).slot = some c := by
  obtain ⟨router, hr, hs, -⟩ := slotOf?_eq_some h
  rw [queue_of_router? hr, hs]

/-- The chores that the end of an attempt leaves, above an arrival that ends it. -/
theorem fits_of_ended_handled (hc : c.index < e.commands.length)
    (ht : t ∈ [Task.drain r, Task.kick, Task.hold [r] [c]] ++ [Task.handled]) :
    t.isQuiet = true ∧ e.Fits t := by
  rcases List.mem_append.1 ht with ht | ht
  · exact fits_of_ended hc ht
  · rw [List.mem_singleton.1 ht]
    exact ⟨rfl, fits_of_quiet rfl (by simp [Task.commands])⟩

/-- A signal for the attempt in a slot, once the arrival stands on the stack. -/
theorem Sound.signal_inner (h : e.Sound) {m : Move} {signal : Signal}
    {words : Option (List UInt32)} (hs : e.slotOf? r = some (c, old))
    (signalled : Signalled e r old m signal words) :
    Inner e m ((e.push [.handled]).signal r c old.generation signal words) := by
  have hpush := h.toStored.of_alike (h.alike_push [.handled])
  have hs' : (e.push [.handled]).slotOf? r = some (c, old) := hs
  rcases hpush.signal_spec hs' signal words with
    ⟨hdone, changed, hstack⟩ | ⟨hdone, changed, hstack⟩
  · exact .noted r c old signal words hstack (slot_of_slotOf? hs) signalled hdone changed.restacked
  · have hlt := Commands.lt_of_get? changed.after
    refine .completed r c old signal words
      ([Task.drain r, Task.kick, Task.hold [r] [c]] ++ [Task.handled]) (hstack.trans ?_)
      (fun t ht => (fits_of_ended_handled hlt ht).1)
      (fun t ht => (fits_of_ended_handled hlt ht).2) (slot_of_slotOf? hs) signalled hdone
      changed.restacked
    simp only [List.append_assoc]
    rfl

/-- An event for the attempt in a slot, once the arrival stands on the stack. -/
theorem Sound.interrupt_inner (h : e.Sound) {m : Move} (hs : e.slotOf? r = some (c, old))
    (event : Event) :
    Inner e m (let (claimed, commands) := e.commands.change c false (·.markAll old.generation)
      let marked := { e.push [.handled] with commands := commands }
      if claimed then marked.complete r c old.generation (.interrupted event) else marked) := by
  have hpush := h.toStored.of_alike (h.alike_push [.handled])
  obtain ⟨hforced, changed, hstack⟩ := hpush.interrupt_spec hs event
  have hlt := Commands.lt_of_get? changed.after
  have hforced : e.commands.change c false (·.markAll old.generation) =
      (true, e.commands.set c.index old.forced) := hforced
  simp only [hforced, if_true]
  refine .interrupted r c old event ([Task.drain r, Task.kick, Task.hold [r] [c]] ++ [Task.handled])
    (hstack.trans ?_) (fun t ht => (fits_of_ended_handled hlt ht).1)
    (fun t ht => (fits_of_ended_handled hlt ht).2) (slot_of_slotOf? hs) changed.restacked
  simp only [List.append_assoc]
  rfl

/-- What an arrival does. -/
theorem Sound.received_inner (h : e.Sound) (arrival : Arrival) :
    Inner e (.receive arrival) (e.receive arrival) := by
  have hpush := h.toStored.of_alike (h.alike_push [.handled])
  have quiet {e'' : Engine} (tasks : List Task) (he : e''.stack = tasks ++ e.stack)
      (ht : ∀ t ∈ tasks, t.isQuiet = true ∧ t.commands = []) (a : e.Alike e'') :
      Inner e (.receive arrival) e'' :=
    quiet_inner _ [] tasks rfl he (by simp) ht a
  have heard := heard_receive e arrival
  generalize e.receive arrival = e'' at heard ⊢
  cases heard with
  | ignored => exact quiet [.handled] rfl (by simp [Task.isQuiet, Task.commands]) (h.alike_push _)
  | discarded r =>
    exact quiet [.handled] rfl (by simp [Task.isQuiet, Task.commands])
      (hpush.discard_spec r).1.restacked
  | sent hs => exact h.signal_inner hs (.sent _)
  | answered hn hh hresp hl hs hseq => exact h.signal_inner hs (.answered hn hh hresp hl hseq)
  | interrupted event hs => exact h.interrupt_inner hs event
  | plugged event =>
    exact quiet ([Task.acknowledge event, Task.announce event] ++ [Task.handled]) rfl
      (by simp [Task.isQuiet, Task.commands]) (h.alike_of_eq rfl rfl rfl)

/-- The calls a caller can make: on routers it can have a reference to. The one that starts the
topology has been made before. -/
def Allows (e : Engine) : Call → Prop
  | .attachRoot _ => False
  | .attachChild parent _ => e.Known parent
  | .detach r => e.Known r
  | .resume r => e.Known r
  | .operate r _ => e.Known r

theorem Sound.call_called (h : e.Sound) {call : Call} (ha : e.Allows call) :
    Called e call (e.call call) := by
  have hs := h.toStored
  cases call with
  | attachRoot settings => exact ha.elim
  | attachChild parent route =>
    rcases hs.attachChild_spec parent route with ⟨a, failure, hstack⟩ | ⟨linked, joined, hlinked⟩
    · exact .answered _ (by simp) hstack a
    · rcases hlinked with ⟨hl, failure, hstack⟩ | ⟨hl, settings, hstack⟩
      · exact .attached parent route linked _ hstack joined (.inl ⟨hl, failure, rfl⟩)
      · exact .attached parent route linked _ hstack joined (.inr ⟨hl, settings, rfl⟩)
  | detach r =>
    obtain ⟨expired, mid, rs, quiet, result, forced, cut, hempty, hstack, hquiet⟩ :=
      hs.detach_spec r
    refine .detached r expired mid rs quiet result hstack (fun t ht => ?_) (fun t ht => ?_) forced
      cut hempty
    · rcases hquiet t ht with ⟨r', rfl⟩ | rfl | rfl <;> rfl
    · rcases hquiet t ht with ⟨r', rfl⟩ | rfl | rfl
      · exact fits_of_quiet rfl (by simp [Task.commands])
      · exact fits_of_quiet rfl (by simp [Task.commands])
      · refine fits_of_quiet rfl fun c hc => ?_
        obtain ⟨p, hp, rfl⟩ := List.mem_map.1 hc
        exact Nat.lt_of_lt_of_le (forced.named p hp) (cut.extends (forced.stored hs)).length_le
  | resume r =>
    show Called e (.resume r) (e.resume r)
    unfold Engine.resume
    split
    · exact .answered _ (by simp) rfl (hs.alike_push _)
    · split
      · exact .answered _ (by simp) rfl (hs.alike_push _)
      · have a := hs.alike_updateRouter r (f := fun router => { router with suspended := false })
          (fun _ => rfl) (fun _ => rfl) fun _ => rfl
        exact .answered _ (by simp) rfl (a.trans ((hs.of_alike a).alike_push _))
  | operate r operation =>
    show Called e (.operate r operation) (e.operate r operation)
    unfold Engine.operate
    split
    · exact .answered _ (fun _ _ _ => ⟨_, rfl⟩) rfl (hs.alike_push _)
    · rename_i router hr
      exact .operated r operation router _ hr rfl (hs.alike_push _)

/-- A task of which nothing is left. -/
theorem Sound.drop_inner (h : e.Sound) {m : Move} (hs : e.stack = t :: below) (hd : Drops m t) :
    Inner e m { e with stack := below } := by
  have quiet (hq : t.isQuiet = true) : Inner e m { e with stack := below } :=
    quiet_inner m [t] [] hs rfl (fun t' ht => by rw [List.mem_singleton.1 ht, hq]) (by simp)
      (h.alike_of_eq rfl rfl rfl)
  cases hd with
  | returned tag reply => exact .returned tag reply below hs rfl rfl (h.alike_of_eq rfl rfl rfl)
  | _ => exact quiet rfl

theorem Inner.moved {m : Move} (k : Inner e m e') (hm : m.isInner = true) : Moved e m e' := by
  refine .inner (fun call hcall => ?_) (fun hcollect => ?_) k
  · rw [hcall] at hm
    cases hm
  · rw [hcollect] at hm
    cases hm

/-- **Every move of a sound engine is one of those listed.** -/
theorem Sound.moved {m : Move} (h : e.Sound) (ha : ∀ call, m = .call call → e.Allows call)
    (hm : e.move? m = some e') : Moved e m e' := by
  have alike (below : List Task) : e.Alike { e with stack := below } := h.alike_of_eq rfl rfl rfl
  have pushed {t : Task} {below : List Task} (tasks : List Task) (hs : e.stack = t :: below) :
      e.Alike (({ e with stack := below } : Engine).push tasks) := by
    have hpop : e.stack = [t] ++ below := hs
    exact ((h.pop hpop).toStored.alike_push tasks).restacked
  cases acts_of_move? hm with
  | @dropped _ t below hs hd =>
    refine .inner (fun call hcall => ?_) (fun _ result rest heq => ?_) (h.drop_inner hs hd)
    · rw [hcall] at hd
      cases hd
    · rw [hs] at heq
      cases heq
      cases hd
  | concluded hs => exact (Inner.finished _ _ _ hs rfl (pushed _ hs)).moved rfl
  | asked hs => exact (h.ask_inner hs).moved rfl
  | @replied reply below hs =>
    have hpop : e.stack = [Task.reply reply] ++ below := hs
    exact (passOn_spec (h.pop hpop).toStored reply _ hs (alike _)).moved rfl
  | retried hs => exact (h.retry_inner hs _).moved rfl
  | watched hs => exact (Inner.watched _ _ _ hs rfl (pushed _ hs)).moved rfl
  | settled hs ht hsettle => exact (h.settle_inner hs ht hsettle _).moved rfl
  | drained hs => exact (h.drain_inner hs _).moved rfl
  | @kicked below hs =>
    refine Inner.moved ?_ rfl
    exact quiet_inner _ [.kick] [.drainEach e.topology.deferred] hs rfl (by simp [Task.isQuiet])
      (by simp [Task.isQuiet, Task.commands]) (h.alike_of_eq rfl rfl rfl)
  | toured hs => exact (h.tour_inner hs _).moved rfl
  | expired hs => exact (h.expire_inner hs _ _).moved rfl
  | @announced event below hs =>
    refine Inner.moved ?_ rfl
    exact quiet_inner _ [.announce event] [] hs rfl (by simp [Task.isQuiet]) (by simp)
      (h.alike_of_eq rfl rfl rfl)
  | framed hs => exact (h.begin_inner hs _).moved rfl
  | unframed hs => exact (Inner.unframed _ _ _ _ _ hs rfl (pushed _ hs)).moved rfl
  | answered hs => exact (h.offer_inner hs _ _).moved rfl
  | registered hs => exact (h.register_inner hs _).moved rfl
  | unregistered hs => exact (Inner.unregistered _ _ hs rfl (pushed _ hs)).moved rfl
  | @acknowledging event below hs =>
    refine Inner.moved ?_ rfl
    exact quiet_inner _ [.acknowledge event] [.offerAcknowledgment event] hs rfl
      (by simp [Task.isQuiet]) (by simp [Task.isQuiet, Task.commands])
      (h.alike_of_eq rfl rfl rfl)
  | @acknowledged event answer below hs =>
    refine Inner.moved ?_ rfl
    exact quiet_inner _ [.offerAcknowledgment event] [] hs rfl (by simp [Task.isQuiet]) (by simp)
      (h.alike_of_eq rfl rfl rfl)
  | gaveUp hs => exact (h.withdraw_inner hs _).moved rfl
  | collected hs => exact .collected _ _ hs rfl (alike _)
  | called call => exact .called (h.call_called (ha call rfl))
  | received arrival => exact (h.received_inner arrival).moved rfl
  | elapsed ms =>
    refine Inner.moved ?_ rfl
    exact quiet_inner _ [] [] rfl rfl (by simp) (by simp) (h.alike_of_eq rfl rfl rfl)

end Engine

end RouterFabric
