import RouterFabric.Proofs.Engine.Board
import RouterFabric.Proofs.Queue.Orderly
import RouterFabric.Proofs.Store
import RouterFabric.Proofs.Tree.Tables

/-!
# What an engine refers to

A router is in use as long as the tree has it or a task works on it, and a command as long as it is
in the queue of such a router or a task works on it. Every section of an engine gets its routers
and commands from its task, from the tree and from queues, so it refers to none that were not in
use, unless it has made them itself.

* `Holdings`, `Engine.Within` : routers and commands that an engine may refer to
* `Within.launch`, `Within.complete`, … : no section refers to others
* `Acts.within` : neither does a move, but for the router or the command that it adds
-/

namespace RouterFabric

/-- Routers and commands, and how many commands have been made and how many acknowledgments are on
offer. -/
structure Holdings where
  routers : RouterRef → Prop
  commands : CommandRef → Prop
  made : Nat
  offered : Nat

/-- The routers that a call is about. -/
def Call.routers : Call → List RouterRef
  | .attachRoot _ => []
  | .attachChild r _ | .detach r | .resume r | .operate r _ => [r]

namespace Engine

/-- The commands that a move makes, each with its frame. -/
def makes (e : Engine) (m : Move) : List CommandRef :=
  match m, e.stack with
  | .grant (.ok ()), .allocate _ _ _ :: _ => [⟨e.commands.length⟩]
  | _, _ => []

/-- The number of frames that a move takes for acknowledgments. -/
def acknowledges (e : Engine) (m : Move) : Nat :=
  match m, e.stack with
  | .grant (.ok ()), .acknowledge _ :: _ => 1
  | _, _ => 0

/-- The number of frames of acknowledgments that are done with in a move. -/
def acknowledged (e : Engine) (m : Move) : Nat :=
  match m, e.stack with
  | .grant _, .offerAcknowledgment _ :: _ => 1
  | _, _ => 0

end Engine

/-- What there is after a move. -/
def Holdings.next (s : Holdings) (e : Engine) (m : Move) : Holdings :=
  { s with
    made := s.made + (e.makes m).length
    offered := s.offered + e.acknowledges m - e.acknowledged m }

/-- If the answer of the program is a router, it is this one. -/
def Program.Yields {ρ : Type} (r : RouterRef) : Program ρ Answer → Prop
  | .done result => ∀ r', result = .ok (.router r') → r' = r
  | .ask _ next => ∀ reply, (next reply).Yields r

/-- The only router that the program of the task answers is its own. -/
def Task.Yields : Task → Prop
  | .perform r program => program.Yields r
  | .resume r next => ∀ reply, (next reply).Yields r
  | _ => True

/-- The task refers to such routers and commands only. -/
def Holdings.Admits (s : Holdings) (t : Task) : Prop :=
  (∀ r ∈ t.routers, s.routers r) ∧ (∀ c ∈ t.commands, s.commands c) ∧ t.Yields

/-- Such a task that has no frame of its own. -/
def Holdings.Accepts (s : Holdings) (t : Task) : Prop :=
  s.Admits t ∧ t.hasFrame = false

theorem Program.yields_bind {ρ α : Type} {r : RouterRef} (p : Program ρ α)
    {f : α → Program ρ Answer} (hf : ∀ a, (f a).Yields r) : (p >>= f).Yields r := by
  induction p with
  | done result =>
    cases result with
    | ok a => exact hf a
    | error failure => exact nofun
  | ask request next ih => exact ih

/-- No operation answers a router. -/
theorem Operation.yields_program (settings : Settings) (router : Router) (operation : Operation)
    (r : RouterRef) : (operation.program settings router).Yields r := by
  cases operation with
  | transfer t style =>
    refine Program.yields_bind _ fun words r' heq => ?_
    unfold Operation.transferAnswer at heq
    split at heq <;> cases heq
  | suspend | findCapability target | findAdapterCapability adapter id | linkControllerUuid =>
    exact Program.yields_bind _ fun _ => nofun

namespace Engine

attribute [local simp] Holdings.Accepts Holdings.Admits Task.routers Task.commands Task.Yields
  Task.hasFrame

/-- The engine refers to such routers and commands only. -/
structure Within (s : Holdings) (e : Engine) : Prop where
  attached : ∀ r ∈ e.topology.routers, s.routers r
  tasks : ∀ t ∈ e.stack, s.Admits t
  queued : ∀ r, s.routers r → ∀ c ∈ (e.queue r).members, s.commands c
  made : e.commands.length = s.made
  offered : e.stack.countP Task.hasFrame = s.offered

variable {s : Holdings} {e e' : Engine} {r : RouterRef} {router : Router} {c : CommandRef}
  {command : Command} {w : Waiter} {t : Task} {tasks below : List Task} {ending : Ending}

/-! ## Parts of sections -/

theorem Within.push (h : e.Within s) (ht : ∀ t ∈ tasks, s.Accepts t) : (e.push tasks).Within s where
  attached := h.attached
  tasks t hmem := by
    rcases List.mem_append.1 hmem with hnew | hold
    · exact (ht t hnew).1
    · exact h.tasks t hold
  queued := h.queued
  made := h.made
  offered := by
    have hnone : tasks.countP Task.hasFrame = 0 := by
      rw [List.countP_eq_zero]
      intro t hnew
      rw [(ht t hnew).2]
      exact Bool.false_ne_true
    show (tasks ++ e.stack).countP Task.hasFrame = _
    rw [List.countP_append, hnone, Nat.zero_add, h.offered]

/-- A task without a frame of its own may go. -/
theorem Within.pop (h : e.Within s) (hs : e.stack = t :: below) (ht : t.hasFrame = false) :
    ({ e with stack := below } : Engine).Within s where
  attached := h.attached
  tasks t' hmem := h.tasks t' (hs ▸ List.mem_cons_of_mem t hmem)
  queued := h.queued
  made := h.made
  offered := by
    rw [← h.offered, hs, List.countP_cons_of_neg (by rw [ht]; exact Bool.false_ne_true)]

/-- Routers may change as long as their queues do not grow. -/
theorem Within.updateRouter (h : e.Within s) (r : RouterRef) {f : Router → Router}
    (hf : ∀ router, (f router).queue = router.queue) : (e.updateRouter r f).Within s where
  attached := h.attached
  tasks := h.tasks
  queued r' hr' := by
    rw [queue_updateRouter e r r' hf]
    exact h.queued r' hr'
  made := h.made
  offered := h.offered

theorem Within.count (h : e.Within s) (r : RouterRef) (f : Statistics → Statistics) :
    (e.count r f).Within s :=
  h.updateRouter r fun _ => rfl

theorem Within.setLine (h : e.Within s) (hr : e.router? r = some router) (line : Queue × Commands)
    (hq : s.routers r → ∀ c ∈ line.1.members, s.commands c)
    (hlength : line.2.length = e.commands.length) : (e.setLine r line).Within s where
  attached := h.attached
  tasks := h.tasks
  queued r' hr' := by
    rw [queue_setLine hr]
    split
    · rename_i heq
      exact hq (heq ▸ hr')
    · exact h.queued r' hr'
  made := hlength.trans h.made
  offered := h.offered

theorem Within.setQueue (h : e.Within s) (hr : e.router? r = some router) {q : Queue}
    (hq : s.routers r → ∀ c ∈ q.members, s.commands c) : (e.setQueue r q).Within s :=
  h.setLine hr (q, e.commands) hq rfl

/-- Commands may change as long as none is added. -/
theorem Within.setCommands (h : e.Within s) {commands : Commands}
    (hlength : commands.length = e.commands.length) :
    ({ e with commands := commands } : Engine).Within s where
  attached := h.attached
  tasks := h.tasks
  queued := h.queued
  made := hlength.trans h.made
  offered := h.offered

/-- A queue with fewer members. -/
theorem Within.members (h : e.Within s) (hr : e.router? r = some router) {q : Queue}
    (hq : q.members ⊆ router.queue.members) :
    s.routers r → ∀ c ∈ q.members, s.commands c := by
  intro hrouter c hc
  apply h.queued r hrouter c
  rw [queue_of_router? hr]
  exact hq hc

theorem Within.finish (h : e.Within s) (c : CommandRef) (ending : Ending) :
    (e.finish c ending).Within s := by
  unfold Engine.finish
  split
  · exact h
  · have ended : ({ e with commands := e.commands.update c (·.finish ending) } : Engine).Within s :=
      h.setCommands (List.length_modify ..)
    simp only
    split
    · refine ended.push ?_
      simp
    · exact ended

/-! ## Attempts -/

variable {next : List Task} {m : Move} {request : Request}

theorem Within.launch (h : e.Within s) (hr : s.routers r) (hc : s.commands c)
    (hnext : ∀ t ∈ next, s.Accepts t) : (e.launch r c next).Within s := by
  unfold Engine.launch
  split
  · exact h
  · rename_i router hrouter
    have counted : (e.updateRouter r fun router =>
        { router with begun := router.begun + 1 }).Within s := h.updateRouter r fun _ => rfl
    have begun := counted.setCommands
      (List.length_modify (·.beginAttempt router.begun) e.commands c.index)
    simp only
    split
    · refine begun.push ?_
      simp
    · have hbegun : (e.updateRouter r fun router =>
          { router with begun := router.begun + 1 }).router? r =
            some { router with begun := router.begun + 1 } := by
        rw [router?_updateRouter, if_pos rfl, hrouter]
        rfl
      refine (begun.setLine hbegun _ (fun hmem c' hc' => ?_) (List.length_modify ..)).push ?_
      · rw [Queue.members_enqueue, List.mem_append, List.mem_singleton] at hc'
        rcases hc' with hold | rfl
        · exact h.members hrouter (List.Subset.refl _) hmem c' hold
        · exact hc
      · refine List.forall_mem_cons.2 ⟨?_, hnext⟩
        simp [hr]

theorem Within.complete (h : e.Within s) (hr : s.routers r) (hc : s.commands c) (generation : Nat)
    (ending : Ending) : (e.complete r c generation ending).Within s := by
  unfold Engine.complete
  split
  · exact h
  · rename_i router hrouter
    rw [Queue.complete_eq]
    split
    · exact h.count r _
    · rename_i queue hcomplete
      split at hcomplete
      · cases hcomplete
        have hfreed : router.queue.release.members ⊆ router.queue.members := by
          rw [Queue.members_release]
          exact List.subset_append_right _ _
        have freed := (h.setQueue hrouter (h.members hrouter hfreed)).count r fun stats =>
          { stats with completed := stats.completed + 1 }
        refine (freed.push ?_).finish c ending
        simp [hr, hc]
      · cases hcomplete

theorem Within.settle? (h : e.Within s) (hr : s.routers w.router) (hc : s.commands w.command)
    (hs : e.settle? w = some e') : e'.Within s := by
  have replied (reply : Reply) : ∀ t ∈ [Task.reply reply], s.Accepts t := by
    simp
  have again : ∀ t ∈ [Task.attempt w], s.Accepts t := by
    simp [hr, hc]
  unfold Engine.settle? at hs
  split at hs
  · cases hs
  · split at hs
    · split at hs
      · cases hs
        exact h.push (replied _)
      · cases hs
    · split at hs
      · simp only at hs
        split at hs <;> cases hs
        · exact (h.setCommands (List.length_set ..)).push again
        · exact (h.setCommands (List.length_set ..)).push again
        · exact (h.setCommands (List.length_set ..)).push (replied _)
      · cases hs

theorem Within.retry (h : e.Within s) (hr : s.routers w.router) (hc : s.commands w.command) :
    (e.retry w).Within s := by
  unfold Engine.retry
  split
  · refine h.push ?_
    simp
  · refine h.launch hr hc ?_
    simp [hr, hc]
  · refine h.launch hr hc ?_
    simp [hr, hc]

/-- What an expiry leaves in a queue was there before, and so was what it takes out. -/
theorem members_expire {q q' : Queue} {cs cs' : Commands} {limit now : Nat}
    {expired : Option CommandRef} (hx : q.expire cs limit now = (expired, q', cs')) :
    q'.members ⊆ q.members ∧ cs'.length = cs.length ∧ ∀ c ∈ expired, c ∈ q.members := by
  rcases Queue.expire_cases q cs limit now with hnone | ⟨c, command, hslot, -, -, -, hsome⟩
  · rw [hnone] at hx
    cases hx
    exact ⟨List.Subset.refl _, rfl, nofun⟩
  · rw [hsome] at hx
    cases hx
    refine ⟨?_, List.length_set .., ?_⟩
    · rw [Queue.members_release]
      exact List.subset_append_right _ _
    · rintro _ ⟨⟩
      exact Queue.mem_members.2 (.inl hslot)

theorem Within.withdraw (h : e.Within s) (hr : s.routers w.router) (hc : s.commands w.command) :
    (e.withdraw w).Within s := by
  unfold Engine.withdraw
  split
  · exact h
  · rename_i router hrouter
    have habandoned := Queue.members_abandon router.queue w.command
    split
    · refine h.push ?_
      simp [hr, hc]
    · rename_i queue habandon
      rw [habandon] at habandoned
      have hqueue : queue.members ⊆ router.queue.members := by
        show (true, queue).2.members ⊆ _
        rw [habandoned]
        exact List.erase_subset
      simp only
      generalize hexpire : queue.expire e.commands e.topology.settings.timeoutMs e.now = x
      obtain ⟨expired, line⟩ := x
      obtain ⟨hleft, hlength, hexpired⟩ := members_expire hexpire
      have freed := (h.setLine hrouter _ (h.members hrouter (List.Subset.trans hleft hqueue))
        hlength).count w.router fun stats => { stats with timeouts := stats.timeouts + 1 }
      refine freed.push fun t ht => ?_
      have rest : ∀ t ∈ [Task.drain w.router, Task.kick] ++ afterTimeout w, s.Accepts t := by
        unfold afterTimeout
        split <;> simp [hr, hc]
      rw [List.append_assoc] at ht
      rcases List.mem_append.1 ht with ht | ht
      · obtain ⟨c, hmem, rfl⟩ := List.mem_map.1 ht
        have hin := h.members hrouter hqueue hr c (hexpired c (Option.mem_toList.1 hmem))
        simp [hr, hin]
      · exact rest t ht

/-! ## Draining -/

theorem Within.drain (h : e.Within s) (hr : s.routers r) : (e.drain r).Within s := by
  rw [Engine.drain_eq]
  split
  · exact h
  · rename_i router hrouter
    split
    · exact h
    · rename_i c line hbegin
      obtain ⟨-, rest, hpending, rfl⟩ := Queue.beginDrain_eq_some hbegin
      have htaken : (Queue.mk rest (some c) .draining).members ⊆ router.queue.members := by
        rw [Queue.members_of_slot rfl]
        unfold Queue.members
        rw [hpending]
        exact List.subset_append_right _ _
      have hin := h.members hrouter htaken hr c List.mem_cons_self
      refine (h.setLine hrouter _ (h.members hrouter htaken) (List.length_modify ..)).push ?_
      simp [hr, hin]

theorem Within.answerOffer (h : e.Within s) (hr : s.routers r) (hc : s.commands c)
    (answer : Except TransportFault Unit) : (e.answerOffer r c answer).Within s := by
  have drained : ∀ t ∈ [Task.drain r], s.Accepts t := by
    simp [hr]
  rw [Engine.answerOffer_eq]
  split
  · exact h
  · rename_i router hrouter
    split
    · refine ((h.setQueue hrouter (h.members hrouter ?_)).count r _).push drained
      rw [Queue.members_submitted]
      exact List.Subset.refl _
    · have hback := Queue.members_defer router.queue e.commands c
      have hlength : (router.queue.defer e.commands c).2.2.length = e.commands.length := by
        unfold Queue.defer
        split
        · exact List.length_modify ..
        · rfl
      generalize router.queue.defer e.commands c = x at hback hlength
      obtain ⟨_, line⟩ := x
      have hline : line.1.members ⊆ router.queue.members := by
        rw [hback]
        exact List.Subset.refl _
      have deferred := (h.setLine hrouter _ (h.members hrouter hline) hlength).count r fun stats =>
        { stats with busyDeferrals := stats.busyDeferrals + 1 }
      refine ⟨?_, deferred.tasks, deferred.queued, deferred.made, deferred.offered⟩
      have same (topology : Topology) (id : NodeId) :
          (topology.defer id).routers = topology.routers := by
        unfold Topology.defer
        split <;> rfl
      rw [same]
      exact deferred.attached
    · rw [Queue.reject_eq]
      split
      · exact h.push drained
      · rename_i queue hreject
        split at hreject
        · cases hreject
          have hfreed : router.queue.release.members ⊆ router.queue.members := by
            rw [Queue.members_release]
            exact List.subset_append_right _ _
          have freed := h.setQueue hrouter (h.members hrouter hfreed)
          have marked := freed.setCommands (Commands.length_change _ c false fun command =>
            command.markAll command.generation)
          simp only
          split
          · refine (marked.push ?_).finish c _
            simp [hr, hc]
          · exact marked.push drained
        · cases hreject

theorem Within.kick (h : e.Within s) : e.kick.Within s := by
  have taken : ({ e with topology := { e.topology with deferred := [] } } : Engine).Within s :=
    ⟨h.attached, h.tasks, h.queued, h.made, h.offered⟩
  refine taken.push ?_
  simp

/-- Whatever the tree holds is one of the routers. -/
theorem Within.of_get? (h : e.Within s) {id : NodeId} (hid : e.topology.tree.get? id = some r) :
    s.routers r :=
  h.attached r (RouterTree.mem_values_of_get? hid)

theorem Within.drainFirst (h : e.Within s) (ids : List NodeId) : (e.drainFirst ids).Within s := by
  cases ids with
  | nil => exact h
  | cons id rest =>
    refine h.push fun t ht => ?_
    rcases List.mem_append.1 ht with ht | ht
    · obtain ⟨r, hmem, rfl⟩ := List.mem_map.1 ht
      have hr := h.of_get? (Option.mem_toList.1 hmem)
      simp [hr]
    · rw [List.mem_singleton.1 ht]
      simp

/-! ## Programs -/

theorem Within.setTree (h : e.Within s) (tree : RouterTree RouterRef)
    (ht : ∀ r ∈ tree.values, s.routers r) :
    ({ e with topology := { e.topology with tree := tree } } : Engine).Within s where
  attached := ht
  tasks := h.tasks
  queued := h.queued
  made := h.made
  offered := h.offered

/-- A reply goes to a program, whatever that is. -/
theorem Within.reply (h : e.Within s) (reply : Reply) : (e.push [.reply reply]).Within s := by
  refine h.push ?_
  simp

theorem Within.issue (h : e.Within s) (hr : s.routers r) (t : Transfer) (style : Style) :
    (e.issue r t style).Within s := by
  have numbered : ({ e with
      topology := { e.topology with nextCommand := e.topology.nextCommand + 1 } } : Engine).Within
        s := ⟨h.attached, h.tasks, h.queued, h.made, h.offered⟩
  unfold Engine.issue
  split
  · exact h.reply _
  · split
    · exact h.reply _
    · split
      · exact h.reply _
      · split
        · exact h.reply _
        · simp only
          split
          · exact numbered.reply _
          · refine numbered.push ?_
            simp [hr]

theorem Within.enrol (h : e.Within s) (r : RouterRef) (identity : Identity) :
    (e.enrol r identity).Within s := by
  unfold Engine.enrol
  split
  · exact h.reply _
  · split
    · exact h.reply _
    · rename_i tree hset
      have known : (e.updateRouter r fun router =>
          { router with identity := router.identity.orElse fun _ => some identity }).Within s :=
        h.updateRouter r fun _ => rfl
      refine (known.setTree tree fun r hr => ?_).reply _
      exact h.attached r (RouterTree.values_setAdapterCount hset hr)

theorem Within.unlink (h : e.Within s) (r : RouterRef) : (e.unlink r).Within s := by
  unfold Engine.unlink
  split
  · exact h.reply _
  · rename_i router _
    have marked : (e.updateRouter r fun router => { router with detached := true }).Within s :=
      h.updateRouter r fun _ => rfl
    refine (marked.setTree _ fun r hr => ?_).reply _
    split at hr
    · rename_i hremove
      exact h.attached r (RouterTree.values_remove hremove hr)
    · exact h.attached r hr

theorem Within.meet (h : e.Within s) (hr : s.routers r) (request : Request) :
    (e.meet r request).Within s := by
  cases request with
  | transfer t style => exact h.issue hr t style
  | pause ms =>
    refine h.push ?_
    simp
  | fallAsleep =>
    have asleep : (e.updateRouter r fun router => { router with suspended := true }).Within s :=
      h.updateRouter r fun _ => rfl
    exact asleep.reply _
  | enrol identity => exact h.enrol r identity
  | unlink => exact h.unlink r

theorem Within.passOn (h : e.Within s) (reply : Reply) : (e.passOn reply).Within s := by
  unfold Engine.passOn
  split
  · rename_i r next below hs
    obtain ⟨hr, -, hnext⟩ := h.tasks _ (hs ▸ List.mem_cons_self)
    have performed : ∀ t ∈ [Task.perform r (next reply)], s.Accepts t := by
      rintro t (_ | ⟨_, ⟨⟩⟩)
      exact ⟨⟨hr, List.forall_mem_nil _, hnext reply⟩, rfl⟩
    exact (h.pop hs rfl).push performed
  · exact h

/-! ## Signals -/

theorem Within.signal (h : e.Within s) (hr : s.routers r) (hc : s.commands c) (generation : Nat)
    (signal : Signal) (words : Option (List UInt32)) :
    (e.signal r c generation signal words).Within s := by
  have marked := h.setCommands (Commands.length_change e.commands c false
    (·.mark generation signal words))
  unfold Engine.signal
  simp only
  split
  · exact (marked.setCommands (Commands.length_change _ c [] Command.takeResponse)).complete hr hc _
      _
  · exact marked

theorem Within.of_slotOf? (h : e.Within s) (hr : s.routers r)
    (hslot : e.slotOf? r = some (c, command)) : s.commands c := by
  unfold slotOf? at hslot
  simp only [Option.bind_eq_bind, Option.bind_eq_some_iff, Option.some.injEq,
    Prod.mk.injEq] at hslot
  obtain ⟨router, hrouter, c', hc', command', -, rfl, -⟩ := hslot
  exact h.members hrouter (List.Subset.refl _) hr c' (Queue.mem_members.2 (.inl hc'))

theorem Within.of_lookup (h : e.Within s) {route : Route}
    (hroute : e.topology.lookup route = .ok r) : s.routers r := by
  unfold Topology.lookup at hroute
  split at hroute
  · cases hroute
  · split at hroute
    · rename_i hid
      cases hroute
      exact h.of_get? hid
    · cases hroute

theorem Within.heard (h : e.Within s) {arrival : Arrival} (k : e.Heard arrival e') :
    e'.Within s := by
  cases k with
  | ignored => exact h
  | discarded r => exact h.count r _
  | sent hslot hlinked =>
    obtain ⟨id, hid⟩ := hlinked
    have hr := h.of_get? hid
    exact h.signal hr (h.of_slotOf? hr hslot) _ _ _
  | answered _ _ _ hroute hslot _ =>
    have hr := h.of_lookup hroute
    exact h.signal hr (h.of_slotOf? hr hslot) _ _ _
  | @interrupted _ _ _ r c command event hslot hroute =>
    have hr := h.of_lookup hroute
    have marked := h.setCommands (Commands.length_change e.commands c false
      (·.markAll command.generation))
    simp only
    split
    · exact marked.complete hr (h.of_slotOf? hr hslot) _ _
    · exact marked
  | plugged event =>
    refine h.push ?_
    simp

theorem Within.receive (h : e.Within s) (arrival : Arrival) : (e.receive arrival).Within s := by
  refine Within.heard (h.push ?_) (e.heard_receive arrival)
  simp

/-! ## Calls -/

/-- A new router has nothing in its queue. -/
theorem Within.addRouter (h : e.Within s) (id : NodeId) (route : Route) :
    (e.addRouter id route).2.Within s where
  attached := h.attached
  tasks := h.tasks
  queued r hr := by
    have same : (e.addRouter id route).2.queue r = e.queue r := by
      unfold queue router? Engine.addRouter
      simp only
      rcases Nat.lt_trichotomy r.index e.routers.length with hlt | heq | hgt
      · rw [List.getElem?_append_left hlt]
      · rw [heq, List.getElem?_concat_length, List.getElem?_eq_none (Nat.le_refl _)]
        rfl
      · rw [List.getElem?_append_right (Nat.le_of_lt hgt), List.getElem?_eq_none (Nat.le_of_lt hgt),
          List.getElem?_eq_none (Nat.sub_pos_of_lt hgt)]
    rw [same]
    exact h.queued r hr
  made := h.made
  offered := h.offered

theorem Within.fails (h : e.Within s) (failure : Failure) :
    (e.push [.answer (.error failure)]).Within s := by
  refine h.push ?_
  simp

theorem Within.discovery (h : e.Within s) (hr : s.routers r) (route : Route) :
    (e.discovery r route).Within s := by
  have hyields : (do
      Procedure.discover e.topology.settings route
      return Answer.router r : Program Request Answer).Yields r := by
    refine Program.yields_bind _ fun _ r' heq => ?_
    cases heq
    rfl
  refine h.push ?_
  simp [hr, hyields]

section

variable (hnext : s.routers ⟨e.routers.length⟩)

include hnext

theorem Within.linkRoot (h : e.Within s) : e.linkRoot.Within s := by
  have added := h.addRouter e.topology.tree.allocateId.1 Route.root
  unfold Engine.linkRoot
  simp only
  split
  · exact (added.setTree e.topology.tree.allocateId.2 h.attached).fails _
  · rename_i tree hroot
    refine (added.setTree tree fun r hr => ?_).discovery hnext _
    rcases RouterTree.mem_values_of_insertRoot hroot hr with rfl | hold
    · exact hnext
    · exact h.attached r hold

theorem Within.attachChild (h : e.Within s) (parent : RouterRef) (route : Route) :
    (e.attachChild parent route).Within s := by
  have added := h.addRouter e.topology.tree.allocateId.1 route
  unfold Engine.attachChild
  split
  · exact h.fails _
  · simp only
    split
    · exact (added.setTree e.topology.tree.allocateId.2 h.attached).fails _
    · rename_i tree hinsert
      refine (added.setTree tree fun r hr => ?_).discovery hnext _
      rcases RouterTree.mem_values_of_insert hinsert hr with rfl | hold
      · exact hnext
      · exact h.attached r hold

end

theorem Within.expireEach (h : e.Within s) {rs : List RouterRef} (hrs : ∀ r ∈ rs, s.routers r) :
    (e.expireEach rs).2.Within s ∧ ∀ p ∈ (e.expireEach rs).1, s.routers p.1 ∧ s.commands p.2 := by
  induction rs generalizing e with
  | nil => exact ⟨h, nofun⟩
  | cons r rest ih =>
    have others := fun r' hr' => hrs r' (List.mem_cons_of_mem r hr')
    unfold Engine.expireEach
    split
    · exact ih h others
    · rename_i router hrouter
      have hr := hrs r List.mem_cons_self
      generalize hexpire :
        router.queue.expire e.commands e.topology.settings.timeoutMs e.now = x
      obtain ⟨expired, line⟩ := x
      obtain ⟨hleft, hlength, hexpired⟩ := members_expire hexpire
      obtain ⟨done, named⟩ := ih (h.setLine hrouter _ (h.members hrouter hleft) hlength) others
      refine ⟨done, fun p hp => ?_⟩
      rcases List.mem_append.1 hp with hp | hp
      · obtain ⟨c, hmem, rfl⟩ := List.mem_map.1 hp
        exact ⟨hr, h.members hrouter (List.Subset.refl _) hr c
          (hexpired c (Option.mem_toList.1 hmem))⟩
      · exact named p hp

theorem Within.removeEach (h : e.Within s) (pairs : List (NodeId × RouterRef)) :
    (e.removeEach pairs).2.Within s := by
  induction pairs generalizing e with
  | nil => exact h
  | cons pair rest ih =>
    have marked : (e.updateRouter pair.2 fun router =>
        { router with detached := true }).Within s := h.updateRouter pair.2 fun _ => rfl
    unfold Engine.removeEach
    simp only
    split
    · exact marked
    · rename_i value tree hremove
      exact ih (marked.setTree tree fun r hr => h.attached r (RouterTree.values_remove hremove hr))

theorem Within.removeSubtree (h : e.Within s) (ids : List NodeId) (rs : List RouterRef) :
    (e.removeSubtree ids rs).2.Within s := by
  unfold Engine.removeSubtree
  split
  · exact h
  · exact h.removeEach _

theorem Within.detach (h : e.Within s) (r : RouterRef) : (e.detach r).Within s := by
  unfold Engine.detach
  simp only
  split
  · refine h.push ?_
    simp
  · generalize ((e.router? r).map fun router => e.topology.tree.subtree router.id).getD [] = ids
    have attached : ∀ r' ∈ ids.filterMap e.topology.tree.get?, s.routers r' := by
      intro r' hr'
      obtain ⟨id, -, hid⟩ := List.mem_filterMap.1 hr'
      exact h.of_get? hid
    obtain ⟨freed, named⟩ := h.expireEach attached
    generalize e.expireEach (ids.filterMap e.topology.tree.get?) = x at freed named
    obtain ⟨expired, mid⟩ := x
    have removed := freed.removeSubtree ids (ids.filterMap e.topology.tree.get?)
    generalize mid.removeSubtree ids (ids.filterMap e.topology.tree.get?) = y at removed
    obtain ⟨result, last⟩ := y
    refine removed.push fun t ht => ?_
    rcases List.mem_append.1 ht with ht | ht
    · rcases List.mem_append.1 ht with ht | ht
      · obtain ⟨p, hp, rfl⟩ := List.mem_map.1 ht
        obtain ⟨hr, hc⟩ := named p hp
        simp [hr, hc]
      · cases result with
        | ok done => cases ht
        | error failure =>
          rcases List.mem_append.1 ht with ht | ht
          · obtain ⟨p, hp, rfl⟩ := List.mem_map.1 ht
            have hr := (named p hp).1
            simp [hr]
          · rw [List.mem_singleton.1 ht]
            simp
    · rcases List.mem_cons.1 ht with rfl | ht
      · refine ⟨⟨fun r hr => ?_, fun c hc => ?_, trivial⟩, rfl⟩
        · obtain ⟨p, hp, rfl⟩ := List.mem_map.1 hr
          exact (named p hp).1
        · obtain ⟨p, hp, rfl⟩ := List.mem_map.1 hc
          exact (named p hp).2
      · rw [List.mem_singleton.1 ht]
        cases result <;>
          simp [Except.map]

theorem Within.resume (h : e.Within s) (r : RouterRef) : (e.resume r).Within s := by
  have awake : (e.updateRouter r fun router => { router with suspended := false }).Within s :=
    h.updateRouter r fun _ => rfl
  unfold Engine.resume
  split
  · exact h.fails _
  · split
    · exact h.fails _
    · refine awake.push ?_
      simp

theorem Within.operate (h : e.Within s) (hr : s.routers r) (operation : Operation) :
    (e.operate r operation).Within s := by
  unfold Engine.operate
  split
  · exact h.fails _
  · refine h.push ?_
    simp [hr, Operation.yields_program]

/-! ## Frames -/

/-- A new command, with its frame. -/
theorem Within.add (h : e.Within s) (command : Command) :
    ({ e with commands := (e.commands.add command).2 } : Engine).Within
      { s with made := s.made + 1 } where
  attached := h.attached
  tasks := h.tasks
  queued := h.queued
  made := by
    show (e.commands ++ [command]).length = _
    rw [List.length_append, h.made]
    rfl
  offered := h.offered

theorem Within.begin (h : e.Within s) (hr : s.routers r) (hnext : s.commands ⟨e.commands.length⟩)
    (command : Command) (style : Style) :
    (e.begin r command style).Within { s with made := s.made + 1 } := by
  cases style with
  | waiting watching =>
    refine (h.add command).push ?_
    simp [hr, hnext]
  | callback tag =>
    refine (h.add { command with listener := .callback tag }).launch hr hnext ?_
    simp
  | future =>
    refine (h.add { command with listener := .future none }).launch hr hnext ?_
    simp [hr, hnext]

/-! ## Moves -/

attribute [local simp] Holdings.next makes acknowledges acknowledged

/-- The acknowledgment on top of the stack is done with. -/
theorem Within.acknowledged (h : e.Within s) {event : HotplugEvent}
    (hs : e.stack = .offerAcknowledgment event :: below) :
    ({ e with stack := below } : Engine).freeFrame.Within
      { s with offered := s.offered - 1 } where
  attached := h.attached
  tasks t hmem := h.tasks t (hs ▸ List.mem_cons_of_mem _ hmem)
  queued := h.queued
  made := h.made
  offered := by
    show below.countP Task.hasFrame = s.offered - 1
    rw [← h.offered, hs, List.countP_cons_of_pos rfl, Nat.add_sub_cancel]

/-- An acknowledgment with its frame stands on top of the stack. -/
theorem Within.acknowledging (h : e.Within s) (event : HotplugEvent) :
    (e.takeFrame.push [.offerAcknowledgment event]).Within
      { s with offered := s.offered + 1 } where
  attached := h.attached
  tasks t hmem := by
    rcases List.mem_cons.1 hmem with rfl | hold
    · exact ⟨List.forall_mem_nil _, List.forall_mem_nil _, trivial⟩
    · exact h.tasks t hold
  queued := h.queued
  made := h.made
  offered := by
    show (Task.offerAcknowledgment event :: e.stack).countP Task.hasFrame = _
    rw [List.countP_cons_of_pos rfl, h.offered]

theorem Within.dropped (h : e.Within s) (hs : e.stack = t :: below) (hd : Drops m t) :
    ({ e with stack := below } : Engine).Within (s.next e m) := by
  cases hd with
  | unacknowledged event fault =>
    have hnext : s.next e (.grant (.error fault)) = s := by simp [hs]
    rw [hnext]
    exact h.pop hs rfl
  | _ => exact h.pop hs rfl

theorem Within.call (h : e.Within s) (hnext : s.routers ⟨e.routers.length⟩) {call : Call}
    (hroot : ∀ settings, call ≠ .attachRoot settings) (hcall : ∀ r ∈ call.routers, s.routers r) :
    (e.call call).Within s := by
  cases call with
  | attachRoot settings => exact absurd rfl (hroot settings)
  | attachChild parent route => exact h.attachChild hnext parent route
  | detach r => exact h.detach r
  | resume r => exact h.resume r
  | operate r operation => exact h.operate (hcall r List.mem_cons_self) operation

/-- **After a move an engine refers to what it referred to before, to the router or the command that
the move has made, and to the routers that it was called on.** -/
theorem Acts.within (k : Acts e m e') (h : e.Within s) (hrouter : s.routers ⟨e.routers.length⟩)
    (hmade : ∀ c ∈ e.makes m, s.commands c)
    (hroot : ∀ settings, m ≠ .call (.attachRoot settings))
    (hcall : ∀ call, m = .call call → ∀ r ∈ call.routers, s.routers r) :
    e'.Within (s.next e m) := by
  have top {t : Task} {below : List Task} (hs : e.stack = t :: below) : s.Admits t :=
    h.tasks t (hs ▸ List.mem_cons_self)
  cases k with
  | dropped hs hd => exact h.dropped hs hd
  | @concluded r result below hs =>
    obtain ⟨hr, -, hyields⟩ := top hs
    refine (h.pop hs rfl).push ?_
    rintro t (_ | ⟨_, ⟨⟩⟩)
    refine ⟨⟨fun r' hr' => ?_, List.forall_mem_nil _, trivial⟩, rfl⟩
    cases result with
    | error failure => cases hr'
    | ok answer =>
      cases answer with
      | router answered =>
        rw [List.mem_singleton.1 hr', hyields answered rfl]
        exact hr r List.mem_cons_self
      | nothing | words _ | offset _ => cases hr'
  | @asked r request next below hs =>
    obtain ⟨hr, -, hyields⟩ := top hs
    have hr := hr r List.mem_cons_self
    have resumed : ∀ t ∈ [Task.resume r next], s.Accepts t := by
      rintro t (_ | ⟨_, ⟨⟩⟩)
      exact ⟨⟨List.forall_mem_singleton.2 hr, List.forall_mem_nil _, hyields⟩, rfl⟩
    exact ((h.pop hs rfl).push resumed).meet hr request
  | @replied reply below hs => exact (h.pop hs rfl).passOn reply
  | @retried w below hs =>
    obtain ⟨hr, hc, -⟩ := top hs
    exact (h.pop hs rfl).retry (hr _ List.mem_cons_self) (hc _ List.mem_cons_self)
  | @watched w below hs =>
    obtain ⟨hr, hc, -⟩ := top hs
    refine (h.pop hs rfl).push ?_
    rintro t (_ | ⟨_, ⟨⟩⟩)
    exact ⟨⟨hr, hc, trivial⟩, rfl⟩
  | settled hs ht hsettle =>
    obtain ⟨hr, hc, -⟩ := top hs
    rcases ht with rfl | ⟨deadline, rfl⟩
    · exact (h.pop hs rfl).settle? (hr _ List.mem_cons_self) (hc _ List.mem_cons_self) hsettle
    · exact (h.pop hs rfl).settle? (hr _ List.mem_cons_self) (hc _ List.mem_cons_self) hsettle
  | drained hs => exact (h.pop hs rfl).drain ((top hs).1 _ List.mem_cons_self)
  | kicked hs => exact (h.pop hs rfl).kick
  | toured hs => exact (h.pop hs rfl).drainFirst _
  | @expired r c below hs =>
    obtain ⟨hr, hc, -⟩ := top hs
    refine (((h.pop hs rfl).count r _).push ?_).finish c _
    rintro t (_ | ⟨_, ⟨⟩⟩)
    exact ⟨⟨hr, hc, trivial⟩, rfl⟩
  | announced hs =>
    have popped := h.pop hs rfl
    exact ⟨popped.attached, popped.tasks, popped.queued, popped.made, popped.offered⟩
  | @framed r command style below hs =>
    have hnew : ⟨e.commands.length⟩ ∈ e.makes (.grant (.ok ())) := by simp [hs]
    have hnext : s.next e (.grant (.ok ())) = { s with made := s.made + 1 } := by simp [hs]
    rw [hnext]
    exact (h.pop hs rfl).begin ((top hs).1 r List.mem_cons_self)
      (hmade _ hnew) command style
  | @unframed r command style fault below hs =>
    have hnext : s.next e (.grant (.error fault)) = s := by simp [hs]
    rw [hnext]
    exact (h.pop hs rfl).reply _
  | @answered r c answer below hs =>
    obtain ⟨hr, hc, -⟩ := top hs
    have hnext : s.next e (.grant answer) = s := by simp [hs]
    rw [hnext]
    exact (h.pop hs rfl).answerOffer (hr _ List.mem_cons_self) (hc _ List.mem_cons_self) answer
  | registered hs =>
    have hnext : s.next e (.grant (.ok ())) = s := by simp [hs]
    rw [hnext]
    exact (h.pop hs rfl).linkRoot hrouter
  | @unregistered fault below hs =>
    have hnext : s.next e (.grant (.error fault)) = s := by simp [hs]
    rw [hnext]
    exact (h.pop hs rfl).fails _
  | @acknowledging event below hs =>
    have hnext : s.next e (.grant (.ok ())) = { s with offered := s.offered + 1 } := by simp [hs]
    rw [hnext]
    exact (h.pop hs rfl).acknowledging event
  | @acknowledged event answer below hs =>
    have hnext : s.next e (.grant answer) = { s with offered := s.offered - 1 } := by simp [hs]
    rw [hnext]
    exact h.acknowledged hs
  | @gaveUp w deadline below hs =>
    obtain ⟨hr, hc, -⟩ := top hs
    exact (h.pop hs rfl).withdraw (hr _ List.mem_cons_self) (hc _ List.mem_cons_self)
  | collected hs => exact h.pop hs rfl
  | called call =>
    exact h.call hrouter (fun settings heq => hroot settings (heq ▸ rfl)) (hcall call rfl)
  | received arrival => exact h.receive arrival
  | elapsed ms => exact ⟨h.attached, h.tasks, h.queued, h.made, h.offered⟩

end Engine

end RouterFabric
