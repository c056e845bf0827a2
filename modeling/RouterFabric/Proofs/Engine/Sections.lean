import RouterFabric.Proofs.Calls

/-!
# What each section does to the queues

Every slot and every line is looked after by someone: by a pass over the queue that is under way, by
the list of routers that wait for the transport, or by a task that will take up one of these. Each
section of an engine changes one queue at most, apart from a detachment, and leaves the tasks that
look after what it has changed. Here this is said of each section, together with the tasks that it
puts on the stack.

* `Engine.Same`, `Engine.Requeued`, `Engine.Released` : what becomes of the queues
* `launch_flow`, `drain_flow`, `answerOffer_accepted`, `answerOffer_busy`, `answerOffer_error` : the
  way of a command into the slot
* `relieved_receive`, `withdraw_flow`, `detach_flow` : the ways out of it
-/

namespace RouterFabric

/-! ## Tasks -/

namespace Task

/-- Tasks that look after a queue. -/
def isDuty : Task → Bool
  | .drain _ => true
  | .offer _ _ => true
  | .kick => true
  | .drainEach _ => true
  | _ => false

/-- Tasks that wait for the transport to take a command. -/
def isOffer : Task → Bool
  | .offer _ _ => true
  | _ => false

/-- Tasks of no program and of no waiting caller, offers aside. -/
def isErrand : Task → Bool
  | .perform _ _ => false
  | .resume _ _ => false
  | .attempt _ => false
  | .watch _ => false
  | .await _ _ => false
  | .claimed _ => false
  | .offer _ _ => false
  | _ => true

/-- The task neither waits for the command nor has the router taken out of the tree. -/
structure Spares (r : RouterRef) (c : CommandRef) (t : Task) : Prop where
  waits : ∀ w, t.waiter? = some w → w.command ≠ c
  performs : ∀ program, t = .perform r program → program.Asks Request.Stays
  resumes : ∀ next, t = .resume r next → ∀ reply, (next reply).Asks Request.Stays

variable {t : Task} {r : RouterRef} {c : CommandRef}

theorem isOffer_of_errand (h : t.isErrand = true) : t.isOffer = false := by
  cases t <;> first | rfl | exact absurd h Bool.false_ne_true

theorem spares_of_errand (h : t.isErrand = true) : t.Spares r c := by
  refine ⟨fun w hw => ?_, ?_, ?_⟩
  · cases t <;> first | exact absurd h Bool.false_ne_true | cases hw
  · rintro program rfl
    cases h
  · rintro next rfl
    cases h

theorem spares_of_duty (h : t.isDuty = true) : t.Spares r c := by
  refine ⟨fun w hw => ?_, ?_, ?_⟩
  · cases t <;> first | exact absurd h Bool.false_ne_true | cases hw
  · rintro program rfl
    cases h
  · rintro next rfl
    cases h

theorem spares_of_waiter? {w : Waiter} (hw : t.waiter? = some w) (hne : w.command ≠ c) :
    t.Spares r c := by
  refine ⟨fun w' hw' => ?_, ?_, ?_⟩
  · rw [hw] at hw'
    cases hw'
    exact hne
  · rintro program rfl
    cases hw
  · rintro next rfl
    cases hw

theorem spares_perform {r' : RouterRef} {program : Program Request Answer}
    (h : r' = r → program.Asks Request.Stays) : (Task.perform r' program).Spares r c := by
  refine ⟨fun w hw => ?_, fun program' heq => ?_, fun next heq => ?_⟩
  · cases hw
  · cases heq
    exact h rfl
  · cases heq

theorem spares_resume {r' : RouterRef} {next : Reply → Program Request Answer}
    (h : r' = r → ∀ reply, (next reply).Asks Request.Stays) : (Task.resume r' next).Spares r c := by
  refine ⟨fun w hw => ?_, fun program heq => ?_, fun next' heq => ?_⟩
  · cases hw
  · cases heq
  · cases heq
    exact h rfl

end Task

namespace Engine

variable {e e' e'' : Engine} {m : Move} {r r' : RouterRef} {router : Router} {c c' : CommandRef}
  {command : Command} {t : Task} {w : Waiter} {q : Queue} {gone tasks below : List Task}

/-! ## Queues before and after -/

theorem queue_of_routers (h : e'.routers = e.routers) (r : RouterRef) :
    e'.queue r = e.queue r := by
  unfold queue router?
  rw [h]

theorem queue_of_none (h : e.router? r = none) : e.queue r = {} := by
  unfold queue
  rw [h]
  rfl

/-- All queues are as they were, and so is the list of routers that wait for the transport. -/
structure Same (e e' : Engine) : Prop where
  queues : ∀ r, e'.queue r = e.queue r
  deferred : e'.topology.deferred = e.topology.deferred

/-- The queue of one router has been replaced. -/
structure Requeued (e e' : Engine) (r : RouterRef) (q : Queue) : Prop where
  queues : ∀ r', e'.queue r' = if r = r' then q else e.queue r'
  deferred : e'.topology.deferred = e.topology.deferred

theorem Same.refl (e : Engine) : e.Same e :=
  ⟨fun _ => rfl, rfl⟩

theorem Same.trans (s : e.Same e') (s' : e'.Same e'') : e.Same e'' :=
  ⟨fun r => (s'.queues r).trans (s.queues r), s'.deferred.trans s.deferred⟩

theorem same_of_routers (hr : e'.routers = e.routers)
    (hd : e'.topology.deferred = e.topology.deferred) : e.Same e' :=
  ⟨queue_of_routers hr, hd⟩

theorem same_push (e : Engine) (tasks : List Task) : e.Same (e.push tasks) :=
  same_of_routers rfl rfl

theorem same_updateRouter (e : Engine) (r : RouterRef) {f : Router → Router}
    (hf : ∀ router, (f router).queue = router.queue) : e.Same (e.updateRouter r f) :=
  ⟨fun r' => queue_updateRouter e r r' hf, rfl⟩

theorem same_count (e : Engine) (r : RouterRef) (f : Statistics → Statistics) :
    e.Same (e.count r f) :=
  same_updateRouter e r fun _ => rfl

theorem Same.push (s : e.Same e') (tasks : List Task) : e.Same (e'.push tasks) :=
  s.trans (same_push e' tasks)

theorem Requeued.same (s : e.Requeued e' r q) (s' : e'.Same e'') : e.Requeued e'' r q :=
  ⟨fun r' => (s'.queues r').trans (s.queues r'), s'.deferred.trans s.deferred⟩

theorem Requeued.push (s : e.Requeued e' r q) (tasks : List Task) :
    e.Requeued (e'.push tasks) r q :=
  s.same (same_push e' tasks)

theorem Requeued.count (s : e.Requeued e' r q) (r' : RouterRef) (f : Statistics → Statistics) :
    e.Requeued (e'.count r' f) r q :=
  s.same (same_count e' r' f)

theorem requeued_setQueue (hr : e.router? r = some router) (q : Queue) :
    e.Requeued (e.setQueue r q) r q :=
  ⟨queue_setQueue hr q, rfl⟩

theorem requeued_setLine (hr : e.router? r = some router) (line : Queue × Commands) :
    e.Requeued (e.setLine r line) r line.1 :=
  ⟨queue_setLine hr line, rfl⟩

theorem Requeued.on (s : e.Requeued e' r q) : e'.queue r = q := by
  rw [s.queues, if_pos rfl]

theorem Requeued.off (s : e.Requeued e' r q) (hne : r' ≠ r) : e'.queue r' = e.queue r' := by
  rw [s.queues, if_neg (Ne.symm hne)]

theorem errand_notes (command : Command) (ending : Ending) :
    ∀ t ∈ command.notes ending, t.isErrand = true := by
  intro t ht
  obtain ⟨tag, -, rfl⟩ := List.mem_map.1 ht
  rfl

/-- The end of an attempt concerns no queue. -/
theorem finish_flow (e : Engine) (c : CommandRef) (ending : Ending) :
    e.Same (e.finish c ending) ∧
      ∃ notes, (e.finish c ending).stack = notes ++ e.stack ∧ ∀ t ∈ notes, t.isErrand = true := by
  cases hc : e.command? c with
  | none =>
    have he : e.finish c ending = e := by
      unfold finish
      rw [hc]
    rw [he]
    exact ⟨.refl e, [], rfl, by simp⟩
  | some command =>
    rw [finish_eq hc]
    exact ⟨same_of_routers rfl rfl, command.notes ending, rfl, errand_notes command ending⟩

/-! ## Sections that leave the queues alone -/

theorem issue_flow (e : Engine) (r : RouterRef) (transfer : Transfer) (style : Style) :
    e.Same (e.issue r transfer style) ∧
      ∃ t, (e.issue r transfer style).stack = t :: e.stack ∧ t.isErrand = true := by
  have refused (failure : Failure) : e.Same (e.push [.reply (.error failure)]) ∧
      ∃ t, (e.push [.reply (.error failure)]).stack = t :: e.stack ∧ t.isErrand = true :=
    ⟨same_push e _, _, rfl, rfl⟩
  unfold issue
  split
  · exact refused _
  · split
    · exact refused _
    · split
      · exact refused _
      · split
        · exact refused _
        · split
          · exact ⟨same_of_routers rfl rfl, _, rfl, rfl⟩
          · exact ⟨same_of_routers rfl rfl, _, rfl, rfl⟩

theorem enrol_flow (e : Engine) (r : RouterRef) (identity : Identity) :
    e.Same (e.enrol r identity) ∧
      ∃ reply, (e.enrol r identity).stack = .reply reply :: e.stack := by
  unfold enrol
  split
  · exact ⟨same_push e _, _, rfl⟩
  · split
    · exact ⟨same_push e _, _, rfl⟩
    · have known := same_updateRouter e r (f := fun router =>
        { router with identity := router.identity.orElse fun _ => some identity }) fun _ => rfl
      exact ⟨known.trans ⟨fun _ => rfl, rfl⟩, _, rfl⟩

theorem unlink_flow (e : Engine) (r : RouterRef) :
    e.Same (e.unlink r) ∧ (e.unlink r).stack = .reply (.ok []) :: e.stack := by
  unfold unlink
  split
  · exact ⟨same_push e _, rfl⟩
  · have marked := same_updateRouter e r (f := fun router => { router with detached := true })
      fun _ => rfl
    exact ⟨marked.trans ⟨fun _ => rfl, rfl⟩, rfl⟩

theorem meet_flow (e : Engine) (r : RouterRef) (request : Request) :
    e.Same (e.meet r request) ∧
      ∃ tasks, (e.meet r request).stack = tasks ++ e.stack ∧ ∀ t ∈ tasks, t.isErrand = true := by
  cases request with
  | transfer transfer style =>
    obtain ⟨same, t, hs, ht⟩ := e.issue_flow r transfer style
    exact ⟨same, [t], hs, by simpa using ht⟩
  | pause ms =>
    exact ⟨same_push e _, [.sleep ms, .reply (.ok [])], rfl, by simp [Task.isErrand]⟩
  | fallAsleep =>
    have marked := same_updateRouter e r (f := fun router => { router with suspended := true })
      fun _ => rfl
    exact ⟨marked.push _, [.reply (.ok [])], rfl, by simp [Task.isErrand]⟩
  | enrol identity =>
    obtain ⟨same, reply, hs⟩ := e.enrol_flow r identity
    exact ⟨same, [.reply reply], hs, by simp [Task.isErrand]⟩
  | unlink =>
    obtain ⟨same, hs⟩ := e.unlink_flow r
    exact ⟨same, [.reply (.ok [])], hs, by simp [Task.isErrand]⟩

theorem settle?_flow (hs : e.settle? w = some e') :
    e.Same e' ∧ ∃ t, e'.stack = t :: e.stack ∧ (t.isErrand = true ∨ t = .attempt w) := by
  unfold settle? at hs
  split at hs
  · cases hs
  · split at hs
    · split at hs
      · cases hs
        exact ⟨same_push e _, _, rfl, .inl rfl⟩
      · cases hs
    · split at hs
      · simp only at hs
        split at hs <;> cases hs
        · exact ⟨same_of_routers rfl rfl, _, rfl, .inr rfl⟩
        · exact ⟨same_of_routers rfl rfl, _, rfl, .inr rfl⟩
        · exact ⟨same_of_routers rfl rfl, _, rfl, .inl rfl⟩
      · cases hs

/-- A router that is added has an empty queue, as if it had not been added. -/
theorem same_addRouter (e : Engine) (id : NodeId) (route : Route) :
    e.Same (e.addRouter id route).2 := by
  refine ⟨fun r => ?_, rfl⟩
  unfold addRouter queue router?
  simp only [List.getElem?_append]
  split
  · rfl
  · rename_i hlt
    rw [List.getElem?_eq_none (Nat.le_of_not_lt hlt), List.getElem?_singleton]
    split <;> rfl

theorem linkRoot_flow (e : Engine) : e.Same e.linkRoot := by
  have added := e.same_addRouter e.topology.tree.allocateId.1 Route.root
  unfold linkRoot
  simp only
  split <;> exact added.trans ⟨fun _ => rfl, rfl⟩

theorem attachChild_flow (e : Engine) (parent : RouterRef) (route : Route) :
    e.Same (e.attachChild parent route) := by
  have added := e.same_addRouter e.topology.tree.allocateId.1 route
  unfold attachChild
  split
  · exact same_push e _
  · simp only
    split <;> exact added.trans ⟨fun _ => rfl, rfl⟩

/-! ## Sections that change a queue -/

/-- An attempt on an attached router is queued at the end, and a pass over the queue follows. -/
theorem launch_flow (hr : e.router? r = some router) (c : CommandRef) (next : List Task) :
    (e.Same (e.launch r c next) ∧
        (e.launch r c next).stack = .reply (.error .notFound) :: e.stack) ∨
      e.Requeued (e.launch r c next) r { e.queue r with pending := (e.queue r).pending ++ [c] } ∧
        (e.launch r c next).stack = .drain r :: next ++ e.stack := by
  have hq := queue_of_router? hr
  have numbered : e.Same (e.updateRouter r fun router =>
      { router with begun := router.begun + 1 }) := same_updateRouter e r fun _ => rfl
  have hr' : (e.updateRouter r fun router => { router with begun := router.begun + 1 }).router? r =
      some { router with begun := router.begun + 1 } := by
    rw [router?_updateRouter, if_pos rfl, hr]
    rfl
  unfold launch
  rw [hr]
  simp only
  split
  · exact .inl ⟨⟨numbered.queues, rfl⟩, rfl⟩
  · refine .inr ⟨⟨fun r' => ?_, rfl⟩, rfl⟩
    refine (queue_setLine hr' _ r').trans ?_
    rw [hq]
    split
    · rfl
    · exact numbered.queues r'

/-- A pass takes the head of the line into the free slot, or ends because there is none or the slot
is taken. -/
theorem Stored.drain_flow (h : e.Stored) (r : RouterRef) :
    (e.Same (e.drain r) ∧ (e.drain r).stack = e.stack ∧
        ((e.queue r).slot ≠ none ∨ (e.queue r).pending = [])) ∨
      ∃ c rest, (e.queue r).slot = none ∧ (e.queue r).pending = c :: rest ∧
        e.Requeued (e.drain r) r ⟨rest, some c, .draining⟩ ∧
        (e.drain r).stack = .offer r c :: e.stack := by
  rw [drain_eq]
  split
  · rename_i hr
    refine .inl ⟨.refl e, rfl, .inr ?_⟩
    rw [queue_of_none hr]
  · rename_i router hr
    have hq := queue_of_router? hr
    have ho := h.orderly r
    rw [hq] at ho ⊢
    split
    · rename_i hb
      refine .inl ⟨.refl e, rfl, ?_⟩
      unfold Queue.beginDrain at hb
      split at hb
      · cases hb
      · rename_i hnot
        by_cases hidle : router.queue.state = .idle
        · right
          exact List.eq_nil_iff_forall_not_mem.2 fun c hc => by
            obtain ⟨front, back, hp⟩ := List.append_of_mem hc
            cases hpend : router.queue.pending with
            | nil => rw [hpend] at hc; cases hc
            | cons first rest => exact hnot first rest hidle hpend
        · left
          intro hs
          exact hidle (ho.idle_iff.2 hs)
    · rename_i c line hb
      obtain ⟨hidle, rest, hp, hline⟩ := Queue.beginDrain_eq_some hb
      have requeued := requeued_setLine hr line
      rw [hline] at requeued ⊢
      exact .inr ⟨c, rest, ho.idle_iff.1 hidle, hp, requeued.push _, rfl⟩

/-- An accepted command keeps the slot, and the pass goes on. -/
theorem answerOffer_accepted (hr : e.router? r = some router) (c : CommandRef) :
    e.Requeued (e.answerOffer r c (.ok ())) r ((e.queue r).submitted c) ∧
      (e.answerOffer r c (.ok ())).stack = .drain r :: e.stack := by
  rw [answerOffer_eq]
  rw [hr, queue_of_router? hr]
  exact ⟨((requeued_setQueue hr _).count r _).push _, rfl⟩

/-- For a command that finds the transport busy, the router is noted, and the pass is over. -/
theorem answerOffer_busy (hr : e.router? r = some router) (c : CommandRef) :
    (∀ r', (e.answerOffer r c (.error .busy)).queue r' =
        if r = r' then ((e.queue r).defer e.commands c).2.1 else e.queue r') ∧
      (e.answerOffer r c (.error .busy)).topology.deferred =
        (e.topology.defer router.id).deferred ∧
      (e.answerOffer r c (.error .busy)).stack = e.stack := by
  rw [answerOffer_eq]
  rw [hr, queue_of_router? hr]
  have line := (requeued_setLine hr (router.queue.defer e.commands c).2).count r fun stats =>
    { stats with busyDeferrals := stats.busyDeferrals + 1 }
  exact ⟨line.queues, rfl, rfl⟩

/-- A refused command leaves the slot, and the pass goes on. -/
theorem answerOffer_error (hr : e.router? r = some router) (c : CommandRef) {fault : TransportFault}
    (hf : fault ≠ .busy) :
    e.Requeued (e.answerOffer r c (.error fault)) r ((e.queue r).reject c).2 ∧
      ∃ tasks, (e.answerOffer r c (.error fault)).stack = tasks ++ e.stack ∧ .drain r ∈ tasks ∧
        ∀ t ∈ tasks, t.isErrand = true := by
  have hq := queue_of_router? hr
  rw [answerOffer_eq]
  rw [hr, hq]
  simp only
  by_cases hs : router.queue.slot = some c
  · rw [Queue.reject_eq, if_pos hs]
    simp only
    have freed : e.Requeued { e.setQueue r router.queue.release with
        commands := ((e.setQueue r router.queue.release).commands.change c false
          fun command => command.markAll command.generation).2 } r router.queue.release :=
      (requeued_setQueue hr _).same ⟨fun _ => rfl, rfl⟩
    split
    · obtain ⟨same, notes, hstack, hnotes⟩ := finish_flow
        (({ e.setQueue r router.queue.release with
          commands := ((e.setQueue r router.queue.release).commands.change c false
            fun command => command.markAll command.generation).2 }).push
              [.hold [r] [c], .drain r]) c (.refused fault)
      exact ⟨(freed.push _).same same, notes ++ [Task.hold [r] [c], Task.drain r],
        hstack.trans (List.append_assoc ..).symm, by simp,
        List.forall_mem_append.2 ⟨hnotes, by simp [Task.isErrand]⟩⟩
    · exact ⟨freed.push _, [.drain r], rfl, by simp, by simp [Task.isErrand]⟩
  · rw [Queue.reject_eq, if_neg hs]
    refine ⟨⟨fun r' => ?_, rfl⟩, [.drain r], rfl, by simp, by simp [Task.isErrand]⟩
    simp only
    split
    · rename_i same
      rw [← same, ← hq]
      rfl
    · rfl

/-- The queues after an arrival: nothing has changed, or a slot has been freed and all routers are
tried again. -/
inductive Relieved (e e' : Engine) : Prop
  | idle (tasks : List Task) : e.Same e' → e'.stack = tasks ++ e.stack →
      (∀ t ∈ tasks, t.isErrand = true ∧ t.isDuty = false) → Relieved e e'
  | freed (r : RouterRef) (c : CommandRef) (tasks : List Task) : (e.queue r).slot = some c →
      e.Requeued e' r (e.queue r).release → e'.stack = tasks ++ e.stack →
      (∃ front back, tasks = front ++ .kick :: back ∧ .drain r ∈ front) →
      (∀ t ∈ tasks, t.isErrand = true) → Relieved e e'

theorem relieved_refl (e : Engine) : Relieved e e :=
  .idle [] (.refl e) rfl (by simp)

theorem relieved_discard (e : Engine) (r : RouterRef) : Relieved e (e.discard r) :=
  .idle [] (same_updateRouter e r fun _ => rfl) rfl (by simp)

theorem Relieved.restored {cs : Commands} (h : Relieved { e with commands := cs } e') :
    Relieved e e' := by
  cases h with
  | idle tasks same hs ht => exact .idle tasks ⟨same.queues, same.deferred⟩ hs ht
  | freed r c tasks hslot requeued hs hfront ht =>
    exact .freed r c tasks hslot ⟨requeued.queues, requeued.deferred⟩ hs hfront ht

theorem relieved_complete (e : Engine) (r : RouterRef) (c : CommandRef) (generation : Nat)
    (ending : Ending) : Relieved e (e.complete r c generation ending) := by
  unfold complete
  split
  · exact relieved_refl e
  · rename_i router hr
    rw [Queue.complete_eq]
    split
    · rename_i heq
      split at heq
      · cases heq
      · exact relieved_discard e r
    · rename_i queue heq
      split at heq
      · rename_i hclaimed
        cases heq
        have requeued := ((requeued_setQueue hr router.queue.release).count r fun stats =>
          { stats with completed := stats.completed + 1 }).push [.drain r, .kick, .hold [r] [c]]
        obtain ⟨same, notes, hstack, hnotes⟩ := finish_flow
          (((e.setQueue r router.queue.release).count r fun stats =>
            { stats with completed := stats.completed + 1 }).push [.drain r, .kick, .hold [r] [c]])
          c ending
        refine .freed r c (notes ++ [Task.drain r, Task.kick, Task.hold [r] [c]]) ?_
          (by rw [queue_of_router? hr]; exact requeued.same same)
          (hstack.trans (List.append_assoc ..).symm)
          ⟨notes ++ [Task.drain r], [.hold [r] [c]], by simp, by simp⟩
          (List.forall_mem_append.2 ⟨hnotes, by simp [Task.isErrand]⟩)
        rw [queue_of_router? hr]
        exact hclaimed.1
      · cases heq

theorem relieved_signal (e : Engine) (r : RouterRef) (c : CommandRef) (generation : Nat)
    (signal : Signal) (words : Option (List UInt32)) :
    Relieved e (e.signal r c generation signal words) := by
  unfold Engine.signal
  simp only
  split
  · exact (relieved_complete _ r c generation _).restored
  · exact .idle [] (same_of_routers rfl rfl) rfl (by simp)

/-- An arrival frees one slot at most. -/
theorem relieved_heard {arrival : Arrival} (k : e.Heard arrival e') : Relieved e e' := by
  cases k with
  | ignored => exact relieved_refl e
  | discarded r => exact relieved_discard e r
  | sent | answered => exact relieved_signal _ _ _ _ _ _
  | interrupted event hslot =>
    simp only
    split
    · exact (relieved_complete _ _ _ _ _).restored
    · exact .idle [] (same_of_routers rfl rfl) rfl (by simp)
  | plugged event =>
    exact .idle [.acknowledge event, .announce event] (same_push e _) rfl
      (by simp [Task.isErrand, Task.isDuty])

theorem relieved_receive (e : Engine) (arrival : Arrival) :
    Relieved (e.push [.handled]) (e.receive arrival) :=
  relieved_heard (heard_receive e arrival)

/-- A caller's command leaves the queue, and perhaps the one that holds the slot after that; then
the queue and all routers that wait are tried again, before the caller goes on. -/
theorem withdraw_flow (hr : e.router? w.router = some router) :
    (e.Same (e.withdraw w) ∧ (e.withdraw w).stack = .claimed w :: e.stack) ∨
      ∃ q front back, (q = ((e.queue w.router).abandon w.command).2 ∨
          q = ((e.queue w.router).abandon w.command).2.release) ∧
        e.Requeued (e.withdraw w) w.router q ∧
        (e.withdraw w).stack = (front ++ .kick :: back) ++ e.stack ∧ .drain w.router ∈ front ∧
        (∀ t ∈ front, t.isErrand = true) ∧ ∀ t ∈ back, t.isErrand = true ∨ t = .attempt w := by
  have hq := queue_of_router? hr
  unfold withdraw
  rw [hr, hq]
  simp only
  split
  · exact .inl ⟨same_push e _, rfl⟩
  · rename_i queue heq
    rw [heq]
    have cases := Queue.expire_cases queue e.commands e.topology.settings.timeoutMs e.now
    generalize queue.expire e.commands e.topology.settings.timeoutMs e.now = x at cases ⊢
    obtain ⟨expired, line⟩ := x
    refine .inr ⟨line.1, expired.toList.map (.expire w.router) ++ [Task.drain w.router],
      afterTimeout w, ?_, ((requeued_setLine hr line).count w.router _).push _, ?_, by simp, ?_,
      fun t ht => ?_⟩
    · rcases cases with he | ⟨c, command, -, -, -, -, he⟩
      · exact .inl (congrArg (·.2.1) he)
      · exact .inr (congrArg (·.2.1) he)
    · simp [push, count, setLine, setQueue, updateRouter]
    · exact List.forall_mem_append.2
        ⟨List.forall_mem_map.2 fun _ _ => rfl, List.forall_mem_singleton.2 rfl⟩
    · unfold afterTimeout at ht
      split at ht
      · exact .inr (List.mem_singleton.1 ht)
      · simp only [List.mem_cons, List.not_mem_nil, or_false] at ht
        rcases ht with rfl | rfl <;> exact .inl rfl

/-! ## Detachments -/

/-- The slots of these routers have been freed. -/
structure Released (e e' : Engine) (freed : List RouterRef) : Prop where
  queues : ∀ r, e'.queue r = if r ∈ freed then (e.queue r).release else e.queue r
  held : ∀ r ∈ freed, (e.queue r).slot ≠ none
  deferred : e'.topology.deferred = e.topology.deferred

theorem Released.same {freed : List RouterRef} (h : e.Released e' freed) (s : e'.Same e'') :
    e.Released e'' freed :=
  ⟨fun r => (s.queues r).trans (h.queues r), h.held, s.deferred.trans h.deferred⟩

theorem Same.released {freed : List RouterRef} (s : e.Same e') (h : e'.Released e'' freed) :
    e.Released e'' freed := by
  refine ⟨fun r => ?_, fun r hr => ?_, h.deferred.trans s.deferred⟩
  · rw [← s.queues r]
    exact h.queues r
  · rw [← s.queues r]
    exact h.held r hr

/-- A slot that has been freed is free, and so is not freed again. -/
theorem Requeued.released {freed : List RouterRef} (first : e.Requeued e' r (e.queue r).release)
    (hslot : (e.queue r).slot = some c) (h : e'.Released e'' freed) :
    e.Released e'' (r :: freed) := by
  have hfree : (e'.queue r).slot = none := by
    rw [first.on]
    rfl
  have hnot : r ∉ freed := fun hm => h.held r hm hfree
  refine ⟨fun r' => ?_, fun r' hr' => ?_, h.deferred.trans first.deferred⟩
  · refine (h.queues r').trans ?_
    by_cases hrr : r' = r
    · subst hrr
      rw [if_neg hnot, if_pos List.mem_cons_self, first.on]
    · rw [first.off hrr]
      simp only [List.mem_cons, hrr, false_or]
  · rcases List.mem_cons.1 hr' with rfl | hr'
    · rw [hslot]
      exact Option.some_ne_none c
    · rw [← first.off (show r' ≠ r from fun heq => hnot (heq ▸ hr'))]
      exact h.held r' hr'

theorem expireEach_flow (e : Engine) (rs : List RouterRef) :
    e.Released (e.expireEach rs).2 ((e.expireEach rs).1.map (·.1)) ∧
      (∀ p ∈ (e.expireEach rs).1, p.1 ∈ rs) ∧ (e.expireEach rs).2.stack = e.stack := by
  induction rs generalizing e with
  | nil =>
    exact ⟨⟨fun r => by simp [expireEach], by simp [expireEach], rfl⟩, by simp [expireEach], rfl⟩
  | cons r rest ih =>
    unfold expireEach
    split
    · obtain ⟨released, within, hs⟩ := ih e
      exact ⟨released, fun p hp => List.mem_cons_of_mem _ (within p hp), hs⟩
    · rename_i router hr
      have hq := queue_of_router? hr
      have cases := Queue.expire_cases router.queue e.commands e.topology.settings.timeoutMs e.now
      generalize router.queue.expire e.commands e.topology.settings.timeoutMs e.now = x at cases ⊢
      obtain ⟨expired, line⟩ := x
      have first := requeued_setLine hr line
      obtain ⟨others, within, hs⟩ := ih (e.setLine r line)
      have rest_within : ∀ p ∈ ((e.setLine r line).expireEach rest).1, p.1 ∈ r :: rest :=
        fun p hp => List.mem_cons_of_mem _ (within p hp)
      simp only
      rcases cases with he | ⟨c, command, hslot, -, -, -, he⟩
      · obtain ⟨rfl, rfl⟩ := Prod.mk.inj he
        have same : e.Same (e.setLine r (router.queue, e.commands)) := by
          refine ⟨fun r' => ?_, rfl⟩
          rw [first.queues]
          split
          · rename_i heq
            rw [← heq, hq]
          · rfl
        exact ⟨same.released others, rest_within, hs⟩
      · obtain ⟨rfl, hline⟩ := Prod.mk.inj he
        have hfreed : line.1 = (e.queue r).release := by rw [hline, hq]
        have hheld : (e.queue r).slot = some c := by rw [hq, hslot]
        rw [hfreed] at first
        refine ⟨first.released hheld others, fun p hp => ?_, hs⟩
        rcases List.mem_cons.1 hp with rfl | hp
        · exact List.mem_cons_self
        · exact rest_within p hp

theorem removeEach_flow (e : Engine) (pairs : List (NodeId × RouterRef)) :
    e.Same (e.removeEach pairs).2 ∧ (e.removeEach pairs).2.stack = e.stack := by
  induction pairs generalizing e with
  | nil => exact ⟨.refl e, rfl⟩
  | cons pair rest ih =>
    have marked : e.Same (e.updateRouter pair.2 fun router =>
        { router with detached := true }) := same_updateRouter e pair.2 fun _ => rfl
    unfold removeEach
    simp only
    split
    · exact ⟨marked, rfl⟩
    · rename_i tree _
      obtain ⟨same, hs⟩ := ih { e.updateRouter pair.2 (fun router =>
        { router with detached := true }) with topology := { e.topology with tree := tree } }
      exact ⟨⟨fun r => (same.queues r).trans (marked.queues r), same.deferred⟩, hs⟩

/-- Routers that are removed have no command left. -/
theorem removeSubtree_flow (e : Engine) (ids : List NodeId) (rs : List RouterRef) :
    e.Same (e.removeSubtree ids rs).2 ∧ (e.removeSubtree ids rs).2.stack = e.stack ∧
      ((∃ done, (e.removeSubtree ids rs).1 = .ok done) → ∀ r ∈ rs, (e.queue r).pending = []) := by
  unfold removeSubtree
  split
  · exact ⟨.refl e, rfl, nofun⟩
  · rename_i free
    obtain ⟨same, hs⟩ := e.removeEach_flow (ids.zip rs)
    refine ⟨same, hs, fun _ r hr => ?_⟩
    cases hrouter : e.router? r with
    | none => rw [queue_of_none hrouter]
    | some router =>
      rw [queue_of_router? hrouter]
      have hzero : router.queue.outstanding = 0 := by
        refine Nat.eq_zero_of_not_pos fun hpos => free ?_
        exact List.any_eq_true.2 ⟨r, hr, by simp [hrouter, hpos]⟩
      rw [Queue.outstanding_eq_zero_iff] at hzero
      exact (List.append_eq_nil_iff.1 hzero).2

/-- What a detachment leaves to be done: a successful one looks after no queue any more, and one
that is refused tries the routers whose slots it has freed, and all that wait. -/
inductive Aftermath (e : Engine) (freed : List RouterRef) (tasks : List Task) : Prop
  | done : .answer (.ok .nothing) ∈ tasks → (∀ t ∈ tasks, t.isDuty = false) →
      (∀ r ∈ freed, (e.queue r).pending = []) → Aftermath e freed tasks
  | refused : .answer (.ok .nothing) ∉ tasks → .kick ∈ tasks → (∀ r ∈ freed, .drain r ∈ tasks) →
      Aftermath e freed tasks

theorem detach_flow (e : Engine) (r : RouterRef) :
    ∃ freed tasks, e.Released (e.detach r) freed ∧ (e.detach r).stack = tasks ++ e.stack ∧
      (∀ t ∈ tasks, t.isErrand = true) ∧ Aftermath e freed tasks := by
  unfold detach
  simp only
  generalize ((e.router? r).map fun router => e.topology.tree.subtree router.id).getD [] = ids
  split
  · exact ⟨[], [.kick, .answer (.error .notFound)], ⟨fun _ => by simp; rfl, by simp, rfl⟩, rfl,
      by simp [Task.isErrand], .refused (by simp) (by simp) (by simp)⟩
  · generalize ids.filterMap e.topology.tree.get? = routers
    obtain ⟨released, within, hs⟩ := e.expireEach_flow routers
    generalize e.expireEach routers = x at released within hs ⊢
    obtain ⟨expired, freed⟩ := x
    obtain ⟨same, hs', hempty⟩ := freed.removeSubtree_flow ids routers
    simp only at released within hs hs' same hempty ⊢
    generalize freed.removeSubtree ids routers = y at same hs' hempty ⊢
    obtain ⟨result, removed⟩ := y
    have hbelow : removed.stack = e.stack := hs'.trans hs
    refine ⟨expired.map (·.1), _, (released.same same).same (same_push _ _),
      congrArg (_ ++ ·) hbelow, ?_, ?_⟩
    · refine List.forall_mem_append.2 ⟨List.forall_mem_append.2
        ⟨List.forall_mem_map.2 fun _ _ => rfl, ?_⟩, by simp [Task.isErrand]⟩
      split
      · exact List.forall_mem_nil _
      · exact List.forall_mem_append.2
          ⟨List.forall_mem_map.2 fun _ _ => rfl, List.forall_mem_singleton.2 rfl⟩
    · cases result with
      | ok done =>
        refine .done (by simp [Except.map]) (fun t ht => ?_) fun r' hr' => ?_
        · simp only [List.append_nil, List.mem_append, List.mem_map, List.mem_cons,
            List.not_mem_nil, or_false] at ht
          rcases ht with ⟨p, -, rfl⟩ | rfl | rfl <;> rfl
        · obtain ⟨p, hp, rfl⟩ := List.mem_map.1 hr'
          have hpending := hempty ⟨done, rfl⟩ p.1 (within p hp)
          rw [released.queues, if_pos hr'] at hpending
          exact hpending
      | error failure =>
        refine .refused (by simp [Except.map]) (by simp) fun r' hr' => ?_
        obtain ⟨p, hp, rfl⟩ := List.mem_map.1 hr'
        simp only [List.mem_append, List.mem_map]
        exact .inl (.inr (.inl ⟨p, hp, rfl⟩))

end Engine

end RouterFabric
