import RouterFabric.Proofs.Detached
import RouterFabric.Proofs.Engine.Sections

/-!
# What every move does to the queues

A move replaces the tasks on top of the stack by others, and what it does to the queues in doing so
is one of the things listed here. Whoever wants to know that queues are looked after goes through
these, and need not know the sections of the engine.

* `Engine.Swapped` : the tasks on top of the stack are replaced by others
* `Engine.Flow` : all that a move can do to the queues, by the tasks that it replaces
* `Sound.flow` : every move does one of these things
* `Flow.fares` : what that means for a single queue
* `Sound.links` : how routers come into the tree and leave it
-/

namespace RouterFabric

namespace Engine

variable {e e' : Engine} {m : Move} {r x : RouterRef} {router : Router} {c : CommandRef} {t : Task}
  {w : Waiter} {q : Queue} {gone tasks below : List Task}

/-- The tasks on top of the stack are replaced by others. What is new has nothing to do with any
router and command that what is gone had nothing to do with, and that were there already. -/
structure Swapped (e e' : Engine) (gone tasks below : List Task) : Prop where
  before : e.stack = gone ++ below
  after : e'.stack = tasks ++ below
  single : (∃ t, gone = [t]) ∨ ∀ t ∈ gone, t.isDuty = false
  spares : ∀ x c, x.index < e.routers.length → c.index < e.commands.length →
    (∀ t ∈ gone, t.Spares x c) → ∀ t ∈ tasks, t.Spares x c

/-- What a move can do to the queues, with the tasks it replaces and those that replace them. -/
inductive Flow (e : Engine) (m : Move) (e' : Engine) : List Task → List Task → Prop
  /-- all queues are left alone -/
  | still {gone tasks : List Task} : e.Same e' → (∀ t ∈ gone, t.isDuty = false) →
      (∀ t ∈ tasks, t.isOffer = false) → Flow e m e' gone tasks
  /-- a command that is not on offer enters the line -/
  | entered {gone tasks : List Task} (r : RouterRef) (c : CommandRef) :
      e.Requeued e' r { e.queue r with pending := (e.queue r).pending ++ [c] } →
      (∀ r', .offer r' c ∉ e.stack) → (∀ t ∈ gone, t.isDuty = false) → .drain r ∈ tasks →
      (∀ t ∈ tasks, t.isOffer = false) → Flow e m e' gone tasks
  /-- the head of the line is taken into the slot -/
  | taken (r : RouterRef) (c : CommandRef) (rest : List CommandRef) : m = .proceed →
      (e.queue r).slot = none → (e.queue r).pending = c :: rest →
      e.Requeued e' r ⟨rest, some c, .draining⟩ → Flow e m e' [.drain r] [.offer r c]
  /-- a pass ends -/
  | passed (r : RouterRef) : e.Same e' → ((e.queue r).slot ≠ none ∨ (e.queue r).pending = []) →
      Flow e m e' [.drain r] []
  /-- the transport accepts the slot's command -/
  | accepted (r : RouterRef) (c : CommandRef) : m = .grant (.ok ()) →
      e.Requeued e' r ((e.queue r).submitted c) → Flow e m e' [.offer r c] [.drain r]
  /-- the transport is busy -/
  | deferred (r : RouterRef) (c : CommandRef) :
      (∀ r', e'.queue r' = if r = r' then ((e.queue r).defer e.commands c).2.1 else e.queue r') →
      e'.topology.deferred = (e.topology.defer ⟨r.index⟩).deferred → Flow e m e' [.offer r c] []
  /-- the transport refuses the slot's command -/
  | refused {tasks : List Task} (r : RouterRef) (c : CommandRef) :
      e.Requeued e' r ((e.queue r).reject c).2 → .drain r ∈ tasks →
      (∀ t ∈ tasks, t.isOffer = false) → Flow e m e' [.offer r c] tasks
  /-- there is no queue -/
  | vanished (r : RouterRef) (c : CommandRef) : e.Same e' → e.queue r = {} →
      Flow e m e' [.offer r c] []
  /-- an attempt ends or is given up, and perhaps the one in the slot with it -/
  | freed {gone : List Task} (r : RouterRef) (c : CommandRef) (q : Queue) (front back : List Task) :
      (m = .giveUp ∨ ∃ arrival, m = .receive arrival) → e.Requeued e' r q →
      (q = ((e.queue r).abandon c).2 ∨ q = ((e.queue r).abandon c).2.release) →
      ((e.queue r).slot = some c ∨ ∃ t ∈ gone, ∃ w, t.waiter? = some w ∧ w.command = c) →
      (∀ t ∈ gone, t.isDuty = false) → .drain r ∈ front → (∀ t ∈ front, t.isErrand = true) →
      (∀ t ∈ back, t.isOffer = false) → Flow e m e' gone (front ++ .kick :: back)
  /-- the list of routers that wait is taken -/
  | kicked : (∀ r, e'.queue r = e.queue r) → e'.topology.deferred = [] →
      Flow e m e' [.kick] [.drainEach e.topology.deferred]
  /-- one of the routers that wait is tried -/
  | toured (id : NodeId) (ids : List NodeId) : e.Same e' →
      Flow e m e' [.drainEach (id :: ids)]
        ((e.topology.tree.get? id).toList.map .drain ++ [Task.drainEach ids])
  /-- all routers that wait have been tried -/
  | ended : e.Same e' → Flow e m e' [.drainEach []] []
  /-- routers are detached, or the detachment is refused -/
  | detached {tasks : List Task} (r : RouterRef) (freed : List RouterRef) :
      m = .call (.detach r) → e.Released e' freed → (∀ t ∈ tasks, t.isErrand = true) →
      Aftermath e freed tasks → Flow e m e' [] tasks

/-- A move does one of the things listed. -/
def Flows (e : Engine) (m : Move) (e' : Engine) : Prop :=
  ∃ gone tasks below, Swapped e e' gone tasks below ∧ Flow e m e' gone tasks

/-! ## Swaps -/

section restacked

variable {s : List Task}

theorem Same.restacked (h : Same { e with stack := s } e') : e.Same e' :=
  ⟨h.queues, h.deferred⟩

theorem Requeued.restacked (h : Requeued { e with stack := s } e' r q) : e.Requeued e' r q :=
  ⟨h.queues, h.deferred⟩

end restacked

/-- New tasks of no program and of no caller have nothing to do with anyone. -/
theorem swapped_of_errands (hs : e.stack = t :: below) (hs' : e'.stack = tasks ++ below)
    (errands : ∀ t ∈ tasks, t.isErrand = true) : Swapped e e' [t] tasks below :=
  ⟨hs, hs', by simp, fun _ _ _ _ _ t ht => Task.spares_of_errand (errands t ht)⟩

theorem swapped_onto (hs' : e'.stack = tasks ++ e.stack)
    (errands : ∀ t ∈ tasks, t.isErrand = true) : Swapped e e' [] tasks e.stack :=
  ⟨rfl, hs', by simp, fun _ _ _ _ _ t ht => Task.spares_of_errand (errands t ht)⟩

/-- The tasks that a caller leaves are its own. -/
theorem swapped_of_waiter {t : Task} {w w' : Waiter} (hs : e.stack = t :: below)
    (hs' : e'.stack = tasks ++ below) (hw : t.waiter? = some w) (same : w'.command = w.command)
    (errands : ∀ t ∈ tasks, t.isErrand = true ∨ t.waiter? = some w') :
    Swapped e e' [t] tasks below := by
  refine ⟨hs, hs', by simp, fun x c _ _ hspares t' ht' => ?_⟩
  rcases errands t' ht' with he | hw'
  · exact Task.spares_of_errand he
  · refine Task.spares_of_waiter? hw' ?_
    rw [same]
    exact (hspares t (List.mem_singleton_self t)).waits w hw

theorem still_of_errands (tasks : List Task) (hs : e.stack = t :: below)
    (hs' : e'.stack = tasks ++ below) (hduty : t.isDuty = false)
    (errands : ∀ t ∈ tasks, t.isErrand = true) (same : e.Same e') : Flows e m e' := by
  refine ⟨[t], tasks, below, swapped_of_errands hs hs' errands, .still same (fun t' ht' => ?_)
    fun t' ht' => Task.isOffer_of_errand (errands t' ht')⟩
  rw [List.mem_singleton.1 ht', hduty]

theorem isOffer_of_waiter (h : t.waiter? = some w) : t.isOffer = false := by
  cases t <;> first | rfl | cases h

theorem isDuty_of_waiter (h : t.waiter? = some w) : t.isDuty = false := by
  cases t <;> first | rfl | cases h

theorem still_of_waiter {w' : Waiter} (tasks : List Task) (hs : e.stack = t :: below)
    (hs' : e'.stack = tasks ++ below) (hw : t.waiter? = some w) (hcommand : w'.command = w.command)
    (errands : ∀ t ∈ tasks, t.isErrand = true ∨ t.waiter? = some w') (same : e.Same e') :
    Flows e m e' := by
  refine ⟨[t], tasks, below, swapped_of_waiter hs hs' hw hcommand errands,
    .still same (fun t' ht' => ?_) fun t' ht' => ?_⟩
  · rw [List.mem_singleton.1 ht', isDuty_of_waiter hw]
  · exact (errands t' ht').elim Task.isOffer_of_errand isOffer_of_waiter

/-- Nothing below a task that waits for an attempt is an offer of the same command. -/
theorem Sound.not_offered_of_waiter (h : e.Sound) (hs : e.stack = t :: below)
    (hw : t.waiter? = some w) (r : RouterRef) : .offer r w.command ∉ e.stack := by
  intro hmem
  rw [hs] at hmem
  rcases List.mem_cons.1 hmem with rfl | hmem
  · cases hw
  · have haged := h.aged
    rw [hs] at haged
    exact Nat.lt_irrefl _ ((List.pairwise_cons.1 haged).1 _ hmem w hw _ List.mem_cons_self)

/-- A command that does not exist yet is not on offer. -/
theorem Sound.not_offered_next (h : e.Sound) (r : RouterRef) :
    .offer r ⟨e.commands.length⟩ ∉ e.stack :=
  fun hmem => Nat.lt_irrefl _ ((h.tasks _ hmem).2 _ List.mem_cons_self)

/-! ## Steps -/

/-- A program goes on with a reply, or a reply that no program waits for is dropped. -/
theorem flows_passOn {reply : Reply} (hs : e.stack = .reply reply :: below) :
    Flows e m (({ e with stack := below } : Engine).passOn reply) := by
  unfold passOn
  split
  · rename_i r next rest heq
    have hbelow : below = .resume r next :: rest := heq
    refine ⟨[.reply reply, .resume r next], [.perform r (next reply)], rest,
      ⟨hs.trans (by rw [hbelow]; rfl), rfl, by simp [Task.isDuty], fun x c _ _ hspares t ht => ?_⟩,
      .still ⟨fun _ => rfl, rfl⟩ (by simp [Task.isDuty]) (by simp [Task.isOffer])⟩
    rw [List.mem_singleton.1 ht]
    have hnext := (hspares (.resume r next) (by simp)).resumes
    exact Task.spares_perform fun hr => hnext next (hr ▸ rfl) reply
  · exact still_of_errands [] hs rfl rfl (by simp) ⟨fun _ => rfl, rfl⟩

/-- A program asks for something; it goes on as it was. -/
theorem flows_asked {request : Request} {next : Reply → Program Request Answer}
    (hs : e.stack = .perform r (.ask request next) :: below) :
    Flows e m ((({ e with stack := below } : Engine).push [.resume r next]).meet r request) := by
  obtain ⟨same, tasks, hstack, errands⟩ :=
    meet_flow (({ e with stack := below } : Engine).push [.resume r next]) r request
  refine ⟨[.perform r (.ask request next)], tasks ++ [Task.resume r next], below,
    ⟨hs, hstack.trans (by simp [push]), by simp, fun x c _ _ hspares t ht => ?_⟩,
    .still ⟨same.queues, same.deferred⟩ (by simp [Task.isDuty]) fun t ht => ?_⟩
  · rcases List.mem_append.1 ht with ht | ht
    · exact Task.spares_of_errand (errands t ht)
    · rw [List.mem_singleton.1 ht]
      have hprogram := (hspares _ (List.mem_singleton_self _)).performs
      exact Task.spares_resume fun hr => (hprogram (.ask request next) (hr ▸ rfl)).2
  · rcases List.mem_append.1 ht with ht | ht
    · exact Task.isOffer_of_errand (errands t ht)
    · rw [List.mem_singleton.1 ht]
      rfl

/-- An attempt begins: its command is not on offer, and enters the line. -/
theorem flows_launched {mid : Engine} {next : Task} (router : Router)
    (hr : mid.router? r = some router)
    (hs : e.stack = t :: below) (hmid : e.Same mid) (hbelow : mid.stack = below)
    (hduty : t.isDuty = false) (hoffer : next.isOffer = false)
    (hspares : ∀ x c, c.index < e.commands.length → t.Spares x c → next.Spares x c)
    (free : ∀ r', .offer r' c ∉ e.stack) : Flows e m (mid.launch r c [next]) := by
  rcases launch_flow hr c [next] with ⟨same, hstack⟩ | ⟨requeued, hstack⟩
  · rw [hbelow] at hstack
    exact still_of_errands [.reply (.error .notFound)] hs hstack hduty
      (by simp [Task.isErrand]) (hmid.trans same)
  · rw [hbelow] at hstack
    refine ⟨[t], [.drain r, next], below, ⟨hs, hstack, by simp, fun x c' _ hc ht t' ht' => ?_⟩,
      .entered r c ?_ free (by simpa using hduty) (by simp) (by simpa [Task.isOffer] using hoffer)⟩
    · rcases List.mem_cons.1 ht' with rfl | ht'
      · exact Task.spares_of_duty rfl
      · rw [List.mem_singleton.1 ht']
        exact hspares x c' hc (ht t (List.mem_singleton_self t))
    · refine ⟨fun r' => ?_, requeued.deferred.trans hmid.deferred⟩
      rw [requeued.queues, hmid.queues, hmid.queues]

theorem Sound.flows_retry (h : e.Sound) (hs : e.stack = .attempt w :: below) :
    Flows e m (({ e with stack := below } : Engine).retry w) := by
  obtain ⟨⟨⟨hk, -⟩, -, watching, left, hp⟩, -⟩ :=
    h.tasks (.attempt w) (by rw [hs]; exact List.mem_cons_self)
  obtain ⟨router, hr⟩ := router_of_known h.toStored hk
  unfold retry
  rw [hp]
  cases left with
  | zero =>
    exact still_of_errands [.reply (.error .timeout)] hs rfl rfl
      (by simp [Task.isErrand]) ⟨fun _ => rfl, rfl⟩
  | succ left =>
    refine flows_launched router hr hs ⟨fun _ => rfl, rfl⟩ rfl rfl rfl
      (fun x c _ ht => ?_) fun r' => h.not_offered_of_waiter hs rfl r'
    exact Task.spares_of_waiter? rfl (ht.waits w rfl)

theorem flows_settled (hs : e.stack = t :: below) (hw : t.waiter? = some w)
    (hsettle : ({ e with stack := below } : Engine).settle? w = some e') : Flows e m e' := by
  obtain ⟨same, t', hstack, ht'⟩ := settle?_flow hsettle
  refine still_of_waiter [t'] hs hstack hw rfl (fun t'' ht'' => ?_) same.restacked
  rw [List.mem_singleton.1 ht'']
  exact ht'.imp id fun heq => by rw [heq]; rfl

theorem Sound.flows_drain (h : e.Sound) (hs : e.stack = .drain r :: below) :
    Flows e .proceed (({ e with stack := below } : Engine).drain r) := by
  have hpop : e.stack = [Task.drain r] ++ below := hs
  rcases (h.pop hpop).toStored.drain_flow r with
    ⟨same, hstack, hend⟩ | ⟨c, rest, hslot, hpending, requeued, hstack⟩
  · exact ⟨[.drain r], [], below, swapped_of_errands hs hstack (by simp),
      .passed r same.restacked hend⟩
  · refine ⟨[.drain r], [.offer r c], below, ⟨hs, hstack, by simp, fun x c' _ _ _ t ht => ?_⟩,
      .taken r c rest rfl hslot hpending requeued.restacked⟩
    rw [List.mem_singleton.1 ht]
    exact Task.spares_of_duty rfl

/-- An attempt that was taken out of its slot ends. -/
theorem flows_expired (hs : e.stack = .expire r c :: below) (ending : Ending) :
    Flows e m (((({ e with stack := below } : Engine).count r fun stats =>
      { stats with timeouts := stats.timeouts + 1 }).push [.hold [r] [c]]).finish c ending) := by
  have counted := same_count { e with stack := below } r fun stats =>
    { stats with timeouts := stats.timeouts + 1 }
  obtain ⟨same, notes, hstack, errands⟩ := finish_flow
    ((({ e with stack := below } : Engine).count r fun stats =>
      { stats with timeouts := stats.timeouts + 1 }).push [.hold [r] [c]]) c ending
  exact still_of_errands (notes ++ [Task.hold [r] [c]]) hs
    (hstack.trans (List.append_assoc ..).symm) rfl
    (List.forall_mem_append.2 ⟨errands, List.forall_mem_singleton.2 rfl⟩)
    ((counted.push _).trans same).restacked

/-- The routers that wait are tried one after the other. -/
theorem flows_toured (ids : List NodeId) (hs : e.stack = .drainEach ids :: below) :
    Flows e m (({ e with stack := below } : Engine).drainFirst ids) := by
  cases ids with
  | nil =>
    exact ⟨[.drainEach []], [], below, swapped_of_errands hs rfl (by simp),
      .ended ⟨fun _ => rfl, rfl⟩⟩
  | cons id ids =>
    refine ⟨[.drainEach (id :: ids)], _, below, swapped_of_errands hs rfl ?_,
      .toured id ids ⟨fun _ => rfl, rfl⟩⟩
    exact List.forall_mem_append.2
      ⟨List.forall_mem_map.2 fun _ _ => rfl, List.forall_mem_singleton.2 rfl⟩

/-! ## Answers of the transport -/

/-- A command that has its frame. -/
theorem Sound.flows_begin {style : Style} {command : Command} (h : e.Sound)
    (hs : e.stack = .allocate r command style :: below) :
    Flows e m (({ e with stack := below } : Engine).begin r command style) := by
  obtain ⟨⟨hk, -⟩, -⟩ := h.tasks (.allocate r command style) (by rw [hs]; exact List.mem_cons_self)
  obtain ⟨router, hr⟩ := router_of_known h.toStored hk
  have younger {c : CommandRef} (hc : c.index < e.commands.length) :
      (⟨e.commands.length⟩ : CommandRef) ≠ c := by
    rintro rfl
    exact Nat.lt_irrefl _ hc
  cases style with
  | waiting watching =>
    refine ⟨[.allocate r command (.waiting watching)],
      [.attempt ⟨r, ⟨e.commands.length⟩, .retrying watching e.topology.settings.attempts⟩], below,
      ⟨hs, rfl, by simp, fun x c _ hc _ t ht => ?_⟩,
      .still ⟨fun _ => rfl, rfl⟩ (by simp [Task.isDuty]) (by simp [Task.isOffer])⟩
    rw [List.mem_singleton.1 ht]
    exact Task.spares_of_waiter? rfl (younger hc)
  | callback tag =>
    exact flows_launched router hr hs ⟨fun _ => rfl, rfl⟩ rfl rfl rfl
      (fun x c _ _ => Task.spares_of_errand rfl) h.not_offered_next
  | future =>
    exact flows_launched router hr hs ⟨fun _ => rfl, rfl⟩ rfl rfl rfl
      (fun x c hc _ => Task.spares_of_waiter? rfl (younger hc)) h.not_offered_next

/-- The transport answers for a command. -/
theorem Sound.flows_offer (h : e.Sound) (hs : e.stack = .offer r c :: below)
    (answer : Except TransportFault Unit) :
    Flows e (.grant answer) (({ e with stack := below } : Engine).answerOffer r c answer) := by
  cases hr : ({ e with stack := below } : Engine).router? r with
  | none =>
    have hvoid : ({ e with stack := below } : Engine).answerOffer r c answer =
        { e with stack := below } := by
      rw [answerOffer_eq]
      rw [hr]
    rw [hvoid]
    exact ⟨[.offer r c], [], below, swapped_of_errands hs rfl (by simp),
      .vanished r c ⟨fun _ => rfl, rfl⟩ (queue_of_none (e := e) hr)⟩
  | some router =>
    cases answer with
    | ok done =>
      obtain ⟨requeued, hstack⟩ := answerOffer_accepted hr c
      exact ⟨[.offer r c], [.drain r], below,
        swapped_of_errands hs hstack (by simp [Task.isErrand]),
        .accepted r c rfl requeued.restacked⟩
    | error fault =>
      by_cases hf : fault = .busy
      · subst hf
        obtain ⟨hqueues, hdeferred, hstack⟩ := answerOffer_busy hr c
        rw [h.ids r router hr] at hdeferred
        exact ⟨[.offer r c], [], below, swapped_of_errands hs hstack (by simp),
          .deferred r c hqueues hdeferred⟩
      · obtain ⟨requeued, tasks, hstack, hdrain, errands⟩ := answerOffer_error hr c hf
        exact ⟨[.offer r c], tasks, below, swapped_of_errands hs hstack errands,
          .refused r c requeued.restacked hdrain
            fun t ht => Task.isOffer_of_errand (errands t ht)⟩

/-- The discovery of a router that has just been added has nothing to do with any other. -/
theorem still_of_added (gone : List Task) (route : Route) (hs : e.stack = gone ++ below)
    (hgone : ∀ t ∈ gone, t.isDuty = false) (same : e.Same e')
    (hs' : (∃ failure, e'.stack = .answer (.error failure) :: below) ∨
      ∃ settings, e'.stack = .perform ⟨e.routers.length⟩ (do
        Procedure.discover settings route
        return .router ⟨e.routers.length⟩) :: below) : Flows e m e' := by
  rcases hs' with ⟨failure, hs'⟩ | ⟨settings, hs'⟩
  · refine ⟨gone, [.answer (.error failure)], below,
      ⟨hs, hs', .inr hgone, fun x c _ _ _ t ht => ?_⟩, .still same hgone (by simp [Task.isOffer])⟩
    rw [List.mem_singleton.1 ht]
    exact Task.spares_of_errand rfl
  · refine ⟨gone, [.perform ⟨e.routers.length⟩ _], below,
      ⟨hs, hs', .inr hgone, fun x c hx _ _ t ht => ?_⟩, .still same hgone (by simp [Task.isOffer])⟩
    rw [List.mem_singleton.1 ht]
    refine Task.spares_perform fun hr => ?_
    rw [← hr] at hx
    exact absurd hx (Nat.lt_irrefl _)

/-! ## Callers and calls -/

/-- A caller gives up. -/
theorem Sound.flows_withdraw {deadline : Nat} (h : e.Sound)
    (hs : e.stack = .await w deadline :: below) :
    Flows e .giveUp (({ e with stack := below } : Engine).withdraw w) := by
  obtain ⟨hattends, -⟩ := h.tasks (.await w deadline) (by rw [hs]; exact List.mem_cons_self)
  obtain ⟨router, hr⟩ := router_of_known h.toStored hattends.1
  rcases withdraw_flow (e := { e with stack := below }) hr with
    ⟨same, hstack⟩ | ⟨q, front, back, hq, requeued, hstack, hdrain, hfront, hback⟩
  · exact still_of_waiter [.claimed w] hs hstack rfl rfl
      (fun t ht => .inr (by rw [List.mem_singleton.1 ht]; rfl)) same.restacked
  · have waits : ∀ t ∈ back, t.isErrand = true ∨ t.waiter? = some w :=
      fun t ht => (hback t ht).imp id fun heq => by rw [heq]; rfl
    refine ⟨[.await w deadline], front ++ .kick :: back, below,
      swapped_of_waiter hs hstack rfl rfl fun t ht => ?_,
      .freed w.router w.command q front back (.inl rfl) requeued.restacked hq
        (.inr ⟨_, List.mem_singleton_self _, w, rfl, rfl⟩) (by simp [Task.isDuty]) hdrain hfront
        fun t ht => (waits t ht).elim Task.isOffer_of_errand isOffer_of_waiter⟩
    rcases List.mem_append.1 ht with ht | ht
    · exact .inl (hfront t ht)
    · rcases List.mem_cons.1 ht with rfl | ht
      · exact .inl rfl
      · exact waits t ht

/-- A task that is put on the stack while all queues are left alone. -/
theorem still_of_pushed (hs : e'.stack = t :: e.stack) (same : e.Same e')
    (hoffer : t.isOffer = false) (hspares : ∀ x c, t.Spares x c) : Flows e m e' := by
  refine ⟨[], [t], e.stack, ⟨rfl, hs, by simp, fun x c _ _ _ t' ht => ?_⟩,
    .still same (by simp) (by simpa using hoffer)⟩
  rw [List.mem_singleton.1 ht]
  exact hspares x c

/-- The beginning of a call. -/
theorem Sound.flows_called {call : Call} (h : e.Sound) (ha : e.Allows call) :
    Flows e (.call call) (e.call call) := by
  have answered {e'' : Engine} (result : Outcome Answer)
      (hs : e''.stack = .answer result :: e.stack) (same : e.Same e'') :
      Flows e (.call call) e'' :=
    still_of_pushed hs same rfl fun x c => Task.spares_of_errand rfl
  cases call with
  | attachRoot settings => exact ha.elim
  | attachChild parent route =>
    refine still_of_added [] route rfl (by simp)
      (attachChild_flow e parent route) ?_
    rcases h.toStored.attachChild_spec parent route with ⟨-, refused⟩ | ⟨linked, -, hlinked⟩
    · exact .inl refused
    · exact hlinked.imp (·.2) (·.2)
  | detach r =>
    obtain ⟨freed, tasks, released, hstack, errands, aftermath⟩ := e.detach_flow r
    exact ⟨[], tasks, e.stack, swapped_onto hstack errands, .detached r freed rfl released
      errands aftermath⟩
  | resume r =>
    show Flows e _ (e.resume r)
    unfold Engine.resume
    split
    · exact answered _ rfl (same_push e _)
    · split
      · exact answered _ rfl (same_push e _)
      · have awake := same_updateRouter e r (f := fun router => { router with suspended := false })
          fun _ => rfl
        exact answered _ rfl (awake.push _)
  | operate r operation =>
    show Flows e _ (e.operate r operation)
    unfold Engine.operate
    split
    · exact answered _ rfl (same_push e _)
    · rename_i router hr
      exact still_of_pushed rfl (same_push e _) rfl fun x c =>
        Task.spares_perform fun _ => operation.stays_program e.topology.settings router

/-- An arrival. -/
theorem flows_received (e : Engine) (arrival : Arrival) :
    Flows e (.receive arrival) (e.receive arrival) := by
  cases relieved_receive e arrival with
  | idle tasks same hs chores =>
    have errands : ∀ t ∈ tasks ++ [Task.handled], t.isErrand = true :=
      List.forall_mem_append.2
        ⟨fun t ht => (chores t ht).1, List.forall_mem_singleton.2 rfl⟩
    exact ⟨[], tasks ++ [Task.handled], e.stack,
      swapped_onto (hs.trans (List.append_assoc ..).symm) errands,
      .still ⟨same.queues, same.deferred⟩ (by simp)
        fun t ht => Task.isOffer_of_errand (errands t ht)⟩
  | freed r c tasks hslot requeued hs hfront chores =>
    have hslot : (e.queue r).slot = some c := hslot
    have habandon : ((e.queue r).abandon c).2 = (e.queue r).release :=
      (Queue.abandon_eq _ c).2.1 hslot
    obtain ⟨front, back, rfl, hdrain⟩ := hfront
    have errands : ∀ t ∈ front ++ .kick :: (back ++ [Task.handled]), t.isErrand = true := by
      intro t ht
      simp only [List.mem_append, List.mem_cons, List.not_mem_nil, or_false] at ht chores
      rcases ht with ht | rfl | ht | rfl
      · exact chores t (.inl ht)
      · rfl
      · exact chores t (.inr (.inr ht))
      · rfl
    have hstack : (e.receive arrival).stack =
        (front ++ .kick :: (back ++ [Task.handled])) ++ e.stack :=
      hs.trans (by simp [push])
    exact ⟨[], front ++ .kick :: (back ++ [Task.handled]), e.stack, swapped_onto hstack errands,
      .freed (e := e) r c (e.queue r).release front (back ++ [Task.handled]) (.inr ⟨arrival, rfl⟩)
        ⟨requeued.queues, requeued.deferred⟩ (.inl habandon.symm) (.inl hslot) (by simp) hdrain
        (fun t ht => errands t (List.mem_append_left _ ht))
        fun t ht => Task.isOffer_of_errand
          (errands t (List.mem_append_right _ (List.mem_cons_of_mem _ ht)))⟩

/-- **Whatever a sound engine does to its queues is listed.** -/
theorem Sound.flow (h : e.Sound) (ha : ∀ call, m = .call call → e.Allows call)
    (hm : e.move? m = some e') : Flows e m e' := by
  have kept (below : List Task) : e.Same { e with stack := below } := ⟨fun _ => rfl, rfl⟩
  cases acts_of_move? hm with
  | dropped hs hd =>
    exact still_of_errands [] hs rfl (by cases hd <;> rfl) (by simp) (kept _)
  | concluded hs | unframed hs | unregistered hs =>
    exact still_of_errands [_] hs rfl rfl (by simp [Task.isErrand]) ((kept _).push _)
  | acknowledging hs =>
    exact still_of_errands [_] hs rfl rfl (by simp [Task.isErrand]) ⟨fun _ => rfl, rfl⟩
  | acknowledged hs => exact still_of_errands [] hs rfl rfl (by simp) ⟨fun _ => rfl, rfl⟩
  | asked hs => exact flows_asked hs
  | replied hs => exact flows_passOn hs
  | retried hs => exact h.flows_retry hs
  | watched hs =>
    exact still_of_waiter [.await _ _] hs rfl rfl rfl
      (fun t ht => .inr (by rw [List.mem_singleton.1 ht]; rfl)) ((kept _).push _)
  | settled hs ht hsettle =>
    refine flows_settled hs ?_ hsettle
    rcases ht with rfl | ⟨deadline, rfl⟩ <;> rfl
  | drained hs => exact h.flows_drain hs
  | kicked hs =>
    exact ⟨[.kick], [.drainEach e.topology.deferred], _,
      swapped_of_errands hs rfl (by simp [Task.isErrand]), .kicked (fun _ => rfl) rfl⟩
  | toured hs => exact flows_toured _ hs
  | expired hs => exact flows_expired hs .expired
  | announced hs => exact still_of_errands [] hs rfl rfl (by simp) ⟨fun _ => rfl, rfl⟩
  | framed hs => exact h.flows_begin hs
  | answered hs => exact h.flows_offer hs _
  | @registered below hs =>
    have hpop : e.stack = [Task.register] ++ below := hs
    obtain ⟨linked, -, hlinked⟩ := (h.pop hpop).toStored.linkRoot_spec
    exact still_of_added [.register] Route.root hpop (by simp [Task.isDuty])
      (linkRoot_flow _).restacked (hlinked.imp (·.2) (·.2))
  | gaveUp hs => exact h.flows_withdraw hs
  | collected hs => exact still_of_errands [] hs rfl rfl (by simp) (kept _)
  | called call => exact h.flows_called (ha call rfl)
  | received arrival => exact flows_received e arrival
  | elapsed ms =>
    exact ⟨[], [], e.stack, swapped_onto rfl (by simp),
      .still ⟨fun _ => rfl, rfl⟩ (by simp) (by simp)⟩

/-! ## One queue -/

theorem not_offer (hoffer : ∀ t ∈ tasks, t.isOffer = false) : .offer r c ∉ tasks := by
  intro hmem
  exact Bool.false_ne_true (hoffer _ hmem).symm

theorem not_offer_of_idle (hduty : ∀ t ∈ gone, t.isDuty = false) : .offer r c ∉ gone := by
  intro hmem
  exact Bool.false_ne_true (hduty _ hmem).symm

/-- How the queue of one router can fare in a move. -/
inductive Fares (e : Engine) (m : Move) (r : RouterRef) (gone tasks : List Task) : Queue → Prop
  /-- it is left alone, and there is no answer for the slot's command -/
  | kept : (∀ c, (e.queue r).slot = some c → .offer r c ∉ gone) → Fares e m r gone tasks (e.queue r)
  | entered (c : CommandRef) : (∀ r', .offer r' c ∉ e.stack) → (∀ t ∈ gone, t.isDuty = false) →
      Fares e m r gone tasks { e.queue r with pending := (e.queue r).pending ++ [c] }
  | taken (c : CommandRef) (rest : List CommandRef) : (e.queue r).pending = c :: rest →
      tasks = [.offer r c] → Fares e m r gone tasks ⟨rest, some c, .draining⟩
  | accepted (c : CommandRef) : m = .grant (.ok ()) → gone = [.offer r c] →
      Fares e m r gone tasks ((e.queue r).submitted c)
  | deferred (c : CommandRef) : gone = [.offer r c] →
      Fares e m r gone tasks ((e.queue r).defer e.commands c).2.1
  | refused (c : CommandRef) : gone = [.offer r c] →
      Fares e m r gone tasks ((e.queue r).reject c).2
  | freed (c : CommandRef) (q : Queue) :
      (q = ((e.queue r).abandon c).2 ∨ q = ((e.queue r).abandon c).2.release) →
      ((e.queue r).slot = some c ∨ ∃ t ∈ gone, ∃ w, t.waiter? = some w ∧ w.command = c) →
      (∀ t ∈ gone, t.isDuty = false) → Fares e m r gone tasks q
  | released : (e.queue r).slot ≠ none → Fares e m r gone tasks (e.queue r).release

theorem Flow.fares (f : Flow e m e' gone tasks) (r : RouterRef) :
    Fares e m r gone tasks (e'.queue r) := by
  have kept (same : e'.queue r = e.queue r)
      (hgone : ∀ c, (e.queue r).slot = some c → .offer r c ∉ gone) :
      Fares e m r gone tasks (e'.queue r) := by
    rw [same]
    exact .kept hgone
  have requeued {r' : RouterRef} {q : Queue}
      (hqueues : ∀ x, e'.queue x = if r' = x then q else e.queue x)
      (hother : r' ≠ r → ∀ c, .offer r c ∉ gone)
      (hq : Fares e m r' gone tasks q) : Fares e m r gone tasks (e'.queue r) := by
    by_cases hr : r' = r
    · subst hr
      rw [hqueues, if_pos rfl]
      exact hq
    · exact kept ((hqueues r).trans (if_neg hr)) fun c _ => hother hr c
  have elsewhere {r' : RouterRef} {c' : CommandRef} (hr : r' ≠ r) (c : CommandRef) :
      .offer r c ∉ [Task.offer r' c'] := by
    intro hmem
    cases List.mem_singleton.1 hmem
    exact hr rfl
  cases f with
  | still same hduty _ => exact kept (same.queues r) fun c _ => not_offer_of_idle hduty
  | entered r' c hqueue hnew hduty _ _ =>
    exact requeued hqueue.queues (fun _ c => not_offer_of_idle hduty) (.entered c hnew hduty)
  | taken r' c rest _ _ hpending hqueue =>
    exact requeued hqueue.queues (by simp) (.taken c rest hpending rfl)
  | passed r' same _ => exact kept (same.queues r) (by simp)
  | accepted r' c hm hqueue => exact requeued hqueue.queues elsewhere (.accepted c hm rfl)
  | deferred r' c hqueues _ => exact requeued hqueues elsewhere (.deferred c rfl)
  | refused r' c hqueue _ _ => exact requeued hqueue.queues elsewhere (.refused c rfl)
  | vanished r' c same hempty =>
    refine kept (same.queues r) fun c' hslot => ?_
    refine elsewhere (fun hr => ?_) c'
    rw [← hr, hempty] at hslot
    cases hslot
  | freed r' c q front back _ hqueue hq hnamed hduty _ _ _ =>
    exact requeued hqueue.queues (fun _ c => not_offer_of_idle hduty) (.freed c q hq hnamed hduty)
  | kicked hqueues _ => exact kept (hqueues r) (by simp)
  | toured id ids same => exact kept (same.queues r) (by simp)
  | ended same => exact kept (same.queues r) (by simp)
  | detached r' freed _ released _ _ =>
    by_cases hr : r ∈ freed
    · rw [released.queues, if_pos hr]
      exact .released (released.held r hr)
    · exact kept ((released.queues r).trans (if_neg hr)) (by simp)

/-- Only a pass over a queue offers something, the command that it has taken into the slot. -/
theorem Flow.offers (f : Flow e m e' gone tasks) :
    (∀ t ∈ tasks, t.isOffer = false) ∨ ∃ r c rest, m = .proceed ∧ gone = [.drain r] ∧
      tasks = [.offer r c] ∧ (e.queue r).slot = none ∧ (e.queue r).pending = c :: rest ∧
      e.Requeued e' r ⟨rest, some c, .draining⟩ := by
  cases f with
  | taken r c rest hm hslot hpending requeued =>
    exact .inr ⟨r, c, rest, hm, rfl, rfl, hslot, hpending, requeued⟩
  | still _ _ hoffer => exact .inl hoffer
  | entered _ _ _ _ _ _ hoffer => exact .inl hoffer
  | refused _ _ _ _ hoffer => exact .inl hoffer
  | passed | deferred | vanished | ended => exact .inl (by simp)
  | accepted | kicked => exact .inl (by simp [Task.isOffer])
  | freed r c q front back _ _ _ _ _ _ hfront hback =>
    refine .inl fun t ht => ?_
    rcases List.mem_append.1 ht with ht | ht
    · exact Task.isOffer_of_errand (hfront t ht)
    · rcases List.mem_cons.1 ht with rfl | ht
      · rfl
      · exact hback t ht
  | toured id ids _ =>
    exact .inl (List.forall_mem_append.2
      ⟨List.forall_mem_map.2 fun _ _ => rfl, List.forall_mem_singleton.2 rfl⟩)
  | detached _ _ _ _ errands _ => exact .inl fun t ht => Task.isOffer_of_errand (errands t ht)

/-! ## Routers in the tree -/

/-- A router comes into the tree when it is added, and leaves it at the end of a failed discovery
or else without commands. -/
structure Links (e : Engine) (m : Move) (e' : Engine) : Prop where
  was : ∀ r, e'.Linked r → e.Linked r ∨ e.router? r = none
  kept : ∀ r, e.Linked r → e'.Linked r ∨
    m = .proceed ∧ (∃ next below, e.stack = .perform r (.ask .unlink next) :: below) ∨
    (e'.queue r).members = []

theorem links_of_linked_iff (h : ∀ r, e'.Linked r ↔ e.Linked r) : e.Links m e' :=
  ⟨fun r hl => .inl ((h r).1 hl), fun r hl => .inl ((h r).2 hl)⟩

theorem Framed.links (f : e.Framed e') : e.Links m e' :=
  links_of_linked_iff f.linked_iff

theorem Forced.linked_iff {cs : List (RouterRef × CommandRef)} (f : Forced e cs e')
    (r : RouterRef) : e'.Linked r ↔ e.Linked r := by
  induction f with
  | none a => exact a.linked_iff r
  | skip a _ ih => exact ih.trans (a.linked_iff r)
  | next _ hc _ ih => exact ih.trans (hc.linked_iff r)

theorem Joined.links {route : Route} {linked : Bool} (a : e.Joined e' route linked)
    (h : e.Stored) : e.Links m e' := by
  refine ⟨fun r hl => ?_, fun r hl => .inl ((a.keeps h).linked r hl)⟩
  cases hr : e.router? r with
  | none => exact .inr rfl
  | some router =>
    obtain ⟨route', parent, he⟩ := (h.of_joined a).linked_iff.1 hl
    have hold : (⟨r.index⟩ : NodeId) ≠ ⟨e.routers.length⟩ := by
      intro heq
      have hlt := lt_of_router? hr
      rw [NodeId.mk.injEq] at heq
      omega
    exact .inl (h.linked_iff.2 ⟨route', parent, (a.places _ hold).symm.trans he⟩)

theorem Parted.linked_was (p : e.Parted e' r) (h : e.Stored) (hl : e'.Linked x) : e.Linked x := by
  obtain ⟨route, parent, he⟩ := (h.of_parted p).linked_iff.1 hl
  rcases p.places ⟨x.index⟩ with same | ⟨-, hnone⟩
  · exact h.linked_iff.2 ⟨route, parent, same.symm.trans he⟩
  · rw [hnone] at he
    cases he

theorem Parted.linked_kept (p : e.Parted e' r) (h : e.Stored) (hl : e.Linked x) (hne : x ≠ r) :
    e'.Linked x := by
  obtain ⟨route, parent, he⟩ := h.linked_iff.1 hl
  rcases p.places ⟨x.index⟩ with same | ⟨heq, -⟩
  · exact (h.of_parted p).linked_iff.2 ⟨route, parent, same.trans he⟩
  · exact absurd (ref_eq_iff.2 (NodeId.mk.inj heq)) hne

theorem Cut.members {rs : List RouterRef} (k : Cut e rs e') (r : RouterRef) :
    (e'.queue r).members = (e.queue r).members := by
  induction k with
  | none a => exact a.members r
  | next p _ ih => rw [ih, p.queues]

/-- Routers that are cut off have no commands. -/
theorem Cut.links {rs : List RouterRef} (k : Cut e rs e') (h : e.Stored)
    (hempty : ∀ r ∈ rs, (e.queue r).members = []) :
    (∀ r, e'.Linked r → e.Linked r) ∧
      ∀ r, e.Linked r → e'.Linked r ∨ (e'.queue r).members = [] := by
  induction k with
  | none a =>
    exact ⟨fun r => (a.linked_iff r).1, fun r hl => .inl ((a.linked_iff r).2 hl)⟩
  | @next e mid e' r rs p rest ih =>
    obtain ⟨was, kept⟩ := ih (h.of_parted p) fun x hx => by
      rw [p.queues]
      exact hempty x (List.mem_cons_of_mem _ hx)
    refine ⟨fun x hl => p.linked_was h (was x hl), fun x hl => ?_⟩
    by_cases hx : x = r
    · right
      rw [rest.members, p.queues, hx]
      exact hempty r List.mem_cons_self
    · exact kept x (p.linked_kept h hl hx)

/-- How a move changes which routers are in the tree. -/
theorem Sound.links (h : e.Sound) (k : Moved e m e') : e.Links m e' := by
  have hstored := h.toStored
  cases k with
  | collected result below he he' a => exact a.links
  | called k =>
    cases k with
    | answered | operated =>
      rename_i a
      exact a.links
    | attached parent route linked t he' joined ht => exact joined.links hstored
    | detached r expired mid rs tasks result he' hquiet hfits forced cut hempty =>
      obtain ⟨was, kept⟩ := cut.links (forced.stored hstored) hempty
      refine ⟨fun r hl => .inl ((forced.linked_iff r).1 (was r hl)), fun r hl => ?_⟩
      exact (kept r ((forced.linked_iff r).2 hl)).imp id .inr
  | inner _ _ k =>
    cases k with
    | quiet | returned | finished | asked | resumed | dropped | unframed | exhausted | watched
    | settled | unclaimed | unregistered =>
      rename_i a
      exact a.links
    | expired | refused | noted | completed | interrupted =>
      rename_i a
      exact a.links
    | unlinked r next below he he' parted hm =>
      refine ⟨fun x hl => .inl (parted.linked_was hstored hl), fun x hl => ?_⟩
      by_cases hx : x = r
      · subst hx
        exact .inr (.inl ⟨hm, next, below, he⟩)
      · exact .inl (parted.linked_kept hstored hl hx)
    | framed r command watching below he he' added => exact added.links
    | issued r command style t mid router below he he' issued added begun =>
      exact links_of_linked_iff fun r => (begun.linked_iff r).trans (added.linked_iff r)
    | retried w watching left router old below he he' begun => exact begun.links
    | withdrawn w deadline mid old expired t tasks below he he' hquiet hfits ht hmem changed
        forced =>
      exact links_of_linked_iff fun r => (forced.linked_iff r).trans (changed.linked_iff r)
    | rooted linked t below he he' joined ht => exact joined.links hstored

end Engine

end RouterFabric
