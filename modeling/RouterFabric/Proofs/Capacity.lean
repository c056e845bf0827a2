import RouterFabric.Proofs.Wakeups

/-!
# Freed capacity is passed on

When an attempt that the transport has accepted leaves its slot, the transport may have room again,
and all routers that wait for it are to be tried. The task for that stands on the stack together
with whatever the end of the attempt brings with it. Calls, arrivals and passes may come on top, but
none of them has to do with the command at the head of a waiting line, so that in the end it is
offered. Only a detachment that succeeds does without: the attempts that it has expired free their
slots, and nobody is tried.

* `Engine.Offers` : no command is on offer twice, nor in line, nor handed over already
* `Engine.HeldBack` : the head of a line waits for the transport
* `Turn.Frees`, `Turn.Removes` : an accepted attempt leaves its slot; a detachment succeeds
* `Engine.Pledged` : a task on the stack will come to try the router
* `Run.passes_on` : what becomes of the commands that wait when a slot is freed
* `capacity_withheld` : a detachment after which a command waits on
-/

namespace RouterFabric

namespace Queue

variable {q : Queue} {cs : Commands} {c c' : CommandRef}

/-- The command may be on offer: it is not in line, and if it holds the slot, the transport has not
accepted it yet. -/
def Offering (q : Queue) (c : CommandRef) : Prop :=
  c ∉ q.pending ∧ (q.slot = some c → q.state = .draining)

theorem Offering.enqueue (h : q.Offering c) (hne : c ≠ c') :
    ({ q with pending := q.pending ++ [c'] } : Queue).Offering c := by
  refine ⟨fun hmem => ?_, h.2⟩
  rcases List.mem_append.1 hmem with hmem | hmem
  · exact h.1 hmem
  · exact hne (List.mem_singleton.1 hmem)

theorem Offering.release (h : q.Offering c) : q.release.Offering c :=
  ⟨h.1, nofun⟩

theorem Offering.submitted (h : q.Offering c) (hne : c ≠ c') : (q.submitted c').Offering c := by
  unfold Queue.submitted
  split
  · rename_i hheld
    have hslot := holds_iff.1 (Bool.and_eq_true_iff.1 hheld).1
    refine ⟨h.1, fun hc => ?_⟩
    rw [hslot] at hc
    exact absurd (Option.some.inj hc).symm hne
  · exact h

theorem Offering.defer (h : q.Offering c) (hne : c ≠ c') : (q.defer cs c').2.1.Offering c := by
  unfold Queue.defer
  split
  · exact ⟨fun hmem => (List.mem_cons.1 hmem).elim hne h.1, nofun⟩
  · exact h

theorem Offering.reject (h : q.Offering c) : (q.reject c').2.Offering c := by
  unfold Queue.reject
  split
  · exact h.release
  · exact h

theorem Offering.abandon (h : q.Offering c) : (q.abandon c').2.Offering c := by
  unfold Queue.abandon
  split
  · exact h.release
  · split
    · exact ⟨fun hmem => h.1 (List.mem_of_mem_erase hmem), h.2⟩
    · exact h

end Queue

namespace Engine

variable {e e' : Engine} {m : Move} {r x : RouterRef} {c h : CommandRef} {t : Task} {q : Queue}
  {gone tasks below : List Task}

/-! ## What is on offer -/

/-- Every command on offer is on offer once, and its queue has it nowhere else. -/
structure Offers (e : Engine) : Prop where
  once : e.stack.Pairwise fun t t' => ∀ r c, t = .offer r c → t' ≠ .offer r c
  queues : ∀ r c, .offer r c ∈ e.stack → (e.queue r).Offering c

/-- As long as nothing new is offered, only the offers below the tasks that are replaced count. -/
theorem Offers.kept (o : e.Offers) (s : Swapped e e' gone tasks below)
    (hoffer : ∀ t ∈ tasks, t.isOffer = false)
    (queues : ∀ r c, .offer r c ∈ e.stack → .offer r c ∉ gone → (e.queue r).Offering c →
      (e'.queue r).Offering c) : e'.Offers := by
  have hbefore := o.once
  rw [s.before, List.pairwise_append] at hbefore
  obtain ⟨-, honce, hcross⟩ := hbefore
  constructor
  · rw [s.after, List.pairwise_append]
    refine ⟨?_, honce, fun t ht t' _ r c heq => ?_⟩
    · rw [List.pairwise_iff_forall_sublist]
      intro t t' hsub r c heq
      subst heq
      exact absurd (hsub.subset List.mem_cons_self) (not_offer hoffer)
    · subst heq
      exact absurd ht (not_offer hoffer)
  · intro r c hmem
    rw [s.after] at hmem
    rcases List.mem_append.1 hmem with hmem | hmem
    · exact absurd hmem (not_offer hoffer)
    · have hstack : .offer r c ∈ e.stack := by
        rw [s.before]
        exact List.mem_append_right gone hmem
      refine queues r c hstack (fun hgone => ?_) (o.queues r c hstack)
      exact hcross _ hgone _ hmem r c rfl rfl

/-- What is taken into the slot was in line, and so not on offer. -/
theorem Offers.taken {rest : List CommandRef} (o : e.Offers) (hs : e.Stored)
    (s : Swapped e e' [.drain r] [.offer r c] below) (hslot : (e.queue r).slot = none)
    (hpending : (e.queue r).pending = c :: rest)
    (requeued : e.Requeued e' r ⟨rest, some c, .draining⟩) : e'.Offers := by
  have hbelow {t : Task} (ht : t ∈ below) : t ∈ e.stack := by
    rw [s.before]
    exact List.mem_append_right _ ht
  have hfresh {c' : CommandRef} (hmem : .offer r c' ∈ below) : c' ≠ c ∧ c' ∉ rest := by
    have hline := (o.queues r c' (hbelow hmem)).1
    rw [hpending, List.mem_cons, not_or] at hline
    exact hline
  constructor
  · have honce := o.once
    rw [s.before] at honce
    rw [s.after]
    refine List.pairwise_cons.2 ⟨fun t ht r' c' heq hoffer => ?_, (List.pairwise_cons.1 honce).2⟩
    cases heq
    subst hoffer
    exact (hfresh ht).1 rfl
  · intro r' c' hmem
    rw [s.after] at hmem
    rw [requeued.queues]
    rcases List.mem_cons.1 hmem with heq | hmem
    · cases heq
      rw [if_pos rfl]
      have hnodup := (hs.orderly r).nodup
      rw [Queue.members_of_free hslot, hpending] at hnodup
      exact ⟨(List.nodup_cons.1 hnodup).1, fun _ => rfl⟩
    · split
      · rename_i hr
        subst hr
        obtain ⟨hne, hrest⟩ := hfresh hmem
        exact ⟨hrest, fun heq => absurd (Option.some.inj heq).symm hne⟩
      · exact o.queues r' c' (hbelow hmem)

/-- Whatever a move does, what it leaves on offer is on offer once and nowhere else. -/
theorem Offers.of_flow (o : e.Offers) (hs : e.Stored) (s : Swapped e e' gone tasks below)
    (f : Flow e m e' gone tasks) : e'.Offers := by
  rcases f.offers with hoffer | ⟨r, c, rest, -, rfl, rfl, hslot, hpending, requeued⟩
  · refine o.kept s hoffer fun r c hstack hgone hoffering => ?_
    have other {c' : CommandRef} (hone : gone = [.offer r c']) : c ≠ c' := by
      rintro rfl
      rw [hone] at hgone
      exact hgone (List.mem_singleton_self _)
    have fares := f.fares r
    generalize e'.queue r = q at fares ⊢
    cases fares with
    | kept _ => exact hoffering
    | entered c' hnew _ =>
      refine hoffering.enqueue ?_
      rintro rfl
      exact hnew r hstack
    | taken c' rest _ htasks =>
      rw [htasks] at hoffer
      exact absurd (List.mem_singleton_self _) (not_offer hoffer)
    | accepted c' _ hone => exact hoffering.submitted (other hone)
    | deferred c' hone => exact hoffering.defer (other hone)
    | refused c' _ => exact hoffering.reject
    | freed c' q hq _ _ =>
      rcases hq with rfl | rfl
      · exact hoffering.abandon
      · exact hoffering.abandon.release
    | released _ => exact hoffering.release
  · exact o.taken hs s hslot hpending requeued

/-! ## Slots that are freed -/

/-- What follows when an accepted attempt leaves its slot. A caller that gives up and an arrival
have all waiting routers tried, and so has a detachment that is refused. -/
inductive Relief (m : Move) : List Task → List Task → Prop
  | kicked {gone : List Task} (front back : List Task) :
      (m = .giveUp ∨ ∃ arrival, m = .receive arrival) → (∀ t ∈ front, t.isErrand = true) →
      Relief m gone (front ++ .kick :: back)
  | refused {tasks : List Task} (r : RouterRef) : m = .call (.detach r) → .kick ∈ tasks →
      (∀ t ∈ tasks, t.isErrand = true) → .answer (.ok .nothing) ∉ tasks → Relief m [] tasks
  | removed {tasks : List Task} (r : RouterRef) : m = .call (.detach r) →
      .answer (.ok .nothing) ∈ tasks → (∀ t ∈ tasks, t.isDuty = false) → Relief m [] tasks

theorem Relief.ne_proceed (k : Relief m gone tasks) : m ≠ .proceed := by
  rintro rfl
  cases k with
  | kicked _ _ hm _ => rcases hm with hm | ⟨_, hm⟩ <;> cases hm
  | refused _ hm _ _ _ => cases hm
  | removed _ hm _ _ => cases hm

/-- The line of a free slot and the list of waiting routers are as they were. -/
def Steadies (e e' : Engine) : Prop :=
  (∀ x, (e.queue x).slot = none → e'.queue x = e.queue x) ∧
    e'.topology.deferred = e.topology.deferred

theorem Requeued.steadies (requeued : e.Requeued e' r q) (hslot : (e.queue r).slot = some c) :
    e.Steadies e' := by
  refine ⟨fun x hx => requeued.off ?_, requeued.deferred⟩
  rintro rfl
  rw [hslot] at hx
  cases hx

/-- An accepted attempt leaves its slot in one of these ways only. -/
theorem Flow.frees (f : Flow e m e' gone tasks) (o : e.Offers) (s : Swapped e e' gone tasks below)
    (hstate : (e.queue r).state = .inflight) (hslot : (e.queue r).slot = some c)
    (hfree : (e'.queue r).slot ≠ some c) : Relief m gone tasks ∧ e.Steadies e' := by
  have kept (same : (e'.queue r).slot = (e.queue r).slot) :
      Relief m gone tasks ∧ e.Steadies e' := by
    rw [same] at hfree
    exact absurd hslot hfree
  have other {r' : RouterRef} {q : Queue}
      (hqueues : ∀ x, e'.queue x = if r' = x then q else e.queue x)
      (hq : r' = r → q.slot = (e.queue r).slot) : Relief m gone tasks ∧ e.Steadies e' := by
    refine kept ?_
    rw [hqueues]
    split
    · rename_i hr
      exact hq hr
    · rfl
  -- what is on offer has not been accepted
  have offered {r' : RouterRef} {c' : CommandRef} (hgone : .offer r' c' ∈ gone) (hr : r' = r) :
      (e.queue r).slot ≠ some c' := by
    subst hr
    intro heq
    have hstack : .offer r' c' ∈ e.stack := by
      rw [s.before]
      exact List.mem_append_left below hgone
    rw [(o.queues r' c' hstack).2 heq] at hstate
    cases hstate
  cases f with
  | still same _ _ => exact kept (congrArg Queue.slot (same.queues r))
  | entered r' c' requeued _ _ _ _ => exact other requeued.queues fun hr => by rw [hr]
  | taken r' c' rest _ hnone _ requeued =>
    refine other requeued.queues fun hr => ?_
    rw [hr, hslot] at hnone
    cases hnone
  | passed r' same _ => exact kept (congrArg Queue.slot (same.queues r))
  | accepted r' c' _ requeued =>
    refine other requeued.queues fun hr => ?_
    rw [Queue.slot_submitted, hr]
  | deferred r' c' hqueues _ =>
    refine other hqueues fun hr => ?_
    have hne := offered (List.mem_singleton_self _) hr
    rw [← hr] at hne ⊢
    rw [Queue.defer_of_ne hne]
  | refused r' c' requeued _ _ =>
    refine other requeued.queues fun hr => ?_
    have hne := offered (List.mem_singleton_self _) hr
    rw [← hr] at hne ⊢
    rw [Queue.reject_of_ne hne]
  | vanished r' c' same _ => exact kept (congrArg Queue.slot (same.queues r))
  | freed r' c' q front back hm requeued hq _ _ _ hfront _ =>
    by_cases hr : r' = r
    · subst hr
      exact ⟨.kicked front back hm hfront, requeued.steadies hslot⟩
    · exact kept (congrArg Queue.slot (requeued.off (Ne.symm hr)))
  | kicked hqueues _ => exact kept (congrArg Queue.slot (hqueues r))
  | toured id ids same => exact kept (congrArg Queue.slot (same.queues r))
  | ended same => exact kept (congrArg Queue.slot (same.queues r))
  | detached r' freed hm released errands aftermath =>
    refine ⟨?_, fun x hx => ?_, released.deferred⟩
    · cases aftermath with
      | done hanswer hduty _ => exact .removed r' hm hanswer hduty
      | refused hanswer hkick _ => exact .refused r' hm hkick errands hanswer
    · rw [released.queues]
      exact if_neg fun hmem => released.held x hmem hx

/-! ## Commands that wait for the transport -/

/-- The command at the head of an attached router's line waits for the transport: the slot is free,
and the router is on the list of those that wait. -/
def HeldBack (e : Engine) (x : RouterRef) (h : CommandRef) : Prop :=
  e.Linked x ∧ ⟨x.index⟩ ∈ e.topology.deferred ∧ (e.queue x).slot = none ∧
    ∃ rest, (e.queue x).pending = h :: rest

/-- A router with commands stays in the tree, unless a program takes it out. -/
theorem Links.stays (links : e.Links m e') (hl : e.Linked x) (hmem : h ∈ (e'.queue x).members)
    (hprogram : m = .proceed → ∀ next below, e.stack ≠ .perform x (.ask .unlink next) :: below) :
    e'.Linked x := by
  rcases links.kept x hl with hl' | ⟨hm, next, below, hs⟩ | hempty
  · exact hl'
  · exact absurd hs (hprogram hm next below)
  · rw [hempty] at hmem
    cases hmem

theorem HeldBack.of_relief (k : e.HeldBack x h) (relief : Relief m gone tasks)
    (steady : e.Steadies e') (links : e.Links m e') : e'.HeldBack x h := by
  obtain ⟨hl, hdeferred, hslot, rest, hpending⟩ := k
  have hq := steady.1 x hslot
  have hmem : h ∈ (e'.queue x).members := by
    rw [hq, Queue.mem_members, hpending]
    exact .inr List.mem_cons_self
  refine ⟨links.stays hl hmem fun hm => absurd hm relief.ne_proceed, ?_, ?_, rest, ?_⟩
  · rw [steady.2]
    exact hdeferred
  · rw [hq, hslot]
  · rw [hq, hpending]

/-- The task will come to try the router. -/
def Promises (e : Engine) (x : RouterRef) : Task → Prop
  | .kick => ⟨x.index⟩ ∈ e.topology.deferred
  | .drainEach ids => ⟨x.index⟩ ∈ ids
  | .drain r => r = x
  | _ => False

theorem Promises.isDuty (h : e.Promises x t) : t.isDuty = true := by
  cases t <;> first | rfl | exact h.elim

/-- The head of the router's line waits while a task will come to try the router, and what stands
above that task has nothing to do with either. -/
structure Pledged (e : Engine) (x : RouterRef) (h : CommandRef) : Prop where
  linked : e.Linked x
  slot : (e.queue x).slot = none
  head : ∃ rest, (e.queue x).pending = h :: rest
  task : ∃ front t back, e.stack = front ++ t :: back ∧ (∀ t ∈ front, t.Spares x h) ∧ e.Promises x t

/-- Where a slot is freed and no router is removed, those that wait are tried. -/
theorem HeldBack.pledged (k : e'.HeldBack x h) (s : Swapped e e' gone tasks below)
    (relief : Relief m gone tasks) (hanswer : .answer (.ok .nothing) ∈ tasks →
      gone = [] → ∀ r, m ≠ .call (.detach r)) : e'.Pledged x h := by
  obtain ⟨hl, hdeferred, hslot, hhead⟩ := k
  have promised (front back : List Task) (htasks : tasks = front ++ .kick :: back)
      (hfront : ∀ t ∈ front, t.isErrand = true) : e'.Pledged x h := by
    refine ⟨hl, hslot, hhead, front, .kick, back ++ below, ?_, fun t ht => ?_, hdeferred⟩
    · rw [s.after, htasks]
      simp
    · exact Task.spares_of_errand (hfront t ht)
  cases relief with
  | kicked front back _ hfront => exact promised front back rfl hfront
  | refused r _ hkick errands _ =>
    obtain ⟨front, back, htasks⟩ := List.append_of_mem hkick
    refine promised front back htasks fun t ht => errands t ?_
    rw [htasks]
    exact List.mem_append_left _ ht
  | removed r hm hdone _ => exact absurd hm (hanswer hdone rfl r)

/-! ## A pledge is kept -/

theorem Promises.of_deferred (h : e.Promises x t)
    (hd : ⟨x.index⟩ ∈ e.topology.deferred → ⟨x.index⟩ ∈ e'.topology.deferred) :
    e'.Promises x t := by
  cases t with
  | kick => exact hd h
  | drain | drainEach => exact h
  | _ => exact h.elim

/-- A task that will come to try the router stays, or tasks take its place that will. -/
theorem Flow.promises {rest : List CommandRef} (f : Flow e m e' gone tasks) (hs : e.Stored)
    (hl : e.Linked x) (hslot : (e.queue x).slot = none) (hpending : (e.queue x).pending = h :: rest)
    (hoffer : tasks ≠ [.offer x h]) (ht : e.Promises x t) :
    (t ∈ gone → ∃ t' ∈ tasks, e'.Promises x t') ∧
      (e'.Promises x t ∨ ∃ t' ∈ tasks, e'.Promises x t') := by
  have idle (hduty : ∀ t ∈ gone, t.isDuty = false)
      (hd : e'.topology.deferred = e.topology.deferred) :
      (t ∈ gone → ∃ t' ∈ tasks, e'.Promises x t') ∧
        (e'.Promises x t ∨ ∃ t' ∈ tasks, e'.Promises x t') := by
    refine ⟨fun hgone => ?_, .inl (ht.of_deferred fun hmem => hd ▸ hmem)⟩
    exact absurd ((hduty t hgone).symm.trans ht.isDuty) Bool.false_ne_true
  have single {t₀ : Task} (hgone : e.Promises x t₀ → ∃ t' ∈ tasks, e'.Promises x t')
      (hd : ⟨x.index⟩ ∈ e.topology.deferred → ⟨x.index⟩ ∈ e'.topology.deferred) :
      (t ∈ [t₀] → ∃ t' ∈ tasks, e'.Promises x t') ∧
        (e'.Promises x t ∨ ∃ t' ∈ tasks, e'.Promises x t') := by
    refine ⟨fun hmem => hgone ?_, .inl (ht.of_deferred hd)⟩
    rw [← List.mem_singleton.1 hmem]
    exact ht
  cases f with
  | still same hduty _ => exact idle hduty same.deferred
  | entered r c requeued _ hduty _ _ => exact idle hduty requeued.deferred
  | taken r c rest' _ _ hhead requeued =>
    refine single (fun hr => ?_) fun hmem => requeued.deferred ▸ hmem
    have hr : r = x := hr
    subst hr
    rw [hpending, List.cons.injEq] at hhead
    rw [hhead.1] at hoffer
    exact absurd rfl hoffer
  | passed r same hend =>
    refine single (fun hr => ?_) fun hmem => same.deferred ▸ hmem
    have hr : r = x := hr
    subst hr
    rcases hend with hend | hend
    · exact absurd hslot hend
    · rw [hpending] at hend
      cases hend
  | accepted r c _ requeued => exact single False.elim fun hmem => requeued.deferred ▸ hmem
  | deferred r c _ hdeferred =>
    refine single False.elim fun hmem => ?_
    rw [hdeferred, Topology.mem_defer]
    exact .inl hmem
  | refused r c requeued _ _ => exact single False.elim fun hmem => requeued.deferred ▸ hmem
  | vanished r c same _ => exact single False.elim fun hmem => same.deferred ▸ hmem
  | freed r c q front back _ requeued _ _ hduty _ _ _ => exact idle hduty requeued.deferred
  | kicked _ _ =>
    have taken (hmem : ⟨x.index⟩ ∈ e.topology.deferred) :
        ∃ t' ∈ [Task.drainEach e.topology.deferred], e'.Promises x t' :=
      ⟨_, List.mem_singleton_self _, hmem⟩
    refine ⟨fun hmem => taken ?_, ?_⟩
    · rw [List.mem_singleton.1 hmem] at ht
      exact ht
    · cases t with
      | kick => exact .inr (taken ht)
      | drain | drainEach => exact .inl ht
      | _ => exact ht.elim
  | toured id ids same =>
    refine single (fun hmem => ?_) fun hmem => same.deferred ▸ hmem
    have hmem : ⟨x.index⟩ ∈ id :: ids := hmem
    rcases List.mem_cons.1 hmem with rfl | hmem
    · refine ⟨.drain x, ?_, rfl⟩
      rw [hs.get?_of_linked hl]
      exact List.mem_cons_self
    · exact ⟨.drainEach ids, List.mem_append_right _ (List.mem_singleton_self _), hmem⟩
  | ended same =>
    exact single (fun hmem => absurd hmem List.not_mem_nil) fun hmem => same.deferred ▸ hmem
  | detached r freed _ released _ _ =>
    refine ⟨fun hmem => absurd hmem List.not_mem_nil, .inl (ht.of_deferred fun hmem => ?_)⟩
    exact released.deferred ▸ hmem

/-- The head of a line stays where it is until it is taken into the slot. -/
theorem Flow.head_kept {rest : List CommandRef} (f : Flow e m e' gone tasks)
    (hspares : ∀ t ∈ gone, t.Spares x h) (hslot : (e.queue x).slot = none)
    (hpending : (e.queue x).pending = h :: rest) (hoffer : tasks ≠ [.offer x h]) :
    (e'.queue x).slot = none ∧ ∃ rest, (e'.queue x).pending = h :: rest := by
  have fares := f.fares x
  generalize e'.queue x = q at fares ⊢
  have free (c : CommandRef) : (e.queue x).slot ≠ some c := by
    rw [hslot]
    exact (Option.some_ne_none c).symm
  -- an answer for another command than the slot's changes nothing
  have same (hq : q = e.queue x) : q.slot = none ∧ ∃ rest, q.pending = h :: rest := by
    rw [hq]
    exact ⟨hslot, rest, hpending⟩
  cases fares with
  | kept _ => exact same rfl
  | entered c _ _ =>
    rw [hpending]
    exact ⟨hslot, rest ++ [c], rfl⟩
  | taken c rest' hhead htasks =>
    rw [hpending, List.cons.injEq] at hhead
    rw [hhead.1] at hoffer
    exact absurd htasks hoffer
  | accepted c _ _ => exact same (Queue.submitted_of_ne (free c))
  | deferred c _ => exact same (Queue.defer_of_ne (free c))
  | refused c _ => exact same (Queue.reject_of_ne (free c))
  | freed c q hq hnamed _ =>
    have hne : h ≠ c := by
      rcases hnamed with hheld | ⟨t, ht, w, hw, rfl⟩
      · exact absurd hheld (free c)
      · exact ((hspares t ht).waits w hw).symm
    have hafter := (Queue.abandon_eq (e.queue x) c).2.2 (free c)
    have hline : ((e.queue x).abandon c).2.pending = h :: rest.erase c := by
      rw [hafter, hpending]
      exact List.erase_cons_tail (by simpa using hne)
    rcases hq with rfl | rfl
    · exact ⟨by rw [hafter]; exact hslot, _, hline⟩
    · exact ⟨rfl, _, hline⟩
  | released hheld => exact absurd hslot hheld

/-- A task that looks after queues is below the tasks that are replaced, or it is the only one that
is. -/
theorem Swapped.cut {front back : List Task} (s : Swapped e e' gone tasks below)
    (hs : e.stack = front ++ t :: back) (hduty : t.isDuty = true) :
    (∃ rest, front = gone ++ rest ∧ below = rest ++ t :: back) ∨ gone = [t] ∧ below = back := by
  have hsplit := s.before.symm.trans hs
  rcases List.append_eq_append_iff.1 hsplit with ⟨rest, hfront, hbelow⟩ | ⟨more, hgone, hmore⟩
  · exact .inl ⟨rest, hfront, hbelow⟩
  · cases more with
    | nil =>
      rw [List.append_nil] at hgone
      rw [List.nil_append] at hmore
      exact .inl ⟨[], by rw [hgone, List.append_nil], hmore.symm⟩
    | cons t' more =>
      obtain ⟨rfl, hback⟩ := List.cons.inj hmore
      rcases s.single with ⟨t₀, hone⟩ | hidle
      · rw [hone] at hgone
        have hlength := congrArg List.length hgone
        simp only [List.length_cons, List.length_nil, List.length_append] at hlength
        have hfront : front = [] := List.eq_nil_of_length_eq_zero (by omega)
        have hmore : more = [] := List.eq_nil_of_length_eq_zero (by omega)
        rw [hfront, hmore] at hgone
        rw [hmore] at hback
        exact .inr ⟨hone.trans hgone, hback.symm⟩
      · have hmem : t ∈ gone := by
          rw [hgone]
          exact List.mem_append_right _ List.mem_cons_self
        exact absurd ((hidle t hmem).symm.trans hduty) Bool.false_ne_true

/-- **A pledge is kept:** in every move the head of the line is offered to the transport, or the
pledge stays. -/
theorem Pledged.of_flow (k : e.Pledged x h) (hs : e.Stored) (s : Swapped e e' gone tasks below)
    (f : Flow e m e' gone tasks) (links : e.Links m e') (hoffer : tasks ≠ [.offer x h]) :
    e'.Pledged x h := by
  obtain ⟨hl, hslot, ⟨rest, hpending⟩, front, t, back, hstack, hfront, hpromise⟩ := k
  obtain ⟨router, hr⟩ := router_of_known hs (.inl hl)
  have hx : x.index < e.routers.length := lt_of_router? hr
  have hqueued : h ∈ (e.queue x).members := by
    rw [Queue.mem_members, hpending]
    exact .inr List.mem_cons_self
  have hh : h.index < e.commands.length := hs.lt_of_queued ⟨x, hqueued⟩
  have cut := s.cut hstack hpromise.isDuty
  have hgone : ∀ t ∈ gone, t.Spares x h := by
    intro t₀ ht₀
    rcases cut with ⟨rest', hsplit, -⟩ | ⟨hone, -⟩
    · exact hfront t₀ (hsplit ▸ List.mem_append_left _ ht₀)
    · rw [hone, List.mem_singleton] at ht₀
      rw [ht₀]
      exact Task.spares_of_duty hpromise.isDuty
  have htasks := s.spares x h hx hh hgone
  obtain ⟨hslot', rest', hpending'⟩ := f.head_kept hgone hslot hpending hoffer
  have hqueued' : h ∈ (e'.queue x).members := by
    rw [Queue.mem_members, hpending']
    exact .inr List.mem_cons_self
  have hlinked : e'.Linked x := by
    refine links.stays hl hqueued' fun _ next below' hprogram => ?_
    rw [hprogram] at hstack
    cases front with
    | nil =>
      cases hstack
      exact hpromise.elim
    | cons t₀ front =>
      cases hstack
      exact ((hfront _ List.mem_cons_self).performs _ rfl).1 rfl
  refine ⟨hlinked, hslot', ⟨rest', hpending'⟩, ?_⟩
  -- what takes the place of the task is among the new ones, which spare the command
  have replaced (hnew : ∃ t' ∈ tasks, e'.Promises x t') : ∃ front t back,
      e'.stack = front ++ t :: back ∧ (∀ t ∈ front, t.Spares x h) ∧ e'.Promises x t := by
    obtain ⟨t', ht', hpromise'⟩ := hnew
    obtain ⟨new, more, hsplit⟩ := List.append_of_mem ht'
    refine ⟨new, t', more ++ below, ?_, fun t₀ ht₀ => htasks t₀ ?_, hpromise'⟩
    · rw [s.after, hsplit, List.append_assoc, List.cons_append]
    · rw [hsplit]
      exact List.mem_append_left _ ht₀
  obtain ⟨hlost, hstays⟩ := f.promises hs hl hslot hpending hoffer hpromise
  rcases cut with ⟨rest₀, hsplit, hbelow⟩ | ⟨hone, -⟩
  · rcases hstays with hpromise' | hnew
    · refine ⟨tasks ++ rest₀, t, back, ?_, fun t₀ ht₀ => ?_, hpromise'⟩
      · rw [s.after, hbelow, List.append_assoc]
      · rcases List.mem_append.1 ht₀ with ht₀ | ht₀
        · exact htasks t₀ ht₀
        · exact hfront t₀ (hsplit ▸ List.mem_append_right _ ht₀)
    · exact replaced hnew
  · refine replaced (hlost ?_)
    rw [hone]
    exact List.mem_singleton_self t

/-- What is put on offer is in the slot. -/
theorem Flow.taken_of_offer (f : Flow e m e' gone tasks) (ht : .offer r c ∈ tasks) :
    m = .proceed ∧ gone = [.drain r] ∧ tasks = [.offer r c] ∧ (e'.queue r).slot = some c := by
  rcases f.offers with hoffer | ⟨r', c', rest, hm, hgone, rfl, -, -, requeued⟩
  · exact absurd ht (not_offer hoffer)
  · cases List.mem_singleton.1 ht
    exact ⟨hm, hgone, rfl, by rw [requeued.on]⟩

end Engine

open Engine

variable {settings : Settings} {turns later earlier : List Turn} {turn : Turn} {e e' : Engine}
  {m : Move} {r x : RouterRef} {c h : CommandRef}

/-! ## Turns -/

/-- An attempt that the transport has accepted leaves the slot of the router. -/
def Turn.Frees (turn : Turn) (r : RouterRef) : Prop :=
  (turn.before.queue r).state = .inflight ∧
    ∃ c, (turn.before.queue r).slot = some c ∧ (turn.after.queue r).slot ≠ some c

/-- Routers are detached, with success. -/
def Turn.Removes (turn : Turn) : Prop :=
  ∃ r tasks, turn.move = .call (.detach r) ∧ turn.after.stack = tasks ++ turn.before.stack ∧
    .answer (.ok .nothing) ∈ tasks

/-! ## Runs -/

theorem Run.offers (run : Run settings turns e) : e.Offers := by
  induction run with
  | start =>
    have hnone (r : RouterRef) (c : CommandRef) : .offer r c ∉ (opening settings).stack := by
      rcases stack_opening settings with hs | ⟨failure, hs⟩ <;> simp [hs]
    constructor
    · rcases stack_opening settings with hs | ⟨failure, hs⟩ <;>
        · rw [hs]
          exact List.pairwise_singleton _ _
    · exact fun r c hmem => absurd hmem (hnone r c)
  | next prior ha hm ih =>
    obtain ⟨gone, tasks, below, swapped, flow⟩ := prior.sound.flow ha hm
    exact ih.of_flow prior.sound.toStored swapped flow

/-- What a pass puts on offer is what the transport is asked to take. -/
theorem offers?_of_taken {below : List Task} (sound : e'.Sound) (hm : m = .proceed)
    (hbefore : e.stack = .drain r :: below) (hafter : e'.stack = .offer r c :: below)
    (hslot : (e'.queue r).slot = some c) :
    ∃ command, Turn.offers? ⟨e, m, e'⟩ = some (r, c, command) := by
  have hmem : c ∈ (e'.queue r).members := Queue.mem_members.2 (.inl hslot)
  obtain ⟨command, hc, -⟩ := sound.toStored.members r c hmem
  refine ⟨command, ?_⟩
  unfold Turn.offers?
  simp only [hm, hbefore, hafter, if_true]
  rw [hc]
  rfl

/-- As long as a pledge stands nothing has been offered, and it stands until then. -/
theorem Run.offered_of_pledged (run : Run settings (later ++ turn :: earlier) e)
    (pledged : turn.after.Pledged x h) :
    e.Pledged x h ∨ ∃ turn' ∈ later, ∃ command, turn'.offers? = some (x, h, command) := by
  induction later generalizing e with
  | nil =>
    cases run
    exact .inl pledged
  | cons turn' later ih =>
    cases run with
    | @next _ e e' m prior ha hm =>
      rcases ih prior with k | ⟨turn'', hmem, hoffers⟩
      · obtain ⟨gone, tasks, below, swapped, flow⟩ := prior.sound.flow ha hm
        by_cases hoffer : tasks = [.offer x h]
        · right
          subst hoffer
          obtain ⟨hproceed, rfl, -, hslot⟩ := flow.taken_of_offer (List.mem_singleton_self _)
          have sound := (prior.next ha hm).sound
          exact ⟨_, List.mem_cons_self,
            offers?_of_taken sound hproceed swapped.before swapped.after hslot⟩
        · left
          exact k.of_flow prior.sound.toStored swapped flow
            (prior.sound.links (prior.moved ha hm)) hoffer
      · exact .inr ⟨turn'', List.mem_cons_of_mem _ hmem, hoffers⟩

/-- The state before a turn of a run, and what is known of the turn. -/
theorem Run.turn_spec (run : Run settings (later ++ turn :: earlier) e) :
    Run settings earlier turn.before ∧
      (∀ call, turn.move = .call call → turn.before.Allows call) ∧
      turn.before.move? turn.move = some turn.after := by
  induction later generalizing e with
  | nil =>
    cases run with
    | next prior ha hm => exact ⟨prior, ha, hm⟩
  | cons turn' later ih =>
    cases run with
    | next prior ha hm => exact ih prior

/-- **What becomes of the commands that wait when a slot is freed.** In a run that comes to rest
after an attempt that the transport had accepted has left its slot, the head of every line that was
held back is offered to the transport again, unless it was a detachment that freed the slot and
succeeded. Such a detachment leaves the line waiting, and nothing to do that would try it. -/
theorem Run.passes_on (run : Run settings (later ++ turn :: earlier) e) (idle : e.stack = [])
    (frees : turn.Frees r) (waits : turn.before.HeldBack x h) :
    (¬ turn.Removes → ∃ turn' ∈ later, ∃ command, turn'.offers? = some (x, h, command)) ∧
      (turn.Removes → turn.after.HeldBack x h ∧ ∃ tasks,
        turn.after.stack = tasks ++ turn.before.stack ∧ ∀ t ∈ tasks, t.isDuty = false) := by
  obtain ⟨prior, ha, hm⟩ := run.turn_spec
  obtain ⟨hstate, c, hslot, hfree⟩ := frees
  have sound := prior.sound
  obtain ⟨gone, tasks, below, swapped, flow⟩ := sound.flow ha hm
  obtain ⟨relief, steady⟩ := flow.frees prior.offers swapped hstate hslot hfree
  have waits' := waits.of_relief relief steady (sound.links (prior.moved ha hm))
  refine ⟨fun hremoves => ?_, fun hremoves => ⟨waits', ?_⟩⟩
  · have pledged : turn.after.Pledged x h := by
      refine waits'.pledged swapped relief fun hanswer hgone r' hmove => hremoves ?_
      subst hgone
      have hbelow : turn.before.stack = below := swapped.before
      exact ⟨r', tasks, hmove, hbelow ▸ swapped.after, hanswer⟩
    rcases run.offered_of_pledged pledged with k | offered
    · obtain ⟨front, t, back, hstack, -⟩ := k.task
      rw [idle] at hstack
      cases front <;> cases hstack
    · exact offered
  · obtain ⟨r', tasks', hmove, hafter, hanswer⟩ := hremoves
    have same (hbelow : turn.before.stack = below) : tasks' = tasks := by
      rw [← hbelow] at swapped
      exact List.append_cancel_right (hafter.symm.trans swapped.after)
    cases relief with
    | kicked front back hcause _ =>
      rw [hmove] at hcause
      rcases hcause with hcause | ⟨_, hcause⟩ <;> cases hcause
    | refused _ _ _ _ hrefused => exact absurd (same swapped.before ▸ hanswer) hrefused
    | removed _ _ _ hduty => exact ⟨tasks', hafter, same swapped.before ▸ hduty⟩

/-! ## Two runs in which a slot is freed -/

/-- A turn of a replayed run, with what a check of it says. -/
theorem exists_turn_of_replay? (settings : Settings) (moves : List Move) (k : Nat)
    (check : List Turn → Turn → Engine → Bool)
    (played : (replay? settings moves).any (fun (turns, e) =>
      (turns[k]?).any fun turn => check (turns.take k) turn e) = true) :
    ∃ later turn earlier e, Run settings (later ++ turn :: earlier) e ∧
      check later turn e = true := by
  obtain ⟨turns, e, run, hcheck⟩ := exists_of_replay? played
  obtain ⟨turn, hturn, hcheck⟩ := (Option.any_eq_true _ _).1 hcheck
  obtain ⟨hk, rfl⟩ := List.getElem?_eq_some_iff.1 hturn
  refine ⟨turns.take k, turns[k], turns.drop (k + 1), e, ?_, hcheck⟩
  rw [List.getElem_cons_drop, List.take_append_drop]
  exact run

/-- A router is attached below the host router and read with a callback, and the transport takes the
request; then the host router is read while the transport is busy. -/
def crowdedMoves : List Move :=
  hostMoves hostWords ++
  ([.call (.attachChild ⟨0⟩ ⟨1⟩), .proceed, .grant (.ok ()), .proceed, .proceed, .grant (.ok ()),
    .proceed, .proceed, .receive (.sent (some (.command ⟨1⟩ ⟨2⟩ 1))), .collect,
    .receive (.received .read .read (ReadResponse.encode
      ⟨⟨1⟩, ⟨.router, 0, 0, Register.basicDwords, 0⟩,
        [0x12348087, 0x00120000, 0, 0, 0, 0, 0, 0, 0]⟩)),
    .proceed, .proceed, .proceed, .proceed, .collect, .proceed, .proceed, .proceed, .proceed,
    .proceed, .collect] : List Move) ++
  ([.call (.operate ⟨1⟩ (.transfer (.read .router 0 0 1) (.callback 1))), .proceed, .grant (.ok ()),
    .proceed, .grant (.ok ()), .proceed, .proceed, .proceed, .collect,
    .call (.operate ⟨0⟩ (.transfer (.read .router 0 0 1) (.callback 2))), .proceed, .grant (.ok ()),
    .proceed, .grant (.error .busy), .proceed, .proceed, .collect] : List Move)

/-- In a turn the slot of the lower router is freed while the host router waits. -/
def freesLower (turn : Turn) : Bool :=
  (turn.before.queue ⟨1⟩).state == .inflight && (turn.before.queue ⟨1⟩).slot == some ⟨2⟩ &&
    (turn.after.queue ⟨1⟩).slot == none && turn.before.topology.tree.get? ⟨0⟩ == some ⟨0⟩ &&
    turn.before.topology.deferred == [⟨0⟩] && (turn.before.queue ⟨0⟩).slot == none &&
    (turn.before.queue ⟨0⟩).pending == [⟨3⟩]

theorem freesLower_spec (hcheck : freesLower turn = true) :
    turn.Frees ⟨1⟩ ∧ turn.before.HeldBack ⟨0⟩ ⟨3⟩ := by
  simp only [freesLower, Bool.and_eq_true, beq_iff_eq] at hcheck
  obtain ⟨⟨⟨⟨⟨⟨hstate, hslot⟩, hfree⟩, hget⟩, hdeferred⟩, hnone⟩, hpending⟩ := hcheck
  refine ⟨⟨hstate, ⟨2⟩, hslot, ?_⟩, ⟨⟨0⟩, hget⟩, ?_, hnone, [], hpending⟩
  · rw [hfree]
    exact (Option.some_ne_none _).symm
  · rw [hdeferred]
    exact List.mem_singleton_self _

/-- An arrival is dealt with in a turn. -/
def Turn.hears (turn : Turn) : Bool :=
  match turn.move with
  | .receive _ => true
  | _ => false

/-- The request of the lower router is answered. -/
def answeredMoves : List Move :=
  crowdedMoves ++
  ([.receive (.sent (some (.command ⟨1⟩ ⟨3⟩ 1))), .collect,
    .receive (.received .read .read (ReadResponse.encode ⟨⟨1⟩, ⟨.router, 0, 0, 1, 1⟩, [7]⟩)),
    .back, .proceed, .proceed, .proceed, .proceed, .grant (.ok ()), .proceed, .proceed, .proceed,
    .collect] : List Move)

/-- Then the request of the host router is offered again. -/
theorem answer_passes_on : ∃ later turn earlier e, Run {} (later ++ turn :: earlier) e ∧
    turn.Frees ⟨1⟩ ∧ turn.before.HeldBack ⟨0⟩ ⟨3⟩ ∧
    ∃ turn' ∈ later, ∃ command, turn'.offers? = some (⟨0⟩, ⟨3⟩, command) := by
  obtain ⟨later, turn, earlier, e, run, hcheck⟩ := exists_turn_of_replay? {}
    answeredMoves.reverse 10
    (fun _ turn e => e.stack.isEmpty && freesLower turn && turn.hears) (by decide +kernel)
  simp only [Bool.and_eq_true, List.isEmpty_iff] at hcheck
  obtain ⟨⟨idle, hfrees⟩, hmove⟩ := hcheck
  obtain ⟨frees, waits⟩ := freesLower_spec hfrees
  refine ⟨later, turn, earlier, e, run, frees, waits, (run.passes_on idle frees waits).1 ?_⟩
  rintro ⟨r, tasks, heq, -⟩
  rw [Turn.hears, heq] at hmove
  cases hmove

/-- The lower router is detached, when its attempt has held the slot for longer than the timeout. -/
def detachedMoves : List Move :=
  crowdedMoves ++
  ([.elapse 10000, .call (.detach ⟨1⟩), .proceed, .back, .proceed, .proceed, .collect] : List Move)

/-- **Capacity that a detachment frees is not passed on.** -/
theorem capacity_withheld :
    ¬ ∀ (settings : Settings) (later : List Turn) (turn : Turn) (earlier : List Turn) (e : Engine)
      (r x : RouterRef) (h : CommandRef), Run settings (later ++ turn :: earlier) e →
      e.stack = [] → turn.Frees r → turn.before.HeldBack x h →
      ∃ turn' ∈ later, ∃ command, turn'.offers? = some (x, h, command) := by
  intro hall
  obtain ⟨later, turn, earlier, e, run, hcheck⟩ := exists_turn_of_replay? {}
    detachedMoves.reverse 5 (fun later turn e => e.stack.isEmpty && freesLower turn &&
      later.all fun turn' => turn'.offers?.isNone) (by decide +kernel)
  simp only [Bool.and_eq_true, List.isEmpty_iff, List.all_eq_true, Option.isNone_iff_eq_none]
    at hcheck
  obtain ⟨⟨idle, hfrees⟩, hnone⟩ := hcheck
  obtain ⟨frees, waits⟩ := freesLower_spec hfrees
  obtain ⟨turn', hturn', command, hoffers⟩ :=
    hall {} later turn earlier e ⟨1⟩ ⟨0⟩ ⟨3⟩ run idle frees waits
  rw [hnone turn' hturn'] at hoffers
  cases hoffers

end RouterFabric
