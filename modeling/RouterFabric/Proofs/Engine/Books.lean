import RouterFabric.Proofs.Engine.Sections

/-!
# The books of a router

The counters of a router are changed apart from its queue, and some of them only by a task that is
left for later. Put together in one account they balance: whatever leaves the queue is counted at
once, or is seen to fail, or leaves a task that will count it; and so does every request that is
handed to the transport. Here this is said of every section of an engine.

* `Account`, `Engine.account` : the counters of a router, its queue and the tasks that will count
* `Posted` : all that can happen to an account at once
* `Posted.attempts`, `Posted.requests` : whatever happens, the account balances
* `Engine.Level` : nothing has happened to any account
* `posted_launch`, `posted_drain`, `posted_receive`, `posted_withdraw`, `posted_detach` : the
  sections to which something happens
-/

namespace RouterFabric

/-! ## Accounts -/

/-- What is known of the attempts on a router and of the requests made for it. -/
structure Account where
  stats : Statistics := {}
  /-- attempts in the queue -/
  queued : Nat := 0
  /-- attempts that were taken out of the slot for having held it too long, and have still to end -/
  expiring : Nat := 0
  /-- requests for which the transport's answer is awaited -/
  offered : Nat := 0
  deriving DecidableEq, Repr

/-- What is seen of a router from outside. -/
structure Sight where
  /-- attempts that enter the queue -/
  entered : Nat := 0
  /-- requests that are handed to the transport -/
  handed : Nat := 0
  /-- requests that the transport refuses, though not for want of capacity -/
  refused : Nat := 0
  /-- attempts that end with such a refusal -/
  failed : Nat := 0
  deriving DecidableEq, Repr

/-- What can happen to the account of a router at once, with what is seen of it. -/
inductive Posted : Account → Sight → Account → Prop
  | level (a : Account) : Posted a {} a
  /-- a signal finds no attempt -/
  | discarded (a : Account) :
      Posted a {} { a with stats.staleDiscards := a.stats.staleDiscards + 1 }
  /-- an attempt enters the queue -/
  | entered (a : Account) : Posted a { entered := 1 } { a with queued := a.queued + 1 }
  /-- the request of an attempt is handed to the transport -/
  | handed (a : Account) : Posted a { handed := 1 } { a with offered := a.offered + 1 }
  /-- the transport accepts a request -/
  | accepted {a : Account} {n : Nat} : a.offered = n + 1 →
      Posted a {} { a with offered := n, stats.submitted := a.stats.submitted + 1 }
  /-- the transport is busy -/
  | deferred {a : Account} {n : Nat} : a.offered = n + 1 →
      Posted a {} { a with offered := n, stats.busyDeferrals := a.stats.busyDeferrals + 1 }
  /-- the transport refuses a request whose attempt has ended in the meantime -/
  | refused {a : Account} {n : Nat} : a.offered = n + 1 →
      Posted a { refused := 1 } { a with offered := n }
  /-- the transport refuses a request, and its attempt ends -/
  | failed {a : Account} {n q : Nat} : a.offered = n + 1 → a.queued = q + 1 →
      Posted a { refused := 1, failed := 1 } { a with offered := n, queued := q }
  /-- an attempt is completed -/
  | completed {a : Account} {q : Nat} : a.queued = q + 1 →
      Posted a {} { a with queued := q, stats.completed := a.stats.completed + 1 }
  /-- a caller gives its attempt up, and others with it that have been in the way -/
  | withdrawn {a : Account} {q others : Nat} : a.queued = q + 1 + others →
      Posted a {} { a with
        queued := q
        expiring := a.expiring + others
        stats.timeouts := a.stats.timeouts + 1 }
  /-- attempts that have held the slot for too long are taken out of it -/
  | claimed {a : Account} {q others : Nat} : a.queued = q + others →
      Posted a {} { a with queued := q, expiring := a.expiring + others }
  /-- such an attempt ends -/
  | expired {a : Account} {n : Nat} : a.expiring = n + 1 →
      Posted a {} { a with expiring := n, stats.timeouts := a.stats.timeouts + 1 }

namespace Posted

variable {a a' : Account} {s : Sight}

/-- **Attempts balance**: those that have entered the queue are completed, timed out, failed, still
in the queue or about to time out. -/
theorem attempts (p : Posted a s a') :
    a'.stats.completed + a'.stats.timeouts + s.failed + a'.queued + a'.expiring =
      a.stats.completed + a.stats.timeouts + a.queued + a.expiring + s.entered := by
  cases p <;> simp only <;> omega

/-- **Requests balance**: those handed to the transport are accepted, deferred, refused or not yet
answered. -/
theorem requests (p : Posted a s a') :
    a'.stats.submitted + a'.stats.busyDeferrals + s.refused + a'.offered =
      a.stats.submitted + a.stats.busyDeferrals + a.offered + s.handed := by
  cases p <;> simp only <;> omega

/-- The queue grows only by the attempts that are seen to enter it. -/
theorem entered_eq (p : Posted a s a') : s.entered = a'.queued - a.queued := by
  cases p <;> simp only <;> omega

/-- Unanswered requests become more only by those that are seen to be handed over. -/
theorem handed_eq (p : Posted a s a') : s.handed = a'.offered - a.offered := by
  cases p <;> simp only <;> omega

/-- An account with nothing in it stays so, as long as nothing comes in from outside. -/
theorem vacant (p : Posted {} s a') (hstats : a'.stats = {}) (hqueued : a'.queued = 0)
    (hoffered : a'.offered = 0) : a' = {} := by
  have hattempts := p.attempts
  have hrequests := p.requests
  have hentered := p.entered_eq
  obtain ⟨stats, queued, expiring, offered⟩ := a'
  simp only at hstats hqueued hoffered hattempts hentered
  subst hstats hqueued hoffered
  simp only at hattempts
  congr 1
  omega

end Posted

/-! ## Queues -/

namespace Queue

variable {q : Queue} {c : CommandRef}

theorem outstanding_of_slot (hs : q.slot = some c) :
    q.outstanding = q.release.outstanding + 1 := by
  unfold outstanding
  rw [members_release, members_of_slot hs, List.length_cons]

theorem outstanding_abandon (hc : c ∈ q.members) :
    q.outstanding = (q.abandon c).2.outstanding + 1 := by
  unfold outstanding
  rw [members_abandon, List.length_erase_of_mem hc]
  have hpos := List.length_pos_of_mem hc
  omega

/-- What is expired is what the queue has lost. -/
theorem outstanding_expire (q : Queue) (cs : Commands) (limit now : Nat) :
    q.outstanding =
      (q.expire cs limit now).2.1.outstanding + (q.expire cs limit now).1.toList.length := by
  rcases expire_cases q cs limit now with he | ⟨c, command, hs, -, -, -, he⟩
  · rw [he]
    rfl
  · rw [he]
    exact outstanding_of_slot hs

end Queue

/-! ## Tasks that will count -/

namespace Task

/-- Whether the task will count the end of an attempt on the router. -/
def expires (r : RouterRef) : Task → Bool
  | .expire r' _ => r' = r
  | _ => false

/-- Whether the task will count the transport's answer for a request of the router. -/
def offers (r : RouterRef) : Task → Bool
  | .offer r' _ => r' = r
  | _ => false

/-- Whether the task will count anything. -/
@[simp] def isBooked : Task → Bool
  | .expire _ _ => true
  | .offer _ _ => true
  | _ => false

theorem expires_of_unbooked {t : Task} (h : t.isBooked = false) (r : RouterRef) :
    t.expires r = false := by
  cases t <;> first | rfl | cases h

theorem offers_of_unbooked {t : Task} (h : t.isBooked = false) (r : RouterRef) :
    t.offers r = false := by
  cases t <;> first | rfl | cases h

end Task

namespace Engine

variable {e e' e'' : Engine} {r r' x : RouterRef} {router : Router} {c : CommandRef} {t : Task}
  {w : Waiter} {a a' : Account} {gone tasks below : List Task}

/-- The account of a router. -/
def account (e : Engine) (r : RouterRef) : Account where
  stats := ((e.router? r).map (·.stats)).getD {}
  queued := (e.queue r).outstanding
  expiring := e.stack.countP (Task.expires r)
  offered := e.stack.countP (Task.offers r)

/-- Nothing has happened to any account. -/
def Level (e e' : Engine) : Prop :=
  ∀ r, e'.account r = e.account r

/-- Something has happened to the account of one router only. -/
def Books (e e' : Engine) (r : RouterRef) (a : Account) : Prop :=
  ∀ r', e'.account r' = if r = r' then a else e.account r'

theorem Level.refl (e : Engine) : e.Level e :=
  fun _ => rfl

theorem Level.trans (l : e.Level e') (l' : e'.Level e'') : e.Level e'' :=
  fun r => (l' r).trans (l r)

theorem Level.books (l : e.Level e') (k : e'.Books e'' r a) : e.Books e'' r a := by
  intro r'
  rw [k, l]

theorem Books.level (k : e.Books e' r a) (l : e'.Level e'') : e.Books e'' r a :=
  fun r' => (l r').trans (k r')

theorem Books.on (k : e.Books e' r a) : e'.account r = a := by
  rw [k, if_pos rfl]

theorem Books.trans (k : e.Books e' r a) (k' : e'.Books e'' r a') : e.Books e'' r a' := by
  intro r'
  rw [k', k]
  split <;> rfl

/-- The accounts after a change of one of them, in the light of what happened to it. -/
theorem Books.posted (k : e.Books e' r a) {s : Sight} (p : Posted (e.account r) s a)
    (x : RouterRef) : Posted (e.account x) (if r = x then s else {}) (e'.account x) := by
  rw [k]
  split
  · rename_i same
    exact same ▸ p
  · exact .level _

/-! ## The parts of an account -/

theorem countP_unbooked (h : ∀ t ∈ tasks, t.isBooked = false) (r : RouterRef) :
    tasks.countP (Task.expires r) = 0 ∧ tasks.countP (Task.offers r) = 0 := by
  simp only [List.countP_eq_zero]
  exact ⟨fun t ht => by simp [Task.expires_of_unbooked (h t ht)],
    fun t ht => by simp [Task.offers_of_unbooked (h t ht)]⟩

theorem account_push (e : Engine) (tasks : List Task) (r : RouterRef) :
    (e.push tasks).account r = { e.account r with
      expiring := tasks.countP (Task.expires r) + (e.account r).expiring
      offered := tasks.countP (Task.offers r) + (e.account r).offered } := by
  unfold account push
  simp only [List.countP_append]
  rfl

theorem level_push (e : Engine) (tasks : List Task) (h : ∀ t ∈ tasks, t.isBooked = false) :
    e.Level (e.push tasks) := by
  intro r
  obtain ⟨hexpires, hoffers⟩ := countP_unbooked h r
  rw [account_push, hexpires, hoffers, Nat.zero_add, Nat.zero_add]

theorem Level.push (l : e.Level e') (tasks : List Task) (h : ∀ t ∈ tasks, t.isBooked = false) :
    e.Level (e'.push tasks) :=
  l.trans (level_push e' tasks h)

theorem Books.push (k : e.Books e' r a) (tasks : List Task)
    (h : ∀ t ∈ tasks, t.isBooked = false) : e.Books (e'.push tasks) r a :=
  k.level (level_push e' tasks h)

theorem push_append (e : Engine) (front back : List Task) :
    e.push (front ++ back) = (e.push back).push front := by
  unfold push
  simp only [List.append_assoc]

theorem countP_map_router (cs : List CommandRef) (r x : RouterRef) :
    (cs.map (r, ·)).countP (fun p => p.1 = x) = if r = x then cs.length else 0 := by
  rw [List.countP_map]
  split
  · rename_i same
    exact List.countP_eq_length.2 fun _ _ => by simp [same]
  · rename_i other
    exact List.countP_eq_zero.2 fun _ _ => by simp [other]

/-- Tasks that will count the ends of these attempts. -/
theorem account_push_expires (e : Engine) (ps : List (RouterRef × CommandRef)) (r : RouterRef) :
    (e.push (ps.map fun (r, c) => .expire r c)).account r = { e.account r with
      expiring := (e.account r).expiring + ps.countP (fun p => p.1 = r) } := by
  have offers : (ps.map fun (r, c) => Task.expire r c).countP (Task.offers r) = 0 := by
    simp [List.countP_eq_zero, Task.offers]
  have expires : (ps.map fun (r, c) => Task.expire r c).countP (Task.expires r) =
      ps.countP (fun p => p.1 = r) := by
    rw [List.countP_map]
    rfl
  rw [account_push, offers, expires, Nat.zero_add, Nat.add_comm]

theorem Books.push_expires (k : e.Books e' r a) (cs : List CommandRef) :
    e.Books (e'.push (cs.map (.expire r))) r
      { a with expiring := a.expiring + cs.length } := by
  intro x
  have paired : cs.map (Task.expire r) = (cs.map (r, ·)).map fun (r, c) => .expire r c := by
    rw [List.map_map]
    rfl
  rw [paired, account_push_expires, countP_map_router, k]
  split <;> rfl

theorem unbooked_afterTimeout (w : Waiter) : ∀ t ∈ afterTimeout w, t.isBooked = false := by
  unfold afterTimeout
  split <;> simp

/-- Tasks that count nothing come and go. -/
theorem level_of_stack (gone tasks : List Task) (hr : e'.routers = e.routers)
    (hs : e.stack = gone ++ below) (hs' : e'.stack = tasks ++ below)
    (hgone : ∀ t ∈ gone, t.isBooked = false) (htasks : ∀ t ∈ tasks, t.isBooked = false) :
    e.Level e' := by
  intro r
  obtain ⟨hexpires, hoffers⟩ := countP_unbooked hgone r
  obtain ⟨hexpires', hoffers'⟩ := countP_unbooked htasks r
  unfold account queue router?
  rw [hr, hs, hs', List.countP_append, List.countP_append, List.countP_append, List.countP_append,
    hexpires, hoffers, hexpires', hoffers']

theorem level_pop (hs : e.stack = t :: below) (ht : t.isBooked = false) :
    e.Level { e with stack := below } :=
  level_of_stack [t] [] rfl hs rfl (by simpa using ht) (by simp)

/-- The account with the answer for a request still to come. -/
theorem account_offer (hs : e.stack = .offer r c :: below) :
    ({ e with stack := below } : Engine).Books e r
      { ({ e with stack := below } : Engine).account r with
        offered := (({ e with stack := below } : Engine).account r).offered + 1 } := by
  intro x
  unfold account
  rw [hs, List.countP_cons, List.countP_cons]
  by_cases same : r = x
  · subst same
    simp [Task.offers, Task.expires, queue, router?]
  · simp [Task.offers, Task.expires, same, queue, router?]

/-- The account with an attempt that has still to end. -/
theorem account_expire (hs : e.stack = .expire r c :: below) :
    ({ e with stack := below } : Engine).Books e r
      { ({ e with stack := below } : Engine).account r with
        expiring := (({ e with stack := below } : Engine).account r).expiring + 1 } := by
  intro x
  unfold account
  rw [hs, List.countP_cons, List.countP_cons]
  by_cases same : r = x
  · subst same
    simp [Task.offers, Task.expires, queue, router?]
  · simp [Task.offers, Task.expires, same, queue, router?]

theorem isSome_updateRouter (e : Engine) (r r' : RouterRef) (f : Router → Router) :
    ((e.updateRouter r f).router? r').isSome = (e.router? r').isSome := by
  rw [router?_updateRouter]
  split
  · exact Option.isSome_map
  · rfl

theorem level_updateRouter (e : Engine) (r : RouterRef) {f : Router → Router}
    (hstats : ∀ router, (f router).stats = router.stats)
    (hqueue : ∀ router, (f router).queue = router.queue) : e.Level (e.updateRouter r f) := by
  intro r'
  have stats : ((e.updateRouter r f).router? r').map (·.stats) = (e.router? r').map (·.stats) := by
    rw [router?_updateRouter]
    split
    · cases e.router? r' with
      | none => rfl
      | some router => exact congrArg some (hstats router)
    · rfl
  unfold account
  rw [stats, queue_updateRouter e r r' hqueue]
  rfl

theorem account_count (hr : (e.router? r).isSome) (f : Statistics → Statistics) :
    e.Books (e.count r f) r { e.account r with stats := f (e.account r).stats } := by
  intro r'
  obtain ⟨router, hr⟩ := Option.isSome_iff_exists.1 hr
  unfold account
  rw [queue_count]
  unfold count
  rw [router?_updateRouter]
  split
  · rename_i same
    subst same
    rw [hr]
    rfl
  · rfl

theorem account_setQueue (hr : (e.router? r).isSome) (q : Queue) :
    e.Books (e.setQueue r q) r { e.account r with queued := q.outstanding } := by
  intro r'
  obtain ⟨router, hr⟩ := Option.isSome_iff_exists.1 hr
  unfold account
  rw [queue_setQueue hr]
  unfold setQueue
  rw [router?_updateRouter]
  split
  · rename_i same
    subst same
    rw [hr]
    rfl
  · rfl

theorem account_setLine (hr : (e.router? r).isSome) (line : Queue × Commands) :
    e.Books (e.setLine r line) r { e.account r with queued := line.1.outstanding } :=
  account_setQueue hr line.1

theorem Books.count (k : e.Books e' r a) (hr : (e'.router? r).isSome)
    (f : Statistics → Statistics) : e.Books (e'.count r f) r { a with stats := f a.stats } := by
  have counted := account_count hr f
  rw [k.on] at counted
  exact k.trans counted

theorem queued_of_router? (hr : e.router? r = some router) :
    (e.account r).queued = router.queue.outstanding := by
  show (e.queue r).outstanding = _
  rw [queue_of_router? hr]

/-! ## Sections that count nothing -/

theorem level_finish (e : Engine) (c : CommandRef) (ending : Ending) :
    e.Level (e.finish c ending) := by
  unfold finish
  split
  · exact .refl e
  · simp only
    split
    · exact Level.push (fun _ => rfl) _ (by simp)
    · exact fun _ => rfl

theorem level_issue (e : Engine) (r : RouterRef) (transfer : Transfer) (style : Style) :
    e.Level (e.issue r transfer style) := by
  have refused (failure : Failure) : e.Level (e.push [.reply (.error failure)]) :=
    level_push e _ (by simp)
  unfold issue
  split
  · exact refused _
  · split
    · exact refused _
    · split
      · exact refused _
      · split
        · exact refused _
        · split
          · exact Level.push (fun _ => rfl) _ (by simp)
          · exact Level.push (fun _ => rfl) _ (by simp)

theorem level_enrol (e : Engine) (r : RouterRef) (identity : Identity) :
    e.Level (e.enrol r identity) := by
  unfold enrol
  split
  · exact level_push e _ (by simp)
  · split
    · exact level_push e _ (by simp)
    · have known := level_updateRouter e r (f := fun router =>
        { router with identity := router.identity.orElse fun _ => some identity })
        (fun _ => rfl) fun _ => rfl
      exact Level.push (fun x => known x) _ (by simp)

theorem level_unlink (e : Engine) (r : RouterRef) : e.Level (e.unlink r) := by
  unfold unlink
  split
  · exact level_push e _ (by simp)
  · have marked := level_updateRouter e r (f := fun router => { router with detached := true })
      (fun _ => rfl) fun _ => rfl
    exact Level.push (fun x => marked x) _ (by simp)

theorem level_meet (e : Engine) (r : RouterRef) (request : Request) :
    e.Level (e.meet r request) := by
  cases request with
  | transfer transfer style => exact e.level_issue r transfer style
  | pause ms => exact level_push e _ (by simp)
  | fallAsleep =>
    have marked := level_updateRouter e r (f := fun router => { router with suspended := true })
      (fun _ => rfl) fun _ => rfl
    exact marked.push _ (by simp)
  | enrol identity => exact e.level_enrol r identity
  | unlink => exact e.level_unlink r

theorem level_passOn (e : Engine) (reply : Reply) : e.Level (e.passOn reply) := by
  unfold passOn
  split
  · rename_i r next below hs
    exact level_of_stack [.resume r next] [.perform r (next reply)] rfl hs rfl (by simp) (by simp)
  · exact .refl e

theorem level_kick (e : Engine) : e.Level e.kick :=
  Level.push (fun _ => rfl) _ (by simp)

theorem level_drainFirst (e : Engine) (ids : List NodeId) : e.Level (e.drainFirst ids) := by
  cases ids with
  | nil => exact .refl e
  | cons id rest =>
    refine level_push e _ fun t ht => ?_
    rcases List.mem_append.1 ht with ht | ht
    · obtain ⟨r, -, rfl⟩ := List.mem_map.1 ht
      rfl
    · rw [List.mem_singleton.1 ht]
      rfl

theorem level_settle? (hs : e.settle? w = some e') : e.Level e' := by
  unfold settle? at hs
  split at hs
  · cases hs
  · split at hs
    · split at hs
      · cases hs
        exact level_push e _ (by simp)
      · cases hs
    · split at hs
      · simp only at hs
        split at hs <;> cases hs <;> exact Level.push (fun _ => rfl) _ (by simp)
      · cases hs

/-- A router that is added has an account with nothing in it, as if it had not been added. -/
theorem level_addRouter (e : Engine) (id : NodeId) (route : Route) :
    e.Level (e.addRouter id route).2 := by
  intro r
  have same : (((e.addRouter id route).2.router? r).map (·.stats)).getD {} =
      ((e.router? r).map (·.stats)).getD {} := by
    unfold addRouter router?
    simp only [List.getElem?_append]
    split
    · rfl
    · rename_i hlt
      rw [List.getElem?_eq_none (Nat.le_of_not_lt hlt), List.getElem?_singleton]
      split <;> rfl
  unfold account
  rw [same, (e.same_addRouter id route).queues]
  rfl

theorem level_linkRoot (e : Engine) : e.Level e.linkRoot := by
  have added := e.level_addRouter e.topology.tree.allocateId.1 Route.root
  unfold linkRoot discovery
  simp only
  split <;> exact Level.push (fun x => added x) _ (by simp)

theorem level_attachChild (e : Engine) (parent : RouterRef) (route : Route) :
    e.Level (e.attachChild parent route) := by
  have added := e.level_addRouter e.topology.tree.allocateId.1 route
  unfold attachChild discovery
  split
  · exact level_push e _ (by simp)
  · simp only
    split <;> exact Level.push (fun x => added x) _ (by simp)

theorem level_removeEach (e : Engine) (pairs : List (NodeId × RouterRef)) :
    e.Level (e.removeEach pairs).2 := by
  induction pairs generalizing e with
  | nil => exact .refl e
  | cons pair rest ih =>
    have marked := level_updateRouter e pair.2 (f := fun router => { router with detached := true })
      (fun _ => rfl) fun _ => rfl
    unfold removeEach
    simp only
    split
    · exact marked
    · exact Level.trans (fun x => marked x) (ih _)

theorem level_removeSubtree (e : Engine) (ids : List NodeId) (rs : List RouterRef) :
    e.Level (e.removeSubtree ids rs).2 := by
  unfold removeSubtree
  split
  · exact .refl e
  · exact e.level_removeEach _

theorem level_resume (e : Engine) (r : RouterRef) : e.Level (e.resume r) := by
  unfold Engine.resume
  split
  · exact level_push e _ (by simp)
  · split
    · exact level_push e _ (by simp)
    · have awake := level_updateRouter e r (f := fun router => { router with suspended := false })
        (fun _ => rfl) fun _ => rfl
      exact awake.push _ (by simp)

theorem level_operate (e : Engine) (r : RouterRef) (operation : Operation) :
    e.Level (e.operate r operation) := by
  unfold Engine.operate
  split <;> exact level_push e _ (by simp)

/-! ## The way of an attempt into the slot -/

/-- An attempt on an attached router enters its queue. -/
theorem books_launch (hr : e.router? r = some router) (c : CommandRef) (next : List Task)
    (hnext : ∀ t ∈ next, t.isBooked = false) :
    e.Level (e.launch r c next) ∨
      e.Books (e.launch r c next) r
        { e.account r with queued := (e.account r).queued + 1 } := by
  have numbered := level_updateRouter e r (f := fun router =>
    { router with begun := router.begun + 1 }) (fun _ => rfl) fun _ => rfl
  unfold launch
  rw [hr]
  simp only
  split
  · exact .inl (Level.push (fun x => numbered x) _ (by simp))
  · right
    have hsome : ((e.updateRouter r fun router =>
        { router with begun := router.begun + 1 }).router? r).isSome := by
      rw [isSome_updateRouter, hr]
      rfl
    have entered := account_setQueue hsome
      (router.queue.enqueue (e.commands.update c (·.beginAttempt router.begun)) c).1
    have grown : (router.queue.enqueue (e.commands.update c (·.beginAttempt router.begun)) c
        ).1.outstanding = (e.account r).queued + 1 := by
      rw [queued_of_router? hr]
      unfold Queue.outstanding
      rw [Queue.members_enqueue, List.length_append, List.length_singleton]
    rw [numbered, grown] at entered
    refine Books.push (fun x => (numbered.books entered) x) _ fun t ht => ?_
    rcases List.mem_cons.1 ht with rfl | ht
    · rfl
    · exact hnext t ht

/-- A pass hands the request of the head of the line to the transport, or ends. -/
theorem Stored.books_drain (h : e.Stored) (r : RouterRef) :
    e.Level (e.drain r) ∨
      e.Books (e.drain r) r { e.account r with offered := (e.account r).offered + 1 } := by
  rw [drain_eq]
  split
  · exact .inl (.refl e)
  · rename_i router hr
    have ho := h.orderly r
    rw [queue_of_router? hr] at ho
    split
    · exact .inl (.refl e)
    · rename_i c line hb
      right
      have kept : line.1.outstanding = (e.account r).queued := by
        rw [queued_of_router? hr]
        exact congrArg List.length (ho.members_beginDrain hb)
      have taken := account_setLine (by rw [hr]; rfl) line
      rw [kept] at taken
      intro x
      rw [account_push, taken]
      by_cases same : r = x
      · subst same
        simp [Task.expires, Task.offers, Nat.add_comm]
      · simp [Task.expires, Task.offers, same]

/-! ## The transport's answer -/

theorem books_accepted (hr : (e.router? r).isSome) (c : CommandRef) :
    e.Books (e.answerOffer r c (.ok ())) r
      { e.account r with stats.submitted := (e.account r).stats.submitted + 1 } := by
  obtain ⟨router, hr'⟩ := Option.isSome_iff_exists.1 hr
  have kept : (router.queue.submitted c).outstanding = (e.account r).queued := by
    rw [queued_of_router? hr']
    exact congrArg List.length (Queue.members_submitted _ _)
  have taken := account_setQueue hr (router.queue.submitted c)
  rw [kept] at taken
  rw [answerOffer_eq]
  rw [hr']
  exact (taken.count (by rw [setQueue, isSome_updateRouter, hr]) _).push _ (by simp)

theorem books_deferred (hr : (e.router? r).isSome) (c : CommandRef) :
    e.Books (e.answerOffer r c (.error .busy)) r
      { e.account r with stats.busyDeferrals := (e.account r).stats.busyDeferrals + 1 } := by
  obtain ⟨router, hr'⟩ := Option.isSome_iff_exists.1 hr
  have kept : (router.queue.defer e.commands c).2.1.outstanding = (e.account r).queued := by
    rw [queued_of_router? hr']
    exact congrArg List.length (Queue.members_defer _ _ _)
  have returned := account_setLine hr (router.queue.defer e.commands c).2
  rw [kept] at returned
  have counted := returned.count (by
    show ((e.setQueue r _).router? r).isSome
    rw [setQueue, isSome_updateRouter, hr]) fun stats =>
      { stats with busyDeferrals := stats.busyDeferrals + 1 }
  rw [answerOffer_eq]
  rw [hr']
  exact fun x => counted x

/-- A refused request takes its attempt along, if that still holds the slot. -/
theorem books_refused (e : Engine) (r : RouterRef) (c : CommandRef) {fault : TransportFault}
    (hf : fault ≠ .busy) :
    ((e.queue r).slot ≠ some c ∧ e.Level (e.answerOffer r c (.error fault))) ∨
      (e.queue r).slot = some c ∧ ∃ q, (e.account r).queued = q + 1 ∧
        e.Books (e.answerOffer r c (.error fault)) r { e.account r with queued := q } := by
  rw [answerOffer_eq]
  split
  · rename_i hr
    exact .inl ⟨by simp [queue_of_none hr], .refl e⟩
  · rename_i router hr
    rw [queue_of_router? hr]
    have hsome : (e.router? r).isSome := by rw [hr]; rfl
    split
    · rename_i heq
      cases heq
    · rename_i heq
      cases heq
      exact absurd rfl hf
    · rw [Queue.reject_eq]
      by_cases hs : router.queue.slot = some c
      · rw [if_pos hs]
        refine .inr ⟨hs, router.queue.release.outstanding, ?_, ?_⟩
        · rw [queued_of_router? hr]
          exact Queue.outstanding_of_slot hs
        · have freed := account_setQueue hsome router.queue.release
          simp only
          split
          · exact Books.level (Books.push (fun x => freed x) _ (by simp))
              (level_finish _ _ _)
          · exact Books.push (fun x => freed x) _ (by simp)
      · rw [if_neg hs]
        exact .inl ⟨hs, level_push e _ (by simp)⟩

/-! ## The ways out of the slot -/

/-- Nothing that has happened to the accounts can be seen from outside. -/
def Unseen (e e' : Engine) : Prop :=
  ∀ r, Posted (e.account r) {} (e'.account r)

theorem Level.unseen (l : e.Level e') : e.Unseen e' := by
  intro r
  rw [l]
  exact .level _

theorem Books.unseen (k : e.Books e' r a) (p : Posted (e.account r) {} a) : e.Unseen e' := by
  intro x
  have posted := k.posted p x
  rwa [ite_self] at posted

theorem Level.trans_unseen (l : e.Level e') (u : e'.Unseen e'') : e.Unseen e'' :=
  fun r => l r ▸ u r

theorem unseen_discard (e : Engine) (r : RouterRef) : e.Unseen (e.discard r) := by
  cases hr : e.router? r with
  | none =>
    refine Level.unseen fun x => ?_
    unfold account discard
    rw [queue_count]
    unfold count
    rw [router?_updateRouter]
    split
    · rename_i same
      rw [← same, hr]
      rfl
    · rfl
  | some router => exact (account_count (by rw [hr]; rfl) _).unseen (.discarded _)

theorem unseen_complete (e : Engine) (r : RouterRef) (c : CommandRef) (generation : Nat)
    (ending : Ending) : e.Unseen (e.complete r c generation ending) := by
  unfold complete
  split
  · exact (Level.refl e).unseen
  · rename_i router hr
    have hsome : (e.router? r).isSome := by rw [hr]; rfl
    rw [Queue.complete_eq]
    split
    · exact unseen_discard e r
    · rename_i queue heq
      split at heq
      · rename_i hclaimed
        cases heq
        have freed := (account_setQueue hsome router.queue.release).count
          (by rw [setQueue, isSome_updateRouter, hr]; rfl) fun stats =>
            { stats with completed := stats.completed + 1 }
        refine ((freed.push [.drain r, .kick, .hold [r] [c]]
          (by simp)).level (level_finish _ c ending)).unseen (.completed ?_)
        rw [queued_of_router? hr]
        exact Queue.outstanding_of_slot hclaimed.1
      · cases heq

theorem unseen_signal (e : Engine) (r : RouterRef) (c : CommandRef) (generation : Nat)
    (signal : Signal) (words : Option (List UInt32)) :
    e.Unseen (e.signal r c generation signal words) := by
  unfold Engine.signal
  simp only
  split
  · refine Level.trans_unseen ?_ (unseen_complete _ r c generation _)
    exact fun _ => rfl
  · exact Level.unseen fun _ => rfl

/-- An arrival completes an attempt, or finds none, or it is of no account. -/
theorem unseen_heard {arrival : Arrival} (k : e.Heard arrival e') : e.Unseen e' := by
  cases k with
  | ignored => exact (Level.refl e).unseen
  | discarded r => exact unseen_discard e r
  | sent | answered => exact unseen_signal _ _ _ _ _ _
  | interrupted event hslot =>
    simp only
    split
    · refine Level.trans_unseen ?_ (unseen_complete _ _ _ _ _)
      exact fun _ => rfl
    · exact Level.unseen fun _ => rfl
  | plugged event => exact (level_push e _ (by simp)).unseen

theorem unseen_receive (e : Engine) (arrival : Arrival) : e.Unseen (e.receive arrival) := by
  have stands : e.Level (e.push [.handled]) := level_push e _ (by simp)
  exact stands.trans_unseen (unseen_heard (heard_receive e arrival))

/-- A caller's attempt leaves the queue and is counted; one that was in its way is left to be. -/
theorem unseen_withdraw (hr : e.router? w.router = some router) : e.Unseen (e.withdraw w) := by
  have hsome : (e.router? w.router).isSome := by rw [hr]; rfl
  obtain ⟨hfound, -, -⟩ := Queue.abandon_eq router.queue w.command
  unfold withdraw
  rw [hr]
  simp only
  split
  · exact (level_push e _ (by simp)).unseen
  · rename_i queue heq
    rw [heq] at hfound
    have hmem : w.command ∈ router.queue.members := by simpa using hfound.symm
    have lost := Queue.outstanding_abandon hmem
    rw [heq] at lost
    have claimed := queue.outstanding_expire e.commands e.topology.settings.timeoutMs e.now
    generalize queue.expire e.commands e.topology.settings.timeoutMs e.now = x at claimed ⊢
    obtain ⟨expired, line⟩ := x
    have freed := (account_setLine hsome line).count
      (by show ((e.setQueue w.router line.1).router? w.router).isSome
          rw [setQueue, isSome_updateRouter, hr]; rfl) fun stats =>
        { stats with timeouts := stats.timeouts + 1 }
    have booked : e.Books (((e.setLine w.router line).count w.router fun stats =>
        { stats with timeouts := stats.timeouts + 1 }).push
          (expired.toList.map (.expire w.router) ++ [Task.drain w.router, Task.kick] ++
            afterTimeout w))
        w.router { e.account w.router with
            queued := line.1.outstanding
            expiring := (e.account w.router).expiring + expired.toList.length
            stats.timeouts := (e.account w.router).stats.timeouts + 1 } := by
      rw [List.append_assoc, push_append]
      have unbooked : ∀ t ∈ [Task.drain w.router, Task.kick] ++ afterTimeout w,
          t.isBooked = false :=
        List.forall_mem_append.2 ⟨by simp [Task.isBooked], unbooked_afterTimeout w⟩
      exact Books.push_expires (freed.push _ unbooked) expired.toList
    refine booked.unseen (.withdrawn ?_)
    rw [queued_of_router? hr]
    simp only at lost claimed
    omega

/-! ## Detachments -/

/-- Attempts are taken out of the slots that they have held for too long. -/
theorem expireEach_account (e : Engine) (rs : List RouterRef) (r : RouterRef) :
    ∃ q, (e.account r).queued = q + (e.expireEach rs).1.countP (fun p => p.1 = r) ∧
      (e.expireEach rs).2.account r = { e.account r with queued := q } := by
  induction rs generalizing e with
  | nil => exact ⟨_, rfl, rfl⟩
  | cons r' rest ih =>
    unfold expireEach
    split
    · exact ih e
    · rename_i router hr
      have claimed := router.queue.outstanding_expire e.commands e.topology.settings.timeoutMs e.now
      generalize router.queue.expire e.commands e.topology.settings.timeoutMs e.now = x
        at claimed ⊢
      obtain ⟨expired, line⟩ := x
      have first := account_setLine (by rw [hr]; rfl) line r
      obtain ⟨q, hq, hrest⟩ := ih (e.setLine r' line)
      refine ⟨q, ?_, ?_⟩
      · rw [first] at hq
        rw [List.countP_append, countP_map_router]
        by_cases same : r' = r
        · subst same
          rw [if_pos rfl] at hq ⊢
          rw [queued_of_router? hr]
          simp only at claimed hq
          omega
        · rw [if_neg same] at hq ⊢
          omega
      · rw [hrest, first]
        split
        · rename_i same
          rw [same]
        · rfl

/-- What a detachment takes out of the slots is left to be counted. -/
theorem unseen_detach (e : Engine) (r : RouterRef) : e.Unseen (e.detach r) := by
  unfold detach
  simp only
  generalize ((e.router? r).map fun router => e.topology.tree.subtree router.id).getD [] = ids
  split
  · exact (level_push e _ (by simp)).unseen
  · generalize ids.filterMap e.topology.tree.get? = routers
    intro x
    obtain ⟨q, hq, hfreed⟩ := e.expireEach_account routers x
    generalize e.expireEach routers = y at hq hfreed ⊢
    obtain ⟨expired, freed⟩ := y
    have removed := freed.level_removeSubtree ids routers
    simp only at hq hfreed removed ⊢
    generalize freed.removeSubtree ids routers = z at removed ⊢
    obtain ⟨result, after⟩ := z
    simp only at removed ⊢
    rw [List.append_assoc, push_append]
    rw [account_push_expires, removed.push, hfreed]
    · exact .claimed hq
    · intro t ht
      simp only [List.mem_append, List.mem_cons, List.not_mem_nil, or_false] at ht
      rcases ht with ht | rfl | rfl
      · split at ht
        · cases ht
        · rcases List.mem_append.1 ht with ht | ht
          · obtain ⟨p, -, rfl⟩ := List.mem_map.1 ht
            rfl
          · rw [List.mem_singleton.1 ht]
            rfl
      · rfl
      · rfl

end Engine

end RouterFabric
