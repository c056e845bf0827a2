import RouterFabric.Engine.Move

/-!
# Reading routers and commands after a change

Every step of an engine is put together from a few changes: one router is changed, one command is
changed, something is added, tasks are put on the stack. The lemmas below say what a look-up gives
after each of them, so that no proof has to open a store.

* `map_modify`, `modify_concat` : a list in which one element changes
* `Commands.get?_update`, `get?_set`, `get?_add` : the store of commands
* `Engine.router?_updateRouter` : the routers
* `Engine.drain_eq`, `answerOffer_eq` : the rounds of a pass over a queue
* `Engine.queue`, `Engine.queue_setLine` : the queue of a router
* `Commands.change_eq` : a change that tells something, as a look-up and a replacement
-/

namespace RouterFabric

/-- A change of one element that shows as a change of what is shown of it. -/
theorem map_modify {α β : Type} {f : α → α} {g : β → β} {shown : α → β}
    (h : ∀ a, shown (f a) = g (shown a)) (l : List α) (i : Nat) :
    (l.modify i f).map shown = (l.map shown).modify i g := by
  apply List.ext_getElem?
  intro j
  rw [List.getElem?_map, List.getElem?_modify, List.getElem?_modify, List.getElem?_map]
  cases l[j]? with
  | none => rfl
  | some a =>
    show some (shown (if i = j then f a else a)) = some (if i = j then g (shown a) else shown a)
    split
    · exact congrArg some (h a)
    · rfl

/-- A change of the last element. -/
theorem modify_concat {α : Type} (l : List α) (x : α) (f : α → α) :
    (l ++ [x]).modify l.length f = l ++ [f x] := by
  induction l with
  | nil => rfl
  | cons y l ih => exact congrArg (y :: ·) ih

/-! ## Commands -/

namespace Commands

variable {cs : Commands} {c c' : CommandRef} {command : Command}

theorem ref_eq_iff : c = c' ↔ c.index = c'.index := by
  cases c; cases c'; simp

theorem get?_update (cs : Commands) (c c' : CommandRef) (f : Command → Command) :
    (cs.update c f).get? c' = if c = c' then (cs.get? c').map f else cs.get? c' := by
  unfold get? update
  rw [List.getElem?_modify]
  by_cases h : c = c'
  · simp [h]
  · have : c.index ≠ c'.index := fun e => h (ref_eq_iff.2 e)
    simp [h, this]

theorem lt_of_get? (h : cs.get? c = some command) : c.index < cs.length :=
  (List.getElem?_eq_some_iff.1 h).1

theorem get?_isSome_iff : (cs.get? c).isSome ↔ c.index < cs.length := by
  unfold get?
  simp

theorem get?_set (h : cs.get? c = some command) (changed : Command) (c' : CommandRef) :
    get? (cs.set c.index changed) c' = if c = c' then some changed else cs.get? c' := by
  unfold get?
  rw [List.getElem?_set]
  by_cases e : c = c'
  · subst e
    simp [lt_of_get? h]
  · have : c.index ≠ c'.index := fun i => e (ref_eq_iff.2 i)
    simp [e, this]

theorem get?_add (cs : Commands) (command : Command) (c : CommandRef) :
    (cs.add command).2.get? c = if c.index = cs.length then some command else cs.get? c := by
  unfold get? add
  rw [List.getElem?_append]
  rcases Nat.lt_trichotomy c.index cs.length with h | h | h
  · simp [h, Nat.ne_of_lt h]
  · simp [h]
  · simp [Nat.ne_of_gt h, show ¬ c.index < cs.length by omega]
    omega

/-- A change that tells something, where the command exists. -/
theorem change_eq {α : Type} {absent : α} {f : Command → α × Command}
    (h : cs.get? c = some command) :
    cs.change c absent f = ((f command).1, cs.set c.index (f command).2) := by
  unfold change
  rw [h]

theorem length_change {α : Type} (cs : Commands) (c : CommandRef) (absent : α)
    (f : Command → α × Command) : (cs.change c absent f).2.length = cs.length := by
  unfold change
  split
  · rfl
  · exact List.length_set ..

end Commands

/-! ## Routers -/

namespace Engine

variable {e : Engine} {r r' : RouterRef} {router : Router}

theorem ref_eq_iff : r = r' ↔ r.index = r'.index := by
  cases r; cases r'; simp

theorem router?_updateRouter (e : Engine) (r r' : RouterRef) (f : Router → Router) :
    (e.updateRouter r f).router? r' = if r = r' then (e.router? r').map f else e.router? r' := by
  unfold router? updateRouter
  simp only
  rw [List.getElem?_modify]
  by_cases h : r = r'
  · simp [h]
  · have : r.index ≠ r'.index := fun i => h (ref_eq_iff.2 i)
    simp [h, this]

theorem lt_of_router? (h : e.router? r = some router) : r.index < e.routers.length :=
  (List.getElem?_eq_some_iff.1 h).1

/-! ## Queues -/

/-- The queue of a router; where there is no router, it is empty. -/
def queue (e : Engine) (r : RouterRef) : Queue :=
  ((e.router? r).map (·.queue)).getD {}

theorem queue_of_router? (h : e.router? r = some router) : e.queue r = router.queue := by
  unfold queue
  rw [h]
  rfl

theorem queue_updateRouter (e : Engine) (r r' : RouterRef) {f : Router → Router}
    (hf : ∀ router, (f router).queue = router.queue) :
    (e.updateRouter r f).queue r' = e.queue r' := by
  unfold queue
  rw [router?_updateRouter]
  split
  · cases e.router? r' with
    | none => rfl
    | some router => simp [hf]
  · rfl

@[simp] theorem queue_count (e : Engine) (r r' : RouterRef) (f : Statistics → Statistics) :
    (e.count r f).queue r' = e.queue r' :=
  queue_updateRouter e r r' fun _ => rfl

theorem queue_setQueue (h : e.router? r = some router) (q : Queue) (r' : RouterRef) :
    (e.setQueue r q).queue r' = if r = r' then q else e.queue r' := by
  unfold queue setQueue
  rw [router?_updateRouter]
  split
  · rename_i same
    subst same
    rw [h]
    rfl
  · rfl

theorem queue_setLine (h : e.router? r = some router) (line : Queue × Commands) (r' : RouterRef) :
    (e.setLine r line).queue r' = if r = r' then line.1 else e.queue r' :=
  queue_setQueue h line.1 r'

/-- Whether a command waits in the queue of any router or holds its slot. -/
def Queued (e : Engine) (c : CommandRef) : Prop :=
  ∃ r, c ∈ (e.queue r).members

/-! ## Passes over queues -/

/-- What a round of a pass over a queue changes, whatever its result. -/
theorem drain_eq (e : Engine) (r : RouterRef) :
    e.drain r =
      match e.router? r with
      | none => e
      | some router =>
        match router.queue.beginDrain e.commands e.now with
        | none => e
        | some (c, line) => (e.setLine r line).push [.offer r c] := by
  unfold drain drainNext
  cases hr : e.router? r with
  | none => rfl
  | some router =>
    simp only
    cases hnext : router.queue.beginDrain e.commands e.now with
    | none =>
      simp only
      split
      · rfl
      · rfl
    | some next => rfl

/-- What the transport's answer for a command changes; a busy transport has the router wait. -/
theorem answerOffer_eq (e : Engine) (r : RouterRef) (c : CommandRef)
    (answer : Except TransportFault Unit) :
    e.answerOffer r c answer =
      match e.router? r with
      | none => e
      | some router =>
        match answer with
        | .ok () =>
          ((e.setQueue r (router.queue.submitted c)).count r fun stats =>
            { stats with submitted := stats.submitted + 1 }).push [.drain r]
        | .error .busy =>
          let (_, line) := router.queue.defer e.commands c
          let deferred := (e.setLine r line).count r fun stats =>
            { stats with busyDeferrals := stats.busyDeferrals + 1 }
          { deferred with topology := deferred.topology.defer router.id }
        | .error fault =>
          match router.queue.reject c with
          | (false, _) => e.push [.drain r]
          | (true, queue) =>
            let freed := e.setQueue r queue
            let (claimed, commands) := freed.commands.change c false fun command =>
              command.markAll command.generation
            let marked := { freed with commands := commands }
            if claimed then
              (marked.push [.hold [r] [c], .drain r]).finish c (.refused fault)
            else
              marked.push [.drain r] := by
  unfold answerOffer takeAnswer
  cases hr : e.router? r with
  | none => rfl
  | some router =>
    cases answer with
    | ok done => rfl
    | error fault =>
      cases fault with
      | busy =>
        have hafter : (((e.setLine r (router.queue.defer e.commands c).2).count r fun stats =>
            { stats with busyDeferrals := stats.busyDeferrals + 1 }).router? r).map Router.id =
              some router.id := by
          unfold count
          rw [router?_updateRouter, if_pos rfl]
          show (((e.setQueue r _).router? r).map _).map Router.id = _
          unfold setQueue
          rw [router?_updateRouter, if_pos rfl, hr]
          rfl
        obtain ⟨after, hr', hid⟩ := Option.map_eq_some_iff.1 hafter
        simp only [noteDrained]
        rw [hr', ← hid]
      | closed | failed =>
        simp only
        rcases router.queue.reject c with ⟨_ | _, queue⟩
        · rfl
        · simp only
          split
          · rfl
          · rfl

end Engine

end RouterFabric
