import Mathlib.Data.List.Basic
import RouterFabric.Proofs.Engine.Stored

/-!
# Which change each section makes

Every section of an engine makes one of the few kinds of change and puts tasks on the stack. For
each of them this is said once here, together with the tasks; nothing after this opens a section
again.

* `drain_spec`, `answerOffer_spec`, `withdraw_spec` : the slot and the line of a router
* `launch_spec`, `signal_spec`, `onNotification_spec` : the attempts of a command
* `detach_spec`, `unlink_spec`, `linkRoot_spec`, `attachChild_spec` : the tree
-/

namespace RouterFabric

/-- The callback that runs when the command ends. -/
def Command.notes (c : Command) (ending : Ending) : List Task :=
  c.callback?.toList.map (Task.notify · ending.reply)

/-- What a listener is once it has been told how the command has ended. -/
def Listener.told (reply : Reply) : Listener → Listener
  | .future none => .future (some reply)
  | .future (some first) => .future (some first)
  | _ => .nobody

/-- A command that has ended has no callback any more. -/
theorem Command.listener_finish_ne (c : Command) (ending : Ending) (tag : Nat) :
    (c.finish ending).listener ≠ .callback tag := by
  unfold Command.finish
  simp only
  split <;> nofun

/-- The command with its current attempt completed by force. -/
def Command.forced (c : Command) : Command :=
  { c with sent := true, answered := true }

/-- The command with a signal for its current attempt noted. -/
def Command.noted (c : Command) (signal : Signal) (words : Option (List UInt32)) : Command :=
  { c with
    response := words.orElse fun _ => c.response
    sent := c.sent || signal == .sent
    answered := c.answered || signal == .answered }

theorem Command.markAll_of_waiting {c : Command} (h : c.isComplete = false) :
    c.markAll c.generation = (true, c.forced) := by
  unfold Command.markAll
  simp [h, Command.forced]

theorem Command.mark_of_waiting {c : Command} (h : c.isComplete = false) (signal : Signal)
    (words : Option (List UInt32)) :
    c.mark c.generation signal words =
      ((c.noted signal words).isComplete, c.noted signal words) := by
  unfold Command.mark
  simp [h, Command.noted]

namespace Engine

variable {e e' e'' : Engine} {r r' : RouterRef} {router : Router} {c c' : CommandRef}
  {command old new : Command}

/-! ## Changes that leave an engine alike -/

theorem Spared.of_eq (h : e'.command? c = e.command? c) : e.Spared e' c :=
  ⟨by rw [h], fun command _ hc he => ⟨command, h ▸ hc, he⟩⟩

theorem Alike.trans (a : e.Alike e') (b : e'.Alike e'') : e.Alike e'' where
  routers r := (b.routers r).trans (a.routers r)
  orderly := b.orderly
  tree := b.tree
  nextId := b.nextId.trans a.nextId
  places id := (b.places id).trans (a.places id)
  begun r := (b.begun r).trans (a.begun r)
  members r := (b.members r).trans (a.members r)
  commands c := (a.commands c).trans (b.commands c)

/-- Stack, time, counters, and what is known or noted elsewhere, are of no account. -/
theorem Stored.alike_of (h : e.Stored)
    (hr : ∀ r, (e'.router? r).map Router.core = (e.router? r).map Router.core)
    (hb : ∀ r, e'.begunOn r = e.begunOn r) (hq : ∀ r, e'.queue r = e.queue r)
    (hc : e'.commands = e.commands) (ht : e'.topology.tree.Sound)
    (hn : e'.topology.tree.nextId = e.topology.tree.nextId)
    (he : ∀ id, e'.topology.tree.place? id = e.topology.tree.place? id) : e.Alike e' where
  routers := hr
  orderly r := by
    rw [hq, hc]
    exact h.orderly r
  tree := ht
  nextId := hn
  places := he
  begun := hb
  members r := by rw [hq]
  commands c := by
    refine Spared.of_eq ?_
    unfold command?
    rw [hc]

theorem Stored.alike_of_eq (h : e.Stored) (hr : e'.routers = e.routers)
    (hc : e'.commands = e.commands) (ht : e'.topology.tree = e.topology.tree) : e.Alike e' := by
  have hrouter : ∀ r, e'.router? r = e.router? r := fun r => by
    unfold router?
    rw [hr]
  refine h.alike_of (fun r => by rw [hrouter]) (fun r => ?_) (fun r => ?_) hc (ht ▸ h.tree)
    (by rw [ht]) fun id => by rw [ht]
  · unfold begunOn
    rw [hrouter]
  · unfold queue
    rw [hrouter]

theorem Stored.alike_refl (h : e.Stored) : e.Alike e :=
  h.alike_of_eq rfl rfl rfl

theorem Stored.alike_push (h : e.Stored) (tasks : List Task) : e.Alike (e.push tasks) :=
  h.alike_of_eq rfl rfl rfl

theorem begunOn_updateRouter (e : Engine) (r r' : RouterRef) {f : Router → Router}
    (hf : ∀ router, (f router).begun = router.begun) :
    (e.updateRouter r f).begunOn r' = e.begunOn r' := by
  unfold begunOn
  rw [router?_updateRouter]
  split
  · cases e.router? r' with
    | none => rfl
    | some router => simp [hf]
  · rfl

theorem core_updateRouter (e : Engine) (r r' : RouterRef) {f : Router → Router}
    (hf : ∀ router, (f router).core = router.core) :
    ((e.updateRouter r f).router? r').map Router.core = (e.router? r').map Router.core := by
  rw [router?_updateRouter]
  split
  · cases e.router? r' with
    | none => rfl
    | some router => exact congrArg some (hf router)
  · rfl

theorem core_setQueue (e : Engine) (r : RouterRef) (q : Queue) (r' : RouterRef) :
    ((e.setQueue r q).router? r').map Router.core = (e.router? r').map Router.core :=
  core_updateRouter e r r' fun _ => rfl

theorem begunOn_setQueue (e : Engine) (r : RouterRef) (q : Queue) (r' : RouterRef) :
    (e.setQueue r q).begunOn r' = e.begunOn r' :=
  begunOn_updateRouter e r r' fun _ => rfl

theorem setLine_setQueue (e : Engine) (r : RouterRef) (q : Queue) (line : Queue × Commands) :
    (e.setQueue r q).setLine r line = e.setLine r line := by
  unfold setLine setQueue updateRouter
  simp only [List.modify_modify_eq]
  rfl

theorem core_count (e : Engine) (r : RouterRef) (f : Statistics → Statistics) (r' : RouterRef) :
    ((e.count r f).router? r').map Router.core = (e.router? r').map Router.core :=
  core_updateRouter e r r' fun _ => rfl

theorem begunOn_count (e : Engine) (r : RouterRef) (f : Statistics → Statistics) (r' : RouterRef) :
    (e.count r f).begunOn r' = e.begunOn r' :=
  begunOn_updateRouter e r r' fun _ => rfl

theorem Stored.alike_updateRouter (h : e.Stored) (r : RouterRef) {f : Router → Router}
    (hcore : ∀ router, (f router).core = router.core)
    (hbegun : ∀ router, (f router).begun = router.begun)
    (hqueue : ∀ router, (f router).queue = router.queue) : e.Alike (e.updateRouter r f) :=
  h.alike_of (fun r' => core_updateRouter e r r' hcore)
    (fun r' => begunOn_updateRouter e r r' hbegun) (fun r' => queue_updateRouter e r r' hqueue) rfl
    h.tree rfl fun _ => rfl

theorem Stored.alike_count (h : e.Stored) (r : RouterRef) (f : Statistics → Statistics) :
    e.Alike (e.count r f) :=
  h.alike_updateRouter r (fun _ => rfl) (fun _ => rfl) fun _ => rfl

/-- A queue whose members stay where they are, while at most one of them changes its phase. -/
theorem Stored.alike_setLine (h : e.Stored) (hr : e.router? r = some router)
    (line : Queue × Commands) (hm : line.1.members = router.queue.members)
    (ho : line.1.Orderly line.2)
    (hc : line.2 = e.commands ∨ ∃ c ∈ router.queue.members, ∃ phase now,
      line.2 = e.commands.update c (·.setPhase phase now)) : e.Alike (e.setLine r line) where
  routers := core_setQueue e r line.1
  begun := begunOn_setQueue e r line.1
  members r' := by
    rw [queue_setLine hr]
    split
    · rename_i same
      rw [← same, hm, queue_of_router? hr]
    · rfl
  orderly r' := by
    rw [queue_setLine hr]
    show Queue.Orderly _ line.2
    split
    · exact ho
    · rename_i other
      rcases hc with hc | ⟨c, hmem, phase, now, hc⟩
      · rw [hc]
        exact h.orderly r'
      · rw [hc]
        refine (h.orderly r').update_of_not_mem _ fun hmem' => other ?_
        exact h.eq_of_mem (queue_of_router? hr ▸ hmem) hmem'
  tree := h.tree
  nextId := rfl
  places _ := rfl
  commands c := by
    rcases hc with hc | ⟨c', -, phase, now, hc⟩
    · exact Spared.of_eq (congrArg (Commands.get? · c) hc)
    · have reads : (e.setLine r line).command? c =
          if c' = c then (e.command? c).map (·.setPhase phase now) else e.command? c := by
        show Commands.get? line.2 c = _
        rw [hc, Commands.get?_update]
        rfl
      refine ⟨?_, fun command ending hg he => ?_⟩
      · rw [reads]
        split
        · cases e.command? c <;> rfl
        · rfl
      · rw [reads] at hg
        split at hg
        · obtain ⟨old, hg', rfl⟩ := Option.map_eq_some_iff.1 hg
          exact ⟨old, hg', he⟩
        · exact ⟨command, hg, he⟩

/-! ## Changes of one command -/

/-- A command that is changed and perhaps taken out of its queue; while it stays, its phase does. -/
theorem Stored.changed_of (h : e.Stored) {left : Bool}
    (hr : ∀ r, (e'.router? r).map Router.core = (e.router? r).map Router.core)
    (hb : ∀ r, e'.begunOn r = e.begunOn r) (ht : e'.topology.tree = e.topology.tree)
    (hc : e.command? c = some old)
    (reads : ∀ c', e'.command? c' = if c = c' then some new else e.command? c')
    (queues : ∀ r, (e'.queue r).Orderly e.commands ∧ (e'.queue r).members =
      if left then (e.queue r).members.erase c else (e.queue r).members)
    (stays : left = false → new.phase = old.phase) : e.Changed e' c old new left where
  routers := hr
  orderly r := by
    obtain ⟨ho, hm⟩ := queues r
    refine ho.frame fun c' hmem command hg => ?_
    have hread : Commands.get? e'.commands c' = _ := reads c'
    by_cases hcc : c = c'
    · subst hcc
      refine ⟨new, by rw [hread, if_pos rfl], ?_⟩
      have hg : e.command? c = some command := hg
      rw [hc] at hg
      cases hg
      cases left with
      | true =>
        rw [hm] at hmem
        exact absurd rfl ((h.orderly r).nodup.mem_erase_iff.1 hmem).1
      | false => exact stays rfl
    · exact ⟨command, by rw [hread, if_neg hcc]; exact hg, rfl⟩
  tree := ht ▸ h.tree
  nextId := by rw [ht]
  places id := by rw [ht]
  begun := hb
  members r := (queues r).2
  before := hc
  after := by rw [reads, if_pos rfl]
  others c' hcc := Spared.of_eq (by rw [reads, if_neg (Ne.symm hcc)])

/-- The queues after the slot's command has been taken out. -/
theorem Stored.released (h : e.Stored) (hr : e.router? r = some router)
    (hs : router.queue.slot = some c) (r' : RouterRef) :
    (if r = r' then router.queue.release else e.queue r').Orderly e.commands ∧
      (if r = r' then router.queue.release else e.queue r').members =
        (e.queue r').members.erase c := by
  have hq := queue_of_router? hr
  split
  · rename_i same
    subst same
    have ho := h.orderly r
    rw [hq] at ho ⊢
    refine ⟨ho.release, ?_⟩
    rw [Queue.members_release, Queue.members_of_slot hs, List.erase_cons_head]
  · rename_i other
    refine ⟨h.orderly r', (List.erase_of_not_mem fun hmem => other ?_).symm⟩
    exact h.eq_of_mem (hq ▸ Queue.mem_members.2 (.inl hs)) hmem

theorem finish_eq (hc : e.command? c = some command) (ending : Ending) :
    e.finish c ending = ({ e with commands := e.commands.update c (·.finish ending) }).push
      (command.notes ending) := by
  unfold finish Command.notes
  rw [hc]
  cases hcall : command.callback? <;> simp only [hcall] <;> rfl

/-- The end of an attempt that has just been taken out of its slot. -/
theorem Stored.ended (h : e.Stored) (hr : e.router? r = some router)
    (hs : router.queue.slot = some c) (hc : e.command? c = some old) (e' : Engine)
    (marked : Command) (hl : marked.listener = old.listener) (ending : Ending)
    (hcore : ∀ r, (e'.router? r).map Router.core = (e.router? r).map Router.core)
    (hb : ∀ r, e'.begunOn r = e.begunOn r) (ht : e'.topology.tree = e.topology.tree)
    (reads : ∀ c', e'.command? c' = if c = c' then some marked else e.command? c')
    (queues : ∀ r', e'.queue r' = if r = r' then router.queue.release else e.queue r') :
    e.Changed (e'.finish c ending) c old (marked.finish ending) true ∧
      (e'.finish c ending).stack = old.notes ending ++ e'.stack := by
  have hnotes : marked.notes ending = old.notes ending := by
    unfold Command.notes Command.callback?
    rw [hl]
  rw [finish_eq ((reads c).trans (if_pos rfl)), hnotes]
  refine ⟨h.changed_of hcore hb ht hc (fun c' => ?_) (fun r' => ?_) nofun, rfl⟩
  · show Commands.get? (Commands.update _ c _) c' = _
    rw [Commands.get?_update]
    have := reads c'
    unfold command? at this
    rw [this]
    unfold command?
    split <;> rfl
  · have := h.released hr hs r'
    rw [← queues r'] at this
    exact this

/-! ## The slot and the line of a router -/

theorem Stored.drain_spec (h : e.Stored) (r : RouterRef) :
    e.Alike (e.drain r) ∧ ((e.drain r).stack = e.stack ∨ ∃ c,
      (e.drain r).stack = .offer r c :: e.stack ∧ ((e.drain r).queue r).slot = some c) := by
  rw [drain_eq]
  split
  · exact ⟨h.alike_refl, .inl rfl⟩
  · rename_i router hr
    have ho := h.orderly r
    rw [queue_of_router? hr] at ho
    split
    · exact ⟨h.alike_refl, .inl rfl⟩
    · rename_i c line hb
      obtain ⟨hidle, rest, hp, hline⟩ := Queue.beginDrain_eq_some hb
      have a := h.alike_setLine hr line (ho.members_beginDrain hb) (ho.beginDrain hb) <| by
        refine .inr ⟨c, Queue.mem_members.2 (.inr ?_), .inflight, e.now, by rw [hline]⟩
        rw [hp]
        exact List.mem_cons_self
      refine ⟨a.trans ((h.of_alike a).alike_push _), .inr ⟨c, rfl, ?_⟩⟩
      show ((e.setLine r line).queue r).slot = some c
      rw [queue_setLine hr, if_pos rfl, hline]

/-- An accepted command, and one for which the transport is busy, stay in the queue. -/
theorem Stored.answerOffer_kept (h : e.Stored) (r : RouterRef) (c : CommandRef)
    {answer : Except TransportFault Unit} (ha : answer = .ok () ∨ answer = .error .busy) :
    e.Alike (e.answerOffer r c answer) ∧ ((e.answerOffer r c answer).stack = e.stack ∨
      (e.answerOffer r c answer).stack = .drain r :: e.stack) := by
  rw [answerOffer_eq]
  split
  · exact ⟨h.alike_refl, .inl rfl⟩
  · rename_i router hr
    have ho := h.orderly r
    rw [queue_of_router? hr] at ho
    rcases ha with rfl | rfl
    · have a : e.Alike (e.setQueue r (router.queue.submitted c)) :=
        h.alike_setLine hr (router.queue.submitted c, e.commands)
          (Queue.members_submitted _ _) (ho.submitted c) (.inl rfl)
      have a' := a.trans ((h.of_alike a).alike_count r fun stats =>
        { stats with submitted := stats.submitted + 1 })
      exact ⟨a'.trans ((h.of_alike a').alike_push _), .inr rfl⟩
    · have a : e.Alike (e.setLine r (router.queue.defer e.commands c).2) := by
        refine h.alike_setLine hr _ (Queue.members_defer _ _ _) (ho.defer c) ?_
        unfold Queue.defer
        split
        · rename_i hc
          exact .inr ⟨c, Queue.mem_members.2 (.inl (Queue.holds_iff.1 hc)), .queued, 0, rfl⟩
        · exact .inl rfl
      have a' := a.trans ((h.of_alike a).alike_count r fun stats =>
        { stats with busyDeferrals := stats.busyDeferrals + 1 })
      refine ⟨a'.trans ((h.of_alike a').alike_of_eq rfl rfl ?_), .inl rfl⟩
      show (Topology.defer _ _).tree = _
      unfold Topology.defer
      split <;> rfl

/-- A refused command that holds the slot is taken out and ends. -/
theorem Stored.answerOffer_refused (h : e.Stored) (r : RouterRef) (c : CommandRef)
    {fault : TransportFault} (hf : fault ≠ .busy) :
    e.Alike (e.answerOffer r c (.error fault)) ∧
        ((e.answerOffer r c (.error fault)).stack = e.stack ∨
          (e.answerOffer r c (.error fault)).stack = .drain r :: e.stack) ∨
      ∃ old, (e.queue r).slot = some c ∧
        e.Changed (e.answerOffer r c (.error fault)) c old (old.forced.finish (.refused fault))
          true ∧
        (e.answerOffer r c (.error fault)).stack =
          old.notes (.refused fault) ++ [Task.hold [r] [c], Task.drain r] ++ e.stack := by
  rw [answerOffer_eq]
  split
  · exact .inl ⟨h.alike_refl, .inl rfl⟩
  · rename_i router hr
    have hq := queue_of_router? hr
    split
    · rename_i heq
      cases heq
    · rename_i heq
      cases heq
      exact absurd rfl hf
    · rename_i fault' _ heq
      cases heq
      rw [Queue.reject_eq]
      by_cases hs : router.queue.slot = some c
      · right
        simp only [hs, if_true]
        have hmem : c ∈ (e.queue r).members := hq ▸ Queue.mem_members.2 (.inl hs)
        obtain ⟨old, hg, -, hcomplete, -⟩ := h.members r c hmem
        have hchange : (e.setQueue r router.queue.release).commands.change c false
            (fun command => command.markAll command.generation) =
              (true, e.commands.set c.index old.forced) := by
          show Commands.change e.commands c false _ = _
          rw [Commands.change_eq hg, Command.markAll_of_waiting hcomplete]
        simp only [hchange, if_true]
        obtain ⟨hchanged, hstack⟩ := h.ended hr hs hg
          (({ e.setQueue r router.queue.release with
            commands := e.commands.set c.index old.forced }).push [.hold [r] [c], .drain r])
          old.forced rfl (.refused fault) (core_setQueue e r router.queue.release)
          (begunOn_setQueue e r router.queue.release) rfl
          (fun c' => by exact Commands.get?_set hg old.forced c')
          (queue_setQueue hr router.queue.release)
        exact ⟨old, by rw [hq, hs], hchanged, hstack.trans (List.append_assoc ..).symm⟩
      · left
        simp only [hs, if_false]
        exact ⟨h.alike_push _, .inr rfl⟩

/-- What completing the attempt in a slot comes to. -/
theorem complete_of_slot (hr : e.router? r = some router) (hs : router.queue.slot = some c)
    (hc : e.command? c = some command) (ending : Ending) :
    e.complete r c command.generation ending = (((e.setQueue r router.queue.release).count r
      fun stats => { stats with completed := stats.completed + 1 }).push
        [.drain r, .kick, .hold [r] [c]]).finish c ending := by
  have hfree : router.queue.complete e.commands c command.generation =
      (true, router.queue.release) := by
    rw [Queue.complete_eq, if_pos ⟨hs, command, hc, rfl⟩]
  unfold complete
  rw [hr]
  simp only [hfree]

/-- A command that holds a slot can be freed and ended. -/
theorem Stored.complete_spec (h : e.Stored) (hr : e.router? r = some router)
    (hs : router.queue.slot = some c) (hc : e.command? c = some old) (marked : Command)
    (hm : marked.listener = old.listener) (hgen : marked.generation = old.generation)
    (ending : Ending) :
    let e' := ({ e with commands := e.commands.set c.index marked }).complete r c old.generation
      ending
    e.Changed e' c old (marked.finish ending) true ∧
      e'.stack = old.notes ending ++ [Task.drain r, Task.kick, Task.hold [r] [c]] ++ e.stack := by
  have reads := Commands.get?_set hc marked
  intro e'
  have he' : e' = (((({ e with commands := e.commands.set c.index marked } : Engine).setQueue r
      router.queue.release).count r fun stats =>
        { stats with completed := stats.completed + 1 }).push
          [.drain r, .kick, .hold [r] [c]]).finish c ending := by
    have hr' : ({ e with commands := e.commands.set c.index marked } : Engine).router? r =
        some router := hr
    show complete _ r c old.generation ending = _
    rw [← hgen]
    exact complete_of_slot hr' hs ((reads c).trans (if_pos rfl)) ending
  rw [he']
  have hcore r' := (core_count (e.setQueue r router.queue.release) r (fun stats =>
    { stats with completed := stats.completed + 1 }) r').trans
      (core_setQueue e r router.queue.release r')
  have hbegun r' := (begunOn_count (e.setQueue r router.queue.release) r (fun stats =>
    { stats with completed := stats.completed + 1 }) r').trans
      (begunOn_setQueue e r router.queue.release r')
  have hqueue r' := (queue_count (e.setQueue r router.queue.release) r r' fun stats =>
    { stats with completed := stats.completed + 1 }).trans
      (queue_setQueue hr router.queue.release r')
  obtain ⟨hchanged, hstack⟩ := h.ended hr hs hc
    (((({ e with commands := e.commands.set c.index marked } : Engine).setQueue r
      router.queue.release).count r fun stats =>
        { stats with completed := stats.completed + 1 }).push [.drain r, .kick, .hold [r] [c]])
    marked hm ending hcore hbegun rfl (fun c' => by exact reads c') hqueue
  exact ⟨hchanged, hstack.trans (List.append_assoc ..).symm⟩

theorem slotOf?_eq_some (h : e.slotOf? r = some (c, command)) :
    ∃ router, e.router? r = some router ∧ router.queue.slot = some c ∧
      e.command? c = some command := by
  unfold slotOf? at h
  simp only [Option.bind_eq_bind, Option.bind_eq_some_iff, Option.some.injEq, Prod.mk.injEq] at h
  obtain ⟨router, hr, c', hs, command', hc, rfl, rfl⟩ := h
  exact ⟨router, hr, hs, hc⟩

theorem slotOf?_of_slot (hslot : (e.queue r).slot = some c) (hc : e.command? c = some command) :
    e.slotOf? r = some (c, command) := by
  unfold Engine.queue at hslot
  unfold slotOf?
  cases hr : e.router? r with
  | none =>
    rw [hr] at hslot
    cases hslot
  | some router =>
    rw [hr] at hslot
    have hs : router.queue.slot = some c := hslot
    simp [hs, hc]

theorem Stored.isComplete_of_slot (h : e.Stored) (hs : e.slotOf? r = some (c, old)) :
    old.isComplete = false := by
  obtain ⟨router, hr, hslot, hc⟩ := slotOf?_eq_some hs
  have hmem : c ∈ (e.queue r).members :=
    queue_of_router? hr ▸ Queue.mem_members.2 (.inl hslot)
  obtain ⟨old', hg, -, hcomplete, -⟩ := h.members r c hmem
  rw [hc] at hg
  cases hg
  exact hcomplete

/-- The first signal of an attempt is noted, and that is all. -/
theorem signal_noted (hs : e.slotOf? r = some (c, old)) (hwaits : old.isComplete = false)
    {signal : Signal} {words : Option (List UInt32)}
    (hfirst : (old.noted signal words).isComplete = false) :
    e.signal r c old.generation signal words =
      { e with commands := e.commands.set c.index (old.noted signal words) } := by
  obtain ⟨-, -, -, hc⟩ := slotOf?_eq_some hs
  have hmark : e.commands.change c false (·.mark old.generation signal words) =
      (false, e.commands.set c.index (old.noted signal words)) := by
    rw [Commands.change_eq hc, Command.mark_of_waiting hwaits, hfirst]
  unfold Engine.signal
  simp only [hmark]
  rfl

/-- The second signal of an attempt completes it with the words of the answer. -/
theorem signal_completed (hs : e.slotOf? r = some (c, old)) (hwaits : old.isComplete = false)
    {signal : Signal} {words : Option (List UInt32)}
    (hsecond : (old.noted signal words).isComplete = true) :
    e.signal r c old.generation signal words =
      ({ e with
          commands := e.commands.set c.index { (old.noted signal words) with response := none }
        } : Engine).complete r c old.generation
          (.completed ((old.noted signal words).response.getD [])) := by
  obtain ⟨-, -, -, hc⟩ := slotOf?_eq_some hs
  have hmark : e.commands.change c false (·.mark old.generation signal words) =
      (true, e.commands.set c.index (old.noted signal words)) := by
    rw [Commands.change_eq hc, Command.mark_of_waiting hwaits, hsecond]
  have htake : Commands.change (e.commands.set c.index (old.noted signal words)) c []
      Command.takeResponse = ((old.noted signal words).response.getD [],
        e.commands.set c.index { (old.noted signal words) with response := none }) := by
    rw [Commands.change_eq (by rw [Commands.get?_set hc, if_pos rfl])]
    simp [Command.takeResponse]
  unfold Engine.signal
  simp only [hmark, if_true, htake]

/-- A signal is noted, or it completes the attempt and ends it with the words of the answer. -/
theorem Stored.signal_spec (h : e.Stored) (hs : e.slotOf? r = some (c, old)) (signal : Signal)
    (words : Option (List UInt32)) :
    let e' := e.signal r c old.generation signal words
    let marked := old.noted signal words
    (marked.isComplete = false ∧ e.Changed e' c old marked false ∧ e'.stack = e.stack) ∨
      marked.isComplete = true ∧
        e.Changed e' c old
          (({ marked with response := none } : Command).finish
            (.completed (marked.response.getD []))) true ∧
        e'.stack = old.notes (.completed (marked.response.getD [])) ++
          [Task.drain r, Task.kick, Task.hold [r] [c]] ++ e.stack := by
  obtain ⟨router, hr, hslot, hc⟩ := slotOf?_eq_some hs
  have hwaits := h.isComplete_of_slot hs
  intro e' marked
  cases hdone : marked.isComplete with
  | false =>
    left
    have he' : e' = { e with commands := e.commands.set c.index marked } :=
      signal_noted hs hwaits hdone
    rw [he']
    refine ⟨rfl, ?_, rfl⟩
    exact h.changed_of (fun _ => rfl) (fun _ => rfl) rfl hc (Commands.get?_set hc marked)
      (fun r' => ⟨h.orderly r', rfl⟩) fun _ => rfl
  | true =>
    right
    have he' : e' = _ := signal_completed hs hwaits hdone
    rw [he']
    exact ⟨rfl, h.complete_spec hr hslot hc { marked with response := none } rfl rfl _⟩

/-- The transport's word on a frame is noted; an answer that fits nowhere is only counted. -/
theorem Stored.discard_spec (h : e.Stored) (r : RouterRef) :
    e.Alike (e.discard r) ∧ (e.discard r).stack = e.stack :=
  ⟨h.alike_count r _, rfl⟩

/-- An event that interrupts the attempt in a slot ends it. -/
theorem Stored.interrupt_spec (h : e.Stored) (hs : e.slotOf? r = some (c, old)) (event : Event) :
    e.commands.change c false (·.markAll old.generation) =
        (true, e.commands.set c.index old.forced) ∧
      let e' := ({ e with commands := e.commands.set c.index old.forced } : Engine).complete r c
        old.generation (.interrupted event)
      e.Changed e' c old (old.forced.finish (.interrupted event)) true ∧
        e'.stack = old.notes (.interrupted event) ++
          [Task.drain r, Task.kick, Task.hold [r] [c]] ++ e.stack := by
  obtain ⟨router, hr, hslot, hc⟩ := slotOf?_eq_some hs
  refine ⟨?_, h.complete_spec hr hslot hc old.forced rfl rfl _⟩
  rw [Commands.change_eq hc, Command.markAll_of_waiting (h.isComplete_of_slot hs)]

/-- A command that was taken out of its slot before ends. -/
theorem Stored.expired_spec (h : e.Stored) (hc : e.command? c = some old) (hq : ¬ e.Queued c)
    (f : Statistics → Statistics) :
    let e' := ((e.count r f).push [.hold [r] [c]]).finish c .expired
    e.Changed e' c old (old.finish .expired) true ∧
      e'.stack = old.notes .expired ++ [Task.hold [r] [c]] ++ e.stack := by
  intro e'
  have he' : e' = _ :=
    finish_eq (show ((e.count r f).push [.hold [r] [c]]).command? c = some old from hc) .expired
  have queues (r' : RouterRef) : ((e.count r f).queue r').Orderly e.commands ∧
      ((e.count r f).queue r').members = (e.queue r').members.erase c := by
    rw [queue_count]
    exact ⟨h.orderly r', (List.erase_of_not_mem fun hmem => hq ⟨r', hmem⟩).symm⟩
  rw [he']
  refine ⟨h.changed_of (core_count e r f) (begunOn_count e r f) rfl hc (fun c' => ?_) queues nofun,
    (List.append_assoc ..).symm⟩
  show Commands.get? (Commands.update e.commands c _) c' = _
  rw [Commands.get?_update]
  unfold command? at hc ⊢
  split
  · rename_i same
    subst same
    rw [hc]
    rfl
  · rfl

/-! ## Expiry -/

/-- Commands that are claimed and taken out of their slots one after the other; each of them has
still to end. -/
inductive Forced : Engine → List (RouterRef × CommandRef) → Engine → Prop
  | none {e e' : Engine} : e.Alike e' → Forced e [] e'
  | skip {e e' e'' : Engine} {cs : List (RouterRef × CommandRef)} :
    e.Alike e' → Forced e' cs e'' → Forced e cs e''
  | next {e e' e'' : Engine} {cs : List (RouterRef × CommandRef)} {r : RouterRef} {c : CommandRef}
    {old : Command} : (e.queue r).slot = some c → e.Changed e' c old old.forced true →
      Forced e' cs e'' → Forced e ((r, c) :: cs) e''

theorem Forced.alike {cs : List (RouterRef × CommandRef)} (f : Forced e cs e') (a : e'.Alike e'') :
    Forced e cs e'' := by
  induction f with
  | none b => exact .none (b.trans a)
  | skip b _ ih => exact .skip b (ih a)
  | next hs hc _ ih => exact .next hs hc (ih a)

theorem Forced.append {cs cs' : List (RouterRef × CommandRef)} (f : Forced e cs e')
    (f' : Forced e' cs' e'') : Forced e (cs ++ cs') e'' := by
  induction f with
  | none a => exact .skip a f'
  | skip a _ ih => exact .skip a (ih f')
  | next hs hc _ ih => exact .next hs hc (ih f')

theorem Forced.extends {cs : List (RouterRef × CommandRef)} (f : Forced e cs e') :
    e.Extends e' := by
  induction f with
  | none a => exact a.extends
  | skip a _ ih => exact a.extends.trans ih
  | next _ hc _ ih => exact (hc.extends rfl fun _ => id).trans ih

theorem Forced.named {cs : List (RouterRef × CommandRef)} (f : Forced e cs e') :
    ∀ p ∈ cs, p.2.index < e'.commands.length := by
  induction f with
  | none _ => nofun
  | skip _ _ ih => exact ih
  | next _ hc f ih =>
    intro p hp
    rcases List.mem_cons.1 hp with rfl | hp
    · exact Nat.lt_of_lt_of_le (Commands.lt_of_get? hc.after) f.extends.length_le
    · exact ih p hp

theorem Forced.stored {cs : List (RouterRef × CommandRef)} (f : Forced e cs e') (h : e.Stored) :
    e'.Stored := by
  induction f with
  | none a => exact h.of_alike a
  | skip a _ ih => exact ih (h.of_alike a)
  | next _ hc _ ih => exact ih (h.of_changed hc (hc.extends rfl fun _ => id) nofun)

/-- One router's slot, if it has been held for too long. -/
theorem Stored.expire_spec (h : e.Stored) (hr : e.router? r = some router) (limit now : Nat) :
    Forced e ((router.queue.expire e.commands limit now).1.toList.map (r, ·))
      (e.setLine r (router.queue.expire e.commands limit now).2) := by
  have ho := h.orderly r
  rw [queue_of_router? hr] at ho
  rcases Queue.expire_cases router.queue e.commands limit now with
    he | ⟨c, old, hs, hc, -, -, he⟩
  · rw [he]
    exact .none (h.alike_setLine hr _ rfl ho (.inl rfl))
  · rw [he]
    have changed : e.Changed (e.setLine r (router.queue.release, e.commands.set c.index old.forced))
        c old old.forced true := by
      refine h.changed_of (core_setQueue e r _) (begunOn_setQueue e r _) rfl hc
        (Commands.get?_set hc old.forced) (fun r' => ?_) nofun
      rw [queue_setLine hr]
      exact h.released hr hs r'
    refine .next (by rw [queue_of_router? hr, hs]) changed (.none ?_)
    exact (h.of_changed changed (changed.extends rfl fun _ => id) nofun).alike_refl

/-! ## Waiting callers -/

theorem substance_takeEnding (command : Command) :
    command.takeEnding.2.substance = command.substance := by
  unfold Command.takeEnding
  split <;> rfl

theorem phase_takeEnding (command : Command) : command.takeEnding.2.phase = command.phase := by
  unfold Command.takeEnding
  split <;> rfl

/-- Whether the end of an attempt is taken note of or left, it is the one that was there. -/
theorem ending_takeEnding {ending : Ending} (h : command.takeEnding.1 = some ending ∨
    command.takeEnding.2.ending = some ending) : command.ending = some ending := by
  unfold Command.takeEnding at h
  split at h
  · exact h.resolve_right nofun
  · exact h.resolve_left nofun

/-- Nobody sees the end of an attempt that is still in a queue. -/
theorem Stored.notices_of_queued (h : e.Stored) (hq : e.Queued c)
    (hc : e.command? c = some command) (watching : Watching) :
    notices watching command = false := by
  obtain ⟨r, hm⟩ := hq
  obtain ⟨command', hg, hphase⟩ := (h.orderly r).mem hm
  obtain ⟨command'', hg', -, -, hpoll⟩ := h.members r _ hm
  have hg : e.command? c = some command' := hg
  rw [hc] at hg hg'
  cases hg
  cases hg'
  cases watching with
  | woken => rcases hphase with hphase | hphase <;> simp [notices, hphase]
  | polling => exact hpoll

/-- The end of an attempt may be taken note of. -/
theorem Stored.alike_takeEnding (h : e.Stored) (hc : e.command? c = some command) :
    e.Alike { e with commands := e.commands.set c.index command.takeEnding.2 } := by
  have reads := Commands.get?_set hc command.takeEnding.2
  refine ⟨⟨fun _ => rfl, fun r => ?_, h.tree, rfl, fun _ => rfl⟩, fun _ => rfl,
    fun _ => rfl, fun c' => ⟨?_, fun command' ending hg he => ?_⟩⟩
  · exact (h.orderly r).set_of_phase hc (phase_takeEnding command)
  · show (Commands.get? _ c').map _ = _
    rw [reads]
    split
    · rename_i same
      rw [← same, hc]
      exact congrArg some (substance_takeEnding command)
    · rfl
  · have hg : Commands.get? _ c' = some command' := hg
    rw [reads] at hg
    split at hg
    · rename_i same
      cases hg
      exact ⟨command, same ▸ hc, ending_takeEnding (.inr he)⟩
    · exact ⟨command', hg, he⟩

/-- What a waiting caller makes of a command that has ended. -/
theorem Stored.settle?_spec (h : e.Stored) {w : Waiter} (hs : e.settle? w = some e') :
    ∃ command, e.command? w.command = some command ∧ e.Alike e' ∧
      ((∃ reply, e'.stack = .reply reply :: e.stack ∧
          (command.listener = .future (some reply) ∧ w.patience = .future ∨
            ∃ ending, command.ending = some ending ∧ reply = ending.reply)) ∨
        e'.stack = .attempt w :: e.stack ∧ ¬ e.Queued w.command ∧
          ∃ watching left, w.patience = .retrying watching left ∧
            notices watching command = true) := by
  unfold settle? at hs
  split at hs
  · cases hs
  · rename_i command hc
    refine ⟨command, hc, ?_⟩
    split at hs
    · rename_i hp
      split at hs
      · rename_i reply hl
        cases hs
        exact ⟨h.alike_push _, .inl ⟨reply, rfl, .inl ⟨hl, hp⟩⟩⟩
      · cases hs
    · rename_i watching left hp
      split at hs
      · rename_i hn
        have hq : ¬ e.Queued w.command := by
          intro hq
          rw [h.notices_of_queued hq hc] at hn
          cases hn
        have a := h.alike_takeEnding hc
        have push (tasks : List Task) := a.trans ((h.of_alike a).alike_push tasks)
        simp only at hs
        split at hs
        · cases hs
          exact ⟨push _, .inr ⟨rfl, hq, watching, left, hp, hn⟩⟩
        · cases hs
          exact ⟨push _, .inr ⟨rfl, hq, watching, left, hp, hn⟩⟩
        · rename_i ending _ hend
          cases hs
          exact ⟨push _, .inl ⟨_, rfl, .inr ⟨ending, ending_takeEnding (.inl hend), rfl⟩⟩⟩
      · cases hs

/-- A router that has been detached takes no more attempts; any other queues them. -/
theorem Stored.launch_spec (h : e.Stored) (hr : e.router? r = some router)
    (hc : e.command? c = some old) (hq : ¬ e.Queued c) (next : List Task) :
    e.Begun (e.launch r c next) r c router old ∧
      (e.launch r c next).stack = (if router.detached then [.reply (.error .notFound)]
        else .drain r :: next) ++ e.stack := by
  have hqueue := queue_of_router? hr
  have hfree : c ∉ router.queue.members := fun hm => hq ⟨r, hqueue ▸ hm⟩
  have ho := h.orderly r
  rw [hqueue] at ho
  have cores (r' : RouterRef) := core_updateRouter e r r'
    (f := fun router => { router with begun := router.begun + 1 }) fun _ => rfl
  have hbegun (r' : RouterRef) : (e.updateRouter r fun router =>
      { router with begun := router.begun + 1 }).begunOn r' =
        if r = r' then router.begun + 1 else e.begunOn r' := by
    unfold begunOn
    rw [router?_updateRouter]
    split
    · rename_i same
      rw [← same, hr]
      rfl
    · rfl
  have queues (r' : RouterRef) := queue_updateRouter e r r'
    (f := fun router => { router with begun := router.begun + 1 }) fun _ => rfl
  have reads := Commands.get?_update e.commands c
  have other {c' : CommandRef} (hcc : c' ≠ c) (f : Command → Command) :
      Commands.get? (e.commands.update c f) c' = e.command? c' := by
    rw [reads, if_neg (Ne.symm hcc)]
    rfl
  have begins : Commands.get? (e.commands.update c (·.beginAttempt router.begun)) c =
      some (old.beginAttempt router.begun) := by
    unfold command? at hc
    rw [reads, if_pos rfl, hc]
    rfl
  unfold launch
  rw [hr]
  cases hd : router.detached with
  | true =>
    simp only [hd, if_true]
    refine ⟨⟨⟨cores, fun r' => ?_, h.tree, rfl, fun _ => rfl⟩, hr, hbegun, fun r' => ?_, hc,
      ⟨_, begins, rfl, rfl⟩, fun c' hcc => Spared.of_eq (other hcc _)⟩, rfl⟩
    · have := (h.orderly r').update_of_not_mem (·.beginAttempt router.begun) fun hm => hq ⟨r', hm⟩
      rw [← queues r'] at this
      exact this
    · rw [if_neg (by simp [hd])]
      exact congrArg Queue.members (queues r')
  | false =>
    simp only [hd, Bool.false_eq_true, if_false]
    have hr' : ({ e.updateRouter r (fun router => { router with begun := router.begun + 1 }) with
        commands := e.commands.update c (·.beginAttempt router.begun) } : Engine).router? r =
          some { router with begun := router.begun + 1 } := by
      show (e.updateRouter r _).router? r = _
      rw [router?_updateRouter, if_pos rfl, hr]
      rfl
    have line := queue_setLine hr'
      (router.queue.enqueue (e.commands.update c (·.beginAttempt router.begun)) c)
    have entered := (ho.update_of_not_mem (·.beginAttempt router.begun) hfree).enqueue hfree begins
    refine ⟨⟨⟨fun r' => (core_setQueue _ r _ r').trans (cores r'), fun r' => ?_, h.tree, rfl,
      fun _ => rfl⟩, hr, fun r' => (begunOn_setQueue _ r _ r').trans (hbegun r'), fun r' => ?_, hc,
      ⟨(old.beginAttempt router.begun).setPhase .queued 0, ?_, rfl, rfl⟩,
      fun c' hcc => Spared.of_eq ?_⟩, rfl⟩
    · show Queue.Orderly (Engine.queue (setLine _ r _) r') _
      rw [line]
      split
      · exact entered
      · have := ((h.orderly r').update_of_not_mem (·.beginAttempt router.begun)
          fun hm => hq ⟨r', hm⟩).update_of_not_mem (·.setPhase .queued 0) fun hm => hq ⟨r', hm⟩
        rw [← queues r'] at this
        exact this
    · show (Engine.queue (setLine _ r _) r').members = _
      rw [line]
      by_cases hrr : r = r'
      · subst hrr
        simp only [if_true, hd, and_self, Queue.members_enqueue, hqueue]
      · simp only [hrr, false_and, if_false]
        exact congrArg Queue.members (queues r')
    · show Commands.get? (Commands.update _ c _) c = _
      rw [Commands.get?_update, if_pos rfl, begins]
      rfl
    · show Commands.get? (Commands.update _ c _) c' = _
      rw [Commands.get?_update, if_neg (Ne.symm hcc), other hcc]

/-- A command that is made is in no queue. -/
theorem Stored.add_spec (h : e.Stored) (command : Command) :
    e.Added { e with commands := (e.commands.add command).2 } command := by
  refine ⟨⟨fun _ => rfl, fun r => ?_, h.tree, rfl, fun _ => rfl⟩, fun _ => rfl, fun _ => rfl, rfl⟩
  refine (h.orderly r).frame fun c _ old hg => ⟨old, ?_, rfl⟩
  rw [Commands.get?_add, if_neg (Nat.ne_of_lt (Commands.lt_of_get? hg)), hg]

/-- A caller's command is taken out of the queue, and with it the one that has held the slot for too
long; a command that has been claimed is not there any more. -/
theorem Stored.withdraw_spec (h : e.Stored) {w : Waiter} (hr : e.router? w.router = some router) :
    e.Alike (e.withdraw w) ∧ (e.withdraw w).stack = .claimed w :: e.stack ∨
      ∃ mid old, ∃ expired : Option CommandRef, e.Changed mid w.command old old true ∧
        w.command ∈ (e.queue w.router).members ∧
        Forced mid (expired.toList.map (w.router, ·)) (e.withdraw w) ∧
        (e.withdraw w).stack = expired.toList.map (.expire w.router) ++
          [Task.drain w.router, Task.kick] ++ afterTimeout w ++ e.stack := by
  have hq := queue_of_router? hr
  obtain ⟨hfound, -, -⟩ := Queue.abandon_eq router.queue w.command
  unfold withdraw
  rw [hr]
  simp only
  split
  · exact .inl ⟨h.alike_push _, rfl⟩
  · rename_i queue heq
    right
    rw [heq] at hfound
    have hm : w.command ∈ router.queue.members := by simpa using hfound.symm
    obtain ⟨old, hc, -⟩ := h.members w.router w.command (hq ▸ hm)
    have hqueue : queue = (router.queue.abandon w.command).2 := by rw [heq]
    have ho := h.orderly w.router
    rw [hq] at ho
    -- the engine in which only the caller's command has been taken out
    have mid : e.Changed (e.setQueue w.router queue) w.command old old true := by
      refine h.changed_of (core_setQueue e w.router queue) (begunOn_setQueue e w.router queue) rfl
        hc (fun c' => ?_) (fun r' => ?_) nofun
      · show e.command? c' = _
        split
        · rename_i same
          rw [← same, hc]
        · rfl
      · rw [queue_setQueue hr]
        split
        · rename_i same
          rw [← same, hq, hqueue, Queue.members_abandon]
          exact ⟨ho.abandon w.command, rfl⟩
        · rename_i other
          refine ⟨h.orderly r', (List.erase_of_not_mem fun hmem => other ?_).symm⟩
          exact h.eq_of_mem (hq ▸ hm) hmem
    have hs := h.of_changed mid (mid.extends rfl fun _ => id) nofun
    have hr' : (e.setQueue w.router queue).router? w.router =
        some { router with queue := queue } := by
      unfold setQueue
      rw [router?_updateRouter, if_pos rfl, hr]
      rfl
    have forced : Forced (e.setQueue w.router queue)
        ((queue.expire e.commands e.topology.settings.timeoutMs e.now).1.toList.map
          (w.router, ·)) ((e.setQueue w.router queue).setLine w.router
            (queue.expire e.commands e.topology.settings.timeoutMs e.now).2) :=
      hs.expire_spec hr' e.topology.settings.timeoutMs e.now
    refine ⟨e.setQueue w.router queue, old,
      (queue.expire e.commands e.topology.settings.timeoutMs e.now).1, mid, hq ▸ hm, ?_, rfl⟩
    have same := setLine_setQueue e w.router queue
      (queue.expire e.commands e.topology.settings.timeoutMs e.now).2
    have counted := (forced.stored hs).alike_count w.router fun stats =>
      { stats with timeouts := stats.timeouts + 1 }
    have pushed := ((forced.stored hs).of_alike counted).alike_push
      ((queue.expire e.commands e.topology.settings.timeoutMs e.now).1.toList.map
        (.expire w.router) ++ [Task.drain w.router, Task.kick] ++ afterTimeout w)
    have whole := forced.alike (counted.trans pushed)
    rw [same] at whole
    exact whole

/-! ## Requests of programs -/

/-- A transfer is refused at once, or waits for the frame of its command. -/
theorem Stored.issue_spec (h : e.Stored) (r : RouterRef) (t : Transfer) (style : Style) :
    e.Alike (e.issue r t style) ∧
      ((∃ failure, (e.issue r t style).stack = .reply (.error failure) :: e.stack) ∨
        ∃ command router, (e.issue r t style).stack = .allocate r command style :: e.stack ∧
          e.router? r = some router ∧ command = command.made ∧ command.node = router.id ∧
          command.route = router.route ∧ command.kind = t.kind ∧
          t.address = .ok command.address) := by
  unfold issue
  split
  · exact ⟨h.alike_push _, .inl ⟨_, rfl⟩⟩
  · rename_i address ha
    split
    · exact ⟨h.alike_push _, .inl ⟨_, rfl⟩⟩
    · rename_i router hr
      split
      · exact ⟨h.alike_push _, .inl ⟨_, rfl⟩⟩
      · split
        · exact ⟨h.alike_push _, .inl ⟨_, rfl⟩⟩
        · simp only
          split
          · exact ⟨h.alike_of_eq rfl rfl rfl, .inl ⟨_, rfl⟩⟩
          · exact ⟨h.alike_of_eq rfl rfl rfl, .inr ⟨_, router, rfl, hr, rfl, rfl, rfl, rfl, ha⟩⟩

theorem Stored.enrol_spec (h : e.Stored) (r : RouterRef) (identity : Identity) :
    e.Alike (e.enrol r identity) ∧
      ∃ reply, (e.enrol r identity).stack = .reply reply :: e.stack := by
  unfold enrol
  split
  · exact ⟨h.alike_push _, _, rfl⟩
  · rename_i router hr
    split
    · exact ⟨h.alike_push _, _, rfl⟩
    · rename_i tree ht
      obtain ⟨hs, hn, he⟩ := RouterTree.setAdapterCount_spec h.tree ht
      have cores (r' : RouterRef) := core_updateRouter e r r' (f := fun router =>
        { router with identity := router.identity.orElse fun _ => some identity }) fun _ => rfl
      have begins (r' : RouterRef) := begunOn_updateRouter e r r' (f := fun router =>
        { router with identity := router.identity.orElse fun _ => some identity }) fun _ => rfl
      have queues (r' : RouterRef) := queue_updateRouter e r r' (f := fun router =>
        { router with identity := router.identity.orElse fun _ => some identity }) fun _ => rfl
      exact ⟨h.alike_of cores begins queues rfl hs hn he, _, rfl⟩

/-- The part of a router's record that a detachment changes, whatever the tree says to it. -/
theorem Stored.parted_of (h : e.Stored) {tree : RouterTree RouterRef} (tasks : List Task)
    (ht : tree = e.topology.tree ∨ ∃ value, e.topology.tree.remove ⟨r.index⟩ = .ok (value, tree)) :
    e.Parted (({ e.updateRouter r (fun router => { router with detached := true }) with
      topology := { e.topology with tree := tree } } : Engine).push tasks) r := by
  have cores (r' : RouterRef) : ((e.updateRouter r fun router =>
      { router with detached := true }).router? r').map Router.core =
        (e.router? r').map fun router => if r = r' then { router.core with detached := true }
          else router.core := by
    rw [router?_updateRouter]
    split
    · cases e.router? r' <;> rfl
    · rfl
  have begins (r' : RouterRef) := begunOn_updateRouter e r r'
    (f := fun router => { router with detached := true }) fun _ => rfl
  have queues (r' : RouterRef) := queue_updateRouter e r r'
    (f := fun router => { router with detached := true }) fun _ => rfl
  rcases ht with rfl | ⟨value, ht⟩
  · exact ⟨cores, begins, queues, rfl, h.tree, rfl, fun _ => .inl rfl⟩
  · obtain ⟨hs, hn, -, he⟩ := RouterTree.remove_spec h.tree ht
    refine ⟨cores, begins, queues, rfl, hs, hn, fun id => ?_⟩
    have he := he id
    split at he
    · rename_i same
      exact .inr ⟨same.symm, he⟩
    · exact .inl he

/-- A router that could not be discovered is taken out of the tree. -/
theorem Stored.unlink_spec (h : e.Stored) (r : RouterRef) :
    (e.Alike (e.unlink r) ∧ e.router? r = none ∨ e.Parted (e.unlink r) r) ∧
      (e.unlink r).stack = .reply (.ok []) :: e.stack := by
  unfold unlink
  split
  · rename_i hr
    exact ⟨.inl ⟨h.alike_push _, hr⟩, rfl⟩
  · rename_i router hr
    have hid := h.ids r router hr
    refine ⟨.inr (h.parted_of [.reply (.ok [])] ?_), rfl⟩
    rw [hid]
    split
    · rename_i value tree hremove
      exact .inr ⟨value, hremove⟩
    · exact .inl rfl

/-! ## Attaching and detaching -/

/-- A new router that the tree has taken, or has refused. -/
theorem Stored.joined_of (h : e.Stored) {route : Route} {tree : RouterTree RouterRef}
    {tasks : List Task} {linked : Bool}
    (ht : tree = e.topology.tree.allocateId.2 ∧ linked = false ∨
      linked = true ∧ tree.Sound ∧ tree.nextId = e.topology.tree.nextId + 1 ∧ ∃ parent,
        ∀ id, tree.place? id = if ⟨e.routers.length⟩ = id then
          some (⟨e.routers.length⟩, route, parent) else e.topology.tree.place? id) :
    e.Joined (({ (e.addRouter ⟨e.routers.length⟩ route).2 with
      topology := { e.topology with tree := tree } } : Engine).push tasks) route linked := by
  rcases ht with ⟨rfl, rfl⟩ | ⟨rfl, hs, hn, parent, he⟩
  · refine ⟨rfl, rfl, h.tree.allocateId, rfl, fun _ _ => rfl, .inl ⟨?_, rfl⟩⟩
    have := h.tree.node?_eq_none_of_fresh ⟨e.routers.length⟩ (Nat.le_of_eq h.nextId)
    show (e.topology.tree.node? ⟨e.routers.length⟩).map _ = none
    rw [this]
    rfl
  · refine ⟨rfl, rfl, hs, hn, fun id hid => ?_, .inr ⟨parent, ?_, rfl⟩⟩
    · show tree.place? id = _
      rw [he, if_neg (Ne.symm hid)]
    · show tree.place? _ = _
      rw [he, if_pos rfl]

theorem Stored.freshId (h : e.Stored) : e.topology.tree.allocateId.1 = ⟨e.routers.length⟩ ∧
    e.topology.tree.allocateId.2.node? ⟨e.routers.length⟩ = none ∧
    e.routers.length < e.topology.tree.allocateId.2.nextId := by
  refine ⟨by unfold RouterTree.allocateId; rw [h.nextId], ?_, ?_⟩
  · exact h.tree.node?_eq_none_of_fresh ⟨e.routers.length⟩ (Nat.le_of_eq h.nextId)
  · show _ < e.topology.tree.nextId + 1
    rw [h.nextId]
    exact Nat.lt_succ_self _

theorem Stored.linkRoot_spec (h : e.Stored) :
    ∃ linked, e.Joined e.linkRoot Route.root linked ∧
      (linked = false ∧ (∃ failure, e.linkRoot.stack = .answer (.error failure) :: e.stack) ∨
        linked = true ∧ ∃ settings, e.linkRoot.stack = .perform ⟨e.routers.length⟩ (do
          Procedure.discover settings Route.root
          return .router ⟨e.routers.length⟩) :: e.stack) := by
  unfold linkRoot discovery
  obtain ⟨hid, hfresh, hlt⟩ := h.freshId
  simp only [hid]
  split
  · exact ⟨false, h.joined_of (.inl ⟨rfl, rfl⟩), .inl ⟨rfl, _, rfl⟩⟩
  · rename_i linked hl
    obtain ⟨hs, hn, he⟩ := RouterTree.insertRoot_spec h.tree.allocateId hfresh hlt hl
    exact ⟨true, h.joined_of (.inr ⟨rfl, hs, hn, _, he⟩), .inr ⟨rfl, _, rfl⟩⟩

theorem Stored.attachChild_spec (h : e.Stored) (parent : RouterRef) (route : Route) :
    e.Alike (e.attachChild parent route) ∧
        (∃ failure, (e.attachChild parent route).stack = .answer (.error failure) :: e.stack) ∨
      ∃ linked, e.Joined (e.attachChild parent route) route linked ∧
        (linked = false ∧
            (∃ failure, (e.attachChild parent route).stack = .answer (.error failure) :: e.stack) ∨
          linked = true ∧ ∃ settings,
            (e.attachChild parent route).stack = .perform ⟨e.routers.length⟩ (do
              Procedure.discover settings route
              return .router ⟨e.routers.length⟩) :: e.stack) := by
  unfold attachChild discovery
  split
  · exact .inl ⟨h.alike_push _, _, rfl⟩
  · rename_i above ha
    right
    obtain ⟨hid, hfresh, hlt⟩ := h.freshId
    simp only [hid]
    split
    · exact ⟨false, h.joined_of (.inl ⟨rfl, rfl⟩), .inl ⟨rfl, _, rfl⟩⟩
    · rename_i linked hl
      obtain ⟨hs, hn, he⟩ := RouterTree.insert_spec h.tree.allocateId hfresh hlt hl
      exact ⟨true, h.joined_of (.inr ⟨rfl, hs, hn, _, he⟩), .inr ⟨rfl, _, rfl⟩⟩

/-- Routers that are detached one after the other. -/
inductive Cut : Engine → List RouterRef → Engine → Prop
  | none {e e' : Engine} : e.Alike e' → Cut e [] e'
  | next {e e' e'' : Engine} {r : RouterRef} {rs : List RouterRef} :
    e.Parted e' r → Cut e' rs e'' → Cut e (r :: rs) e''

theorem Cut.extends {rs : List RouterRef} (k : Cut e rs e') (h : e.Stored) : e.Extends e' := by
  induction k with
  | none a => exact a.extends
  | next p _ ih => exact (p.extends h).trans (ih (h.of_parted p))

theorem Cut.stored {rs : List RouterRef} (k : Cut e rs e') (h : e.Stored) : e'.Stored := by
  induction k with
  | none a => exact h.of_alike a
  | next p _ ih => exact ih (h.of_parted p)

theorem Cut.alike {rs : List RouterRef} (k : Cut e rs e') (a : e'.Alike e'') : Cut e rs e'' := by
  induction k with
  | none b => exact .none (b.trans a)
  | next p _ ih => exact .next p (ih a)

theorem Stored.expireEach_spec (h : e.Stored) (rs : List RouterRef) :
    Forced e (e.expireEach rs).1 (e.expireEach rs).2 ∧ (e.expireEach rs).2.stack = e.stack := by
  induction rs generalizing e with
  | nil => exact ⟨.none h.alike_refl, rfl⟩
  | cons r rest ih =>
    unfold expireEach
    split
    · exact ih h
    · rename_i router hr
      have first := h.expire_spec hr e.topology.settings.timeoutMs e.now
      obtain ⟨others, hstack⟩ := ih (first.stored h)
      exact ⟨first.append others, hstack⟩

theorem Stored.removeEach_spec (h : e.Stored) (pairs : List (NodeId × RouterRef))
    (fit : ∀ p ∈ pairs, p.1 = ⟨p.2.index⟩) :
    (∃ rs, Cut e rs (e.removeEach pairs).2 ∧ ∀ r ∈ rs, r ∈ pairs.map (·.2)) ∧
      (e.removeEach pairs).2.stack = e.stack := by
  induction pairs generalizing e with
  | nil => exact ⟨⟨[], .none h.alike_refl, nofun⟩, rfl⟩
  | cons pair rest ih =>
    obtain ⟨id, r⟩ := pair
    obtain rfl : id = ⟨r.index⟩ := fit _ List.mem_cons_self
    unfold removeEach
    simp only
    split
    · have p := h.parted_of (r := r) [] (.inl rfl)
      refine ⟨⟨[r], .next p (.none (h.of_parted p).alike_refl), fun r' hr' => ?_⟩, rfl⟩
      rw [List.mem_singleton.1 hr']
      exact List.mem_cons_self
    · rename_i value tree hrem
      have p := h.parted_of (r := r) [] (.inr ⟨value, hrem⟩)
      obtain ⟨⟨rs, cut, hmem⟩, hstack⟩ := ih (h.of_parted p)
        fun p hp => fit p (List.mem_cons_of_mem _ hp)
      refine ⟨⟨r :: rs, .next p cut, fun r' hr' => ?_⟩, hstack⟩
      rcases List.mem_cons.1 hr' with rfl | hr'
      · exact List.mem_cons_self
      · exact List.mem_cons_of_mem _ (hmem r' hr')

/-- Routers are removed together or not at all; those that are removed have no command left. -/
theorem Stored.removeSubtree_spec (h : e.Stored) {ids : List NodeId} {rs : List RouterRef}
    (fit : ∀ p ∈ ids.zip rs, p.1 = ⟨p.2.index⟩) :
    (∃ rs', Cut e rs' (e.removeSubtree ids rs).2 ∧ ∀ r ∈ rs', (e.queue r).members = []) ∧
      (e.removeSubtree ids rs).2.stack = e.stack := by
  unfold removeSubtree
  split
  · exact ⟨⟨[], .none h.alike_refl, nofun⟩, rfl⟩
  · rename_i free
    obtain ⟨⟨rs', cut, hmem⟩, hstack⟩ := h.removeEach_spec (ids.zip rs) fit
    refine ⟨⟨rs', cut, fun r hr => ?_⟩, hstack⟩
    obtain ⟨⟨id, r'⟩, hp, rfl⟩ := List.mem_map.1 (hmem r hr)
    have hrs : r' ∈ rs := (List.of_mem_zip hp).2
    cases hrouter : e.router? r' with
    | none =>
      unfold queue
      rw [hrouter]
      rfl
    | some router =>
      show (e.queue r').members = []
      rw [queue_of_router? hrouter, ← Queue.outstanding_eq_zero_iff]
      refine Nat.eq_zero_of_not_pos fun hpos => free ?_
      exact List.any_eq_true.2 ⟨r', hrs, by simp [hrouter, hpos]⟩

theorem Stored.get?_eq (h : e.Stored) {id : NodeId} (hc : e.topology.tree.contains id = true) :
    e.topology.tree.get? id = some ⟨id.number⟩ := by
  unfold RouterTree.contains at hc
  obtain ⟨node, hn⟩ := Option.isSome_iff_exists.1 hc
  have he : e.topology.tree.place? id = some node.place := by
    unfold RouterTree.place?
    rw [hn]
    rfl
  obtain ⟨hv, -⟩ := h.places id _ _ _ he
  rw [RouterTree.get?_eq_place, he, Option.map_some, ← hv]
  rfl

/-- A detachment expires commands, and then removes routers that have none left, if it does. -/
theorem Stored.detach_spec (h : e.Stored) (r : RouterRef) :
    ∃ expired mid rs quiet result, Forced e expired mid ∧ Cut mid rs (e.detach r) ∧
      (∀ r ∈ rs, (mid.queue r).members = []) ∧
      (e.detach r).stack = expired.map (fun (r, c) => Task.expire r c) ++ quiet ++
        .answer result :: e.stack ∧
      ∀ t ∈ quiet, (∃ r, t = .drain r) ∨ t = .kick ∨
        t = .hold (expired.map (·.1)) (expired.map (·.2)) := by
  unfold detach
  simp only
  split
  · refine ⟨[], e, [], [.kick], .error .notFound, .none h.alike_refl, .none (h.alike_push _), nofun,
      rfl, fun t ht => .inr (.inl (List.mem_singleton.1 ht))⟩
  · generalize hids : ((e.router? r).map fun router =>
      e.topology.tree.subtree router.id).getD [] = ids
    have present : ∀ id ∈ ids, e.topology.tree.contains id = true := by
      intro id hid
      rw [← hids] at hid
      cases hr : e.router? r with
      | none => simp [hr] at hid
      | some router =>
        simp only [hr, Option.map_some, Option.getD_some] at hid
        exact RouterTree.contains_of_mem_subtree h.tree hid
    have values : ids.filterMap e.topology.tree.get? = ids.map fun id => ⟨id.number⟩ := by
      rw [← List.filterMap_eq_map]
      exact List.filterMap_congr fun id hid => h.get?_eq (present id hid)
    have fit : ∀ p ∈ ids.zip (ids.filterMap e.topology.tree.get?), p.1 = ⟨p.2.index⟩ := by
      intro p hp
      have zipped := List.zip_map' (l := ids) (f := id) (g := fun id => (⟨id.number⟩ : RouterRef))
      rw [List.map_id] at zipped
      rw [values, zipped] at hp
      obtain ⟨id, -, rfl⟩ := List.mem_map.1 hp
      rfl
    generalize ids.filterMap e.topology.tree.get? = routers at fit ⊢
    obtain ⟨forced, hstack⟩ := h.expireEach_spec routers
    generalize e.expireEach routers = x at forced hstack ⊢
    obtain ⟨expired, freed⟩ := x
    obtain ⟨⟨rs, cut, hempty⟩, hstack'⟩ := (forced.stored h).removeSubtree_spec fit
    simp only at hstack hstack' cut ⊢
    have whole := fun tasks => cut.alike ((cut.stored (forced.stored h)).alike_push tasks)
    generalize freed.removeSubtree ids routers = y at whole hstack' ⊢
    obtain ⟨result, removed⟩ := y
    have hbelow : removed.stack = e.stack := hstack'.trans hstack
    cases result with
    | ok done =>
      refine ⟨expired, freed, rs, [.hold (expired.map (·.1)) (expired.map (·.2))], .ok .nothing,
        forced, whole _, hempty, ?_, fun t ht => .inr (.inr (List.mem_singleton.1 ht))⟩
      show _ ++ removed.stack = _
      rw [hbelow]
      simp [Except.map]
    | error failure =>
      refine ⟨expired, freed, rs, expired.map (fun (r, _) => .drain r) ++
        [Task.kick, Task.hold (expired.map (·.1)) (expired.map (·.2))], .error failure, forced,
        whole _, hempty, ?_, fun t ht => ?_⟩
      · show _ ++ removed.stack = _
        rw [hbelow]
        simp [Except.map]
      · rcases List.mem_append.1 ht with ht | ht
        · obtain ⟨⟨r', c⟩, -, rfl⟩ := List.mem_map.1 ht
          exact .inl ⟨r', rfl⟩
        · rcases List.mem_cons.1 ht with rfl | ht
          · exact .inr (.inl rfl)
          · exact .inr (.inr (List.mem_singleton.1 ht))

end Engine

end RouterFabric
