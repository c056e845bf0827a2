import RouterFabric.Proofs.Arrivals
import RouterFabric.Proofs.Engine.Sections

/-!
# What sees the signals of an attempt

The signals that are noted for an attempt are looked at when another one arrives and when the
attempt is claimed by force, and by nothing else. So as long as an attempt keeps its slot and no
signal for it arrives, the engine does the same whichever signals are noted for it.

* `Command.withSignals`, `Engine.withSignals` : the same, with other signals noted
* `step_withSignals`, `granted?_withSignals`, `withdraw_withSignals`, `call_withSignals`,
  `receive_withSignals` : what the engine does, section by section
* `Sound.move?_withSignals` : every move that leaves the attempt in its slot
-/

namespace RouterFabric

/-- The signals that are noted for an attempt, with the words that came along. -/
structure Signals where
  sent : Bool
  answered : Bool
  response : Option (List UInt32)

namespace Command

/-- The signals noted for the current attempt. -/
def signals (command : Command) : Signals where
  sent := command.sent
  answered := command.answered
  response := command.response

/-- The command with these signals noted for its current attempt, and no others. -/
def withSignals (command : Command) (s : Signals) : Command :=
  { command with sent := s.sent, answered := s.answered, response := s.response }

@[simp] theorem withSignals_signals (command : Command) :
    command.withSignals command.signals = command := rfl

end Command

namespace Commands

variable {cs : Commands} {c c' : CommandRef} {command : Command} {s : Signals}

/-- The store with these signals noted for the current attempt of one command. -/
def withSignals (cs : Commands) (c : CommandRef) (s : Signals) : Commands :=
  cs.update c (·.withSignals s)

theorem get?_withSignals (hc : cs.get? c = some command) :
    (cs.withSignals c s).get? c = some (command.withSignals s) := by
  rw [withSignals, get?_update, if_pos rfl, hc]
  rfl

theorem get?_withSignals_of_ne (hne : c' ≠ c) : (cs.withSignals c s).get? c' = cs.get? c' := by
  rw [withSignals, get?_update, if_neg (Ne.symm hne)]

/-- Two stores are equal if all look-ups are. -/
theorem ext_get? {cs cs' : Commands} (h : ∀ c, cs.get? c = cs'.get? c) : cs = cs' := by
  apply List.ext_getElem?
  intro i
  exact h ⟨i⟩

theorem index_ne (hne : c' ≠ c) : c.index ≠ c'.index :=
  fun h => hne (ref_eq_iff.2 h.symm)

theorem update_withSignals (hne : c' ≠ c) (f : Command → Command) :
    (cs.withSignals c s).update c' f = (cs.update c' f).withSignals c s :=
  List.modify_modify_ne _ f cs (index_ne hne)

theorem set_withSignals (hne : c' ≠ c) (command : Command) :
    (cs.withSignals c s).set c'.index command =
      Commands.withSignals (cs.set c'.index command) c s := by
  apply List.ext_getElem?
  intro i
  have hindex := index_ne hne
  simp only [withSignals, update, List.getElem?_set, List.getElem?_modify, List.length_modify]
  by_cases hi : c'.index = i
  · subst hi
    by_cases hlt : c'.index < cs.length <;> simp [hindex, hlt]
  · simp [hi]

theorem change_withSignals {α : Type} (hne : c' ≠ c) (absent : α) (f : Command → α × Command) :
    (cs.withSignals c s).change c' absent f =
      ((cs.change c' absent f).1, (cs.change c' absent f).2.withSignals c s) := by
  unfold change
  rw [get?_withSignals_of_ne hne]
  cases cs.get? c' with
  | none => rfl
  | some command => simp only [set_withSignals hne]

/-- Where a command stands in its queue is changed whatever is noted for it. -/
theorem setPhase_withSignals (c' : CommandRef) (phase : Phase) (now : Nat) :
    (cs.withSignals c s).update c' (·.setPhase phase now) =
      (cs.update c' (·.setPhase phase now)).withSignals c s := by
  by_cases hne : c' = c
  · subst hne
    simp only [withSignals, update, List.modify_modify_eq]
    rfl
  · exact update_withSignals hne _

theorem add_withSignals (hlt : c.index < cs.length) (command : Command) :
    (cs.withSignals c s).add command =
      ((cs.add command).1, (cs.add command).2.withSignals c s) := by
  have hlength : (cs.withSignals c s).length = cs.length := List.length_modify _ _ _
  refine Prod.ext ?_ ?_
  · simp [add, hlength]
  · apply ext_get?
    intro c'
    rw [get?_add, hlength, withSignals, withSignals, get?_update, get?_update, get?_add]
    by_cases hnew : c'.index = cs.length
    · have hne : c ≠ c' := by
        rintro rfl
        omega
      rw [if_pos hnew, if_neg hne, if_pos hnew]
    · rw [if_neg hnew, if_neg hnew]

end Commands

/-! ## Queues -/

namespace Queue

variable {q : Queue} {cs : Commands} {c c' : CommandRef} {s : Signals} {limit now : Nat}

theorem enqueue_withSignals :
    q.enqueue (cs.withSignals c s) c' =
      ((q.enqueue cs c').1, (q.enqueue cs c').2.withSignals c s) := by
  simp only [enqueue, Commands.setPhase_withSignals]

theorem beginDrain_withSignals :
    q.beginDrain (cs.withSignals c s) now =
      (q.beginDrain cs now).map fun (c', line) => (c', line.1, line.2.withSignals c s) := by
  unfold beginDrain
  split
  · simp only [Commands.setPhase_withSignals, Option.map_some]
  · rfl

theorem defer_withSignals :
    q.defer (cs.withSignals c s) c' =
      ((q.defer cs c').1, (q.defer cs c').2.1, (q.defer cs c').2.2.withSignals c s) := by
  unfold defer
  split
  · simp only [Commands.setPhase_withSignals]
  · rfl

theorem complete_withSignals (hne : c' ≠ c) (generation : Nat) :
    q.complete (cs.withSignals c s) c' generation = q.complete cs c' generation := by
  unfold complete
  rw [Commands.get?_withSignals_of_ne hne]

/-- What is expired has been taken out of the slot. -/
theorem slot_of_expire (h : (q.expire cs limit now).1 = some c) :
    q.slot = some c ∧ (q.expire cs limit now).2.1 = q.release := by
  rcases expire_cases q cs limit now with he | ⟨c', command', hslot, -, -, -, he⟩
  · rw [he] at h
    cases h
  · rw [he] at h ⊢
    cases h
    exact ⟨hslot, rfl⟩

theorem slot_of_slot_expire (h : (q.expire cs limit now).2.1.slot = some c) : q.slot = some c := by
  rcases expire_cases q cs limit now with he | ⟨c', command', -, -, -, -, he⟩
  · rw [he] at h
    exact h
  · rw [he] at h
    cases h

theorem get?_of_expire (h : (q.expire cs limit now).1 ≠ some c) :
    (q.expire cs limit now).2.2.get? c = cs.get? c := by
  rcases expire_cases q cs limit now with he | ⟨c', command', -, hg, -, -, he⟩
  · rw [he]
  · rw [he] at h ⊢
    have hne : c' ≠ c := fun heq => h (congrArg some heq)
    show Commands.get? (cs.set c'.index _) c = _
    rw [Commands.get?_set hg, if_neg hne]

theorem slot_of_abandon (h : (q.abandon c').2.slot = some c) : q.slot = some c := by
  obtain ⟨-, hslot, hline⟩ := q.abandon_eq c'
  by_cases hs : q.slot = some c'
  · rw [hslot hs] at h
    cases h
  · rw [hline hs] at h
    exact h

/-- An expiry that does not take the command out of the slot. -/
theorem expire_withSignals (hc : cs.get? c = some command) (hwaits : command.isComplete = false)
    (hkept : (q.expire cs limit now).1 ≠ some c) :
    q.expire (cs.withSignals c s) limit now =
      ((q.expire cs limit now).1, (q.expire cs limit now).2.1,
        (q.expire cs limit now).2.2.withSignals c s) := by
  unfold expire at hkept ⊢
  cases hslot : q.slot with
  | none => rfl
  | some c' =>
    simp only [hslot] at hkept
    by_cases hne : c' = c
    · subst hne
      -- it is not the time to expire it, or it would be taken out
      have hheld : command.heldFor limit now = false := by
        refine Bool.eq_false_iff.2 fun hheld => ?_
        simp [hc, hheld, Command.markAll, hwaits] at hkept
      have hheld' : (command.withSignals s).heldFor limit now = false := hheld
      simp [hc, Commands.get?_withSignals hc, hheld, hheld']
    · simp only [Commands.get?_withSignals_of_ne hne, Commands.set_withSignals hne]
      cases cs.get? c' with
      | none => rfl
      | some command' =>
        simp only
        split
        · split <;> rfl
        · rfl

end Queue

/-! ## Sections that look at no command -/

namespace Engine

variable {e e' : Engine} {m : Move} {r r' : RouterRef} {c c' : CommandRef} {command : Command}
  {s : Signals} {w : Waiter}

/-- The engine with these signals noted for the current attempt of one command. -/
def withSignals (e : Engine) (c : CommandRef) (s : Signals) : Engine :=
  { e with commands := e.commands.withSignals c s }

@[simp] theorem router?_withSignals : (e.withSignals c s).router? r = e.router? r := rfl

@[simp] theorem routers_withSignals : (e.withSignals c s).routers = e.routers := rfl

@[simp] theorem topology_withSignals : (e.withSignals c s).topology = e.topology := rfl

@[simp] theorem stack_withSignals : (e.withSignals c s).stack = e.stack := rfl

@[simp] theorem now_withSignals : (e.withSignals c s).now = e.now := rfl

@[simp] theorem commands_withSignals :
    (e.withSignals c s).commands = e.commands.withSignals c s := rfl

theorem updateRouter_withSignals (r : RouterRef) (f : Router → Router) :
    (e.withSignals c s).updateRouter r f = (e.updateRouter r f).withSignals c s := rfl

theorem command?_withSignals (hc : e.command? c = some command) :
    (e.withSignals c s).command? c = some (command.withSignals s) :=
  Commands.get?_withSignals hc

theorem command?_withSignals_of_ne (hne : c' ≠ c) :
    (e.withSignals c s).command? c' = e.command? c' :=
  Commands.get?_withSignals_of_ne hne

theorem issue_withSignals (r : RouterRef) (t : Transfer) (style : Style) :
    (e.withSignals c s).issue r t style = (e.issue r t style).withSignals c s := by
  unfold issue
  simp only [router?_withSignals]
  split
  · rfl
  · split
    · rfl
    · split
      · rfl
      · split
        · rfl
        · simp only [topology_withSignals]
          split <;> rfl

theorem enrol_withSignals (r : RouterRef) (identity : Identity) :
    (e.withSignals c s).enrol r identity = (e.enrol r identity).withSignals c s := by
  unfold enrol
  simp only [router?_withSignals, topology_withSignals]
  split
  · rfl
  · split <;> rfl

theorem unlink_withSignals (r : RouterRef) :
    (e.withSignals c s).unlink r = (e.unlink r).withSignals c s := by
  unfold unlink
  simp only [router?_withSignals]
  split <;> rfl

theorem meet_withSignals (r : RouterRef) (request : Request) :
    (e.withSignals c s).meet r request = (e.meet r request).withSignals c s := by
  cases request with
  | transfer t style => exact issue_withSignals r t style
  | pause ms => rfl
  | fallAsleep => rfl
  | enrol identity => exact enrol_withSignals r identity
  | unlink => exact unlink_withSignals r

theorem passOn_withSignals (reply : Reply) :
    (e.withSignals c s).passOn reply = (e.passOn reply).withSignals c s := by
  unfold passOn
  simp only [stack_withSignals]
  split <;> rfl

theorem drainFirst_withSignals (ids : List NodeId) :
    (e.withSignals c s).drainFirst ids = (e.drainFirst ids).withSignals c s := by
  cases ids <;> rfl

theorem linkRoot_withSignals :
    (e.withSignals c s).linkRoot = e.linkRoot.withSignals c s := by
  unfold linkRoot addRouter
  simp only [topology_withSignals, routers_withSignals]
  split <;> rfl

theorem attachChild_withSignals (parent : RouterRef) (route : Route) :
    (e.withSignals c s).attachChild parent route =
      (e.attachChild parent route).withSignals c s := by
  unfold attachChild
  simp only [router?_withSignals, topology_withSignals, routers_withSignals, addRouter]
  split
  · rfl
  · split <;> rfl

theorem resume_withSignals (r : RouterRef) :
    (e.withSignals c s).resume r = (e.resume r).withSignals c s := by
  unfold resume
  simp only [router?_withSignals]
  split
  · rfl
  · split <;> rfl

theorem operate_withSignals (r : RouterRef) (operation : Operation) :
    (e.withSignals c s).operate r operation = (e.operate r operation).withSignals c s := by
  unfold operate
  simp only [router?_withSignals, topology_withSignals]
  split <;> rfl

theorem removeEach_withSignals (pairs : List (NodeId × RouterRef)) :
    (e.withSignals c s).removeEach pairs =
      ((e.removeEach pairs).1, (e.removeEach pairs).2.withSignals c s) := by
  induction pairs generalizing e with
  | nil => rfl
  | cons pair rest ih =>
    unfold removeEach
    simp only [updateRouter_withSignals, topology_withSignals]
    split
    · rfl
    · rename_i tree _
      exact ih (e := { e.updateRouter pair.2 (fun router => { router with detached := true }) with
        topology := { e.topology with tree := tree } })

theorem removeSubtree_withSignals (ids : List NodeId) (rs : List RouterRef) :
    (e.withSignals c s).removeSubtree ids rs =
      ((e.removeSubtree ids rs).1, (e.removeSubtree ids rs).2.withSignals c s) := by
  unfold removeSubtree
  by_cases hbusy : (rs.any fun r => (e.router? r).any (0 < ·.queue.outstanding)) = true
  · have hbusy' : (rs.any fun r => ((e.withSignals c s).router? r).any
      (0 < ·.queue.outstanding)) = true := hbusy
    rw [if_pos hbusy, if_pos hbusy']
  · have hbusy' : ¬ (rs.any fun r => ((e.withSignals c s).router? r).any
      (0 < ·.queue.outstanding)) = true := hbusy
    rw [if_neg hbusy, if_neg hbusy']
    exact removeEach_withSignals _

/-! ## Sections that change other commands -/

theorem launch_withSignals (hne : c' ≠ c) (r : RouterRef) (next : List Task) :
    (e.withSignals c s).launch r c' next = (e.launch r c' next).withSignals c s := by
  unfold launch
  simp only [router?_withSignals, commands_withSignals]
  split
  · rfl
  · split
    · simp only [Commands.update_withSignals hne]
      rfl
    · simp only [Commands.update_withSignals hne, Queue.enqueue_withSignals]
      rfl

theorem retry_withSignals (hne : w.command ≠ c) :
    (e.withSignals c s).retry w = (e.retry w).withSignals c s := by
  unfold retry
  split
  · rfl
  · exact launch_withSignals hne _ _
  · exact launch_withSignals hne _ _

theorem finish_withSignals (hne : c' ≠ c) (ending : Ending) :
    (e.withSignals c s).finish c' ending = (e.finish c' ending).withSignals c s := by
  unfold finish
  rw [command?_withSignals_of_ne hne]
  cases e.command? c' with
  | none => rfl
  | some command =>
    simp only [commands_withSignals, Commands.update_withSignals hne]
    split <;> rfl

theorem complete_withSignals (hne : c' ≠ c) (r : RouterRef) (generation : Nat) (ending : Ending) :
    (e.withSignals c s).complete r c' generation ending =
      (e.complete r c' generation ending).withSignals c s := by
  unfold complete
  simp only [router?_withSignals, commands_withSignals, Queue.complete_withSignals hne]
  split
  · rfl
  · split
    · rfl
    · rename_i queue _
      exact finish_withSignals (e := ((e.setQueue r queue).count r fun stats =>
        { stats with completed := stats.completed + 1 }).push [.drain r, .kick, .hold [r] [c']])
        hne ending

theorem signal_withSignals (hne : c' ≠ c) (r : RouterRef) (generation : Nat) (signal : Signal)
    (words : Option (List UInt32)) :
    (e.withSignals c s).signal r c' generation signal words =
      (e.signal r c' generation signal words).withSignals c s := by
  unfold Engine.signal
  simp only [commands_withSignals, Commands.change_withSignals hne]
  generalize e.commands.change c' false (·.mark generation signal words) = marked
  obtain ⟨completed, commands⟩ := marked
  cases completed with
  | false => rfl
  | true =>
    generalize commands.change c' [] Command.takeResponse = taken
    exact complete_withSignals (e := { e with commands := taken.2 }) hne r generation
      (.completed taken.1)

theorem begin_withSignals (hlt : c.index < e.commands.length) (r : RouterRef) (command : Command)
    (style : Style) :
    (e.withSignals c s).begin r command style = (e.begin r command style).withSignals c s := by
  have hne : (⟨e.commands.length⟩ : CommandRef) ≠ c := by
    rintro rfl
    exact Nat.lt_irrefl _ hlt
  unfold begin
  simp only [commands_withSignals, Commands.add_withSignals hlt]
  cases style with
  | waiting watching => rfl
  | callback tag =>
    exact launch_withSignals (e := { e with
      commands := (e.commands.add { command with listener := .callback tag }).2 }) hne r _
  | future =>
    exact launch_withSignals (e := { e with
      commands := (e.commands.add { command with listener := .future none }).2 }) hne r _

/-! ## Sections that look at the slot -/

/-- A caller sees the end of its command, which is not in sight for one that waits. -/
theorem settle?_withSignals (hc : e.command? c = some command)
    (hwaits : ∀ watching, notices watching command = false) (w : Waiter) :
    (e.withSignals c s).settle? w = (e.settle? w).map (·.withSignals c s) := by
  unfold settle?
  by_cases hne : w.command = c
  · rw [hne, hc, command?_withSignals hc]
    cases w.patience with
    | future =>
      have hlistener : (command.withSignals s).listener = command.listener := rfl
      simp only [hlistener]
      split <;> rfl
    | retrying watching left =>
      have hwaits' : notices watching (command.withSignals s) = false := by
        cases watching with
        | woken => exact hwaits .woken
        | polling => exact hwaits .polling
      simp [hwaits, hwaits']
  · rw [command?_withSignals_of_ne hne]
    cases e.command? w.command with
    | none => rfl
    | some command' =>
      simp only [commands_withSignals, Commands.set_withSignals hne]
      split
      · split <;> rfl
      · split
        · split <;> rfl
        · rfl

theorem drain_withSignals (r : RouterRef) :
    (e.withSignals c s).drain r = (e.drain r).withSignals c s := by
  rw [drain_eq, drain_eq]
  simp only [router?_withSignals, commands_withSignals, now_withSignals,
    Queue.beginDrain_withSignals]
  split
  · rfl
  · rename_i router _
    cases router.queue.beginDrain e.commands e.now with
    | none => rfl
    | some result => rfl

/-- The transport's answer, unless it ends the attempt. -/
theorem answerOffer_withSignals (r : RouterRef) (answer : Except TransportFault Unit)
    (hkept : c' = c → (e.queue r).slot = some c → answer = .ok () ∨ answer = .error .busy) :
    (e.withSignals c s).answerOffer r c' answer = (e.answerOffer r c' answer).withSignals c s := by
  rw [answerOffer_eq, answerOffer_eq]
  simp only [router?_withSignals, commands_withSignals]
  split
  · rfl
  · rename_i router hr
    split
    · rfl
    · simp only [Queue.defer_withSignals]
      rfl
    · rename_i fault hbusy
      rw [Queue.reject_eq]
      by_cases hslot : router.queue.slot = some c'
      · have hne : c' ≠ c := by
          rintro rfl
          rcases hkept rfl ((queue_of_router? hr).symm ▸ hslot) with h | h
          · cases h
          · exact hbusy (Except.error.inj h)
        rw [if_pos hslot]
        have hcommands : ((e.withSignals c s).setQueue r router.queue.release).commands =
            (e.setQueue r router.queue.release).commands.withSignals c s := rfl
        simp only [hcommands, Commands.change_withSignals hne]
        generalize (e.setQueue r router.queue.release).commands.change c' false
          (fun command => command.markAll command.generation) = marked
        obtain ⟨claimed, commands⟩ := marked
        cases claimed with
        | false => rfl
        | true =>
          exact finish_withSignals (e := ({ e.setQueue r router.queue.release with
            commands := commands } : Engine).push [.hold [r] [c'], .drain r]) hne _
      · rw [if_neg hslot]
        rfl

/-- A caller gives its attempt up, and what it waited behind is not the command in question. -/
theorem Stored.withdraw_withSignals (h : e.Stored) (hslot : (e.queue r).slot = some c)
    (hkept : ((e.withdraw w).queue r).slot = some c) :
    (e.withSignals c s).withdraw w = (e.withdraw w).withSignals c s := by
  have hmem : c ∈ (e.queue r).members := Queue.mem_members.2 (.inl hslot)
  obtain ⟨command, hc, -, hwaits, -⟩ := h.members r c hmem
  unfold withdraw at hkept ⊢
  simp only [router?_withSignals, commands_withSignals, topology_withSignals, now_withSignals]
  cases hr : e.router? w.router with
  | none => rfl
  | some router =>
    rw [hr] at hkept
    have habandon : (router.queue.abandon w.command).2.slot = some c →
        router.queue.slot = some c := Queue.slot_of_abandon
    simp only at hkept ⊢
    generalize router.queue.abandon w.command = withdrawn at hkept habandon ⊢
    obtain ⟨left, queue⟩ := withdrawn
    cases left with
    | false => rfl
    | true =>
      have spared :
          (queue.expire e.commands e.topology.settings.timeoutMs e.now).1 ≠ some c := by
        intro hexpired
        obtain ⟨hbefore, hfreed⟩ := Queue.slot_of_expire hexpired
        have hsame : w.router = r := by
          refine h.eq_of_mem (Queue.mem_members.2 (.inl ?_)) hmem
          rw [queue_of_router? hr]
          exact habandon hbefore
        have hkept : (((e.setLine w.router (queue.expire e.commands
            e.topology.settings.timeoutMs e.now).2).count w.router fun stats =>
              { stats with timeouts := stats.timeouts + 1 }).queue r).slot = some c := hkept
        rw [queue_count, queue_setLine hr, if_pos hsame, hfreed] at hkept
        cases hkept
      simp only [Queue.expire_withSignals hc hwaits spared]
      rfl

theorem expireEach_withSignals (rs : List RouterRef) (hc : e.command? c = some command)
    (hwaits : command.isComplete = false) (hkept : ∀ p ∈ (e.expireEach rs).1, p.2 ≠ c) :
    (e.withSignals c s).expireEach rs =
      ((e.expireEach rs).1, (e.expireEach rs).2.withSignals c s) := by
  induction rs generalizing e with
  | nil => rfl
  | cons r rest ih =>
    unfold expireEach at hkept ⊢
    simp only [router?_withSignals, commands_withSignals, topology_withSignals, now_withSignals]
    split
    · rename_i hr
      rw [hr] at hkept
      exact ih hc hkept
    · rename_i router hr
      rw [hr] at hkept
      simp only at hkept
      have hfirst : (router.queue.expire e.commands e.topology.settings.timeoutMs e.now).1 ≠
          some c := by
        intro heq
        refine hkept (r, c) (List.mem_append_left _ ?_) rfl
        rw [heq]
        exact List.mem_cons_self
      have hc' : (e.setLine r (router.queue.expire e.commands e.topology.settings.timeoutMs
          e.now).2).command? c = some command :=
        (Queue.get?_of_expire hfirst).trans hc
      rw [Queue.expire_withSignals hc hwaits hfirst]
      have hrest := ih hc' fun p hp => hkept p (List.mem_append_right _ hp)
      generalize router.queue.expire e.commands e.topology.settings.timeoutMs e.now = x at hrest ⊢
      have hline : (e.withSignals c s).setLine r (x.2.1, x.2.2.withSignals c s) =
          (e.setLine r x.2).withSignals c s := rfl
      simp only [hline, hrest]

theorem slot_of_expireEach (rs : List RouterRef) :
    ∀ p ∈ (e.expireEach rs).1, (e.queue p.1).slot = some p.2 := by
  induction rs generalizing e with
  | nil => exact fun p hp => absurd hp List.not_mem_nil
  | cons r rest ih =>
    unfold expireEach
    split
    · exact ih
    · rename_i router hr
      intro p hp
      have hq := queue_of_router? hr
      rcases List.mem_append.1 hp with hp | hp
      · obtain ⟨c, hc, rfl⟩ := List.mem_map.1 hp
        rw [hq]
        exact (Queue.slot_of_expire (Option.mem_toList.1 hc)).1
      · have hlater := ih p hp
        rw [queue_setLine hr] at hlater
        split at hlater
        · rename_i same
          rw [← same, hq]
          exact Queue.slot_of_slot_expire hlater
        · exact hlater

/-- What a detachment leaves in its slot it has not expired. -/
theorem Stored.spared_of_detach (h : e.Stored) {ids : List NodeId} {rs : List RouterRef}
    (hslot : (e.queue r).slot = some c)
    (hkept : ((((e.expireEach rs).2.removeSubtree ids rs).2).queue r).slot = some c) :
    ∀ p ∈ (e.expireEach rs).1, p.2 ≠ c := by
  rintro p hp rfl
  have hmem : p.2 ∈ (e.queue r).members := Queue.mem_members.2 (.inl hslot)
  have hp' : p.1 = r :=
    h.eq_of_mem (Queue.mem_members.2 (.inl (slot_of_expireEach rs p hp))) hmem
  obtain ⟨released, -, -⟩ := e.expireEach_flow rs
  obtain ⟨same, -, -⟩ := (e.expireEach rs).2.removeSubtree_flow ids rs
  rw [same.queues, released.queues, if_pos (List.mem_map.2 ⟨p, hp, hp'⟩)] at hkept
  cases hkept

/-- A detachment that leaves the command in its slot. -/
theorem Stored.detach_withSignals (h : e.Stored) (r : RouterRef)
    (hslot : (e.queue r').slot = some c) (hkept : ((e.detach r).queue r').slot = some c) :
    (e.withSignals c s).detach r = (e.detach r).withSignals c s := by
  have hmem : c ∈ (e.queue r').members := Queue.mem_members.2 (.inl hslot)
  obtain ⟨command, hc, -, hwaits, -⟩ := h.members r' c hmem
  unfold detach at hkept ⊢
  by_cases hids : (((e.router? r).map fun router =>
    e.topology.tree.subtree router.id).getD []).isEmpty = true
  · have hids' : ((((e.withSignals c s).router? r).map fun router =>
      (e.withSignals c s).topology.tree.subtree router.id).getD []).isEmpty = true := hids
    simp only [if_pos hids, if_pos hids']
    rfl
  · have hids' : ¬ ((((e.withSignals c s).router? r).map fun router =>
      (e.withSignals c s).topology.tree.subtree router.id).getD []).isEmpty = true := hids
    simp only [if_neg hids, if_neg hids'] at hkept ⊢
    have spared := h.spared_of_detach hslot hkept
    simp only [router?_withSignals, topology_withSignals,
      expireEach_withSignals _ hc hwaits spared, removeSubtree_withSignals]
    rfl

/-! ## Arrivals for others -/

variable {arrival : Arrival} {fits : Command → Prop} {event : Event}

theorem addressed_withSignals :
    (e.withSignals c s).Addressed r arrival fits ↔ e.Addressed r arrival fits := by
  constructor
  · intro h
    cases h with
    | sent hnode => exact .sent hnode
    | answered hn hh hread hroute => exact .answered hn hh hread hroute
  · intro h
    cases h with
    | sent hnode => exact .sent hnode
    | answered hn hh hread hroute => exact .answered hn hh hread hroute

theorem alerted_withSignals :
    (e.withSignals c s).Alerted r event arrival ↔ e.Alerted r event arrival := by
  constructor
  · rintro ⟨hread, hevent, hroute⟩
    exact ⟨hread, hevent, hroute⟩
  · rintro ⟨hread, hevent, hroute⟩
    exact ⟨hread, hevent, hroute⟩

/-- Whether a signal is for an attempt does not depend on the signals noted for it. -/
theorem Addressed.fits_withSignals (h : e.Addressed r arrival fits) :
    fits (command.withSignals s) ↔ fits command := by
  cases h <;> rfl

theorem holds_withSignals_of_ne (hne : c' ≠ c) :
    (e.withSignals c s).Holds r c' command ↔ e.Holds r c' command := by
  unfold Holds
  rw [command?_withSignals_of_ne hne]
  rfl

theorem Holds.withSignals (h : e.Holds r c command) :
    (e.withSignals c s).Holds r c (command.withSignals s) :=
  ⟨h.1, command?_withSignals h.2⟩

theorem Holds.of_withSignals {noted : Command} (h : (e.withSignals c s).Holds r c' noted) :
    ∃ command, e.Holds r c' command ∧
      noted = if c' = c then command.withSignals s else command := by
  by_cases hne : c' = c
  · subst hne
    obtain ⟨hslot, hc⟩ := h
    cases hold : e.command? c' with
    | none =>
      have hnone : (e.withSignals c' s).command? c' = none := by
        show Commands.get? (Commands.update _ _ _) _ = none
        rw [Commands.get?_update, if_pos rfl]
        exact congrArg (Option.map _) hold
      rw [hnone] at hc
      cases hc
    | some command =>
      rw [command?_withSignals hold] at hc
      cases hc
      exact ⟨command, ⟨hslot, hold⟩, (if_pos rfl).symm⟩
  · exact ⟨noted, (holds_withSignals_of_ne hne).1 h, (if_neg hne).symm⟩

/-- What concerns an attempt concerns it whatever is noted for it. -/
theorem concerns_withSignals :
    (e.withSignals c s).Concerns r c' arrival ↔ e.Concerns r c' arrival := by
  constructor
  · rintro ⟨noted, hnoted, hconcerns⟩
    obtain ⟨command, hc, rfl⟩ := hnoted.of_withSignals
    refine ⟨command, hc, ?_⟩
    rcases hconcerns with ⟨fits, ha, hfits⟩ | ⟨event, ha⟩
    · have ha := addressed_withSignals.1 ha
      refine .inl ⟨fits, ha, ?_⟩
      split at hfits
      · exact ha.fits_withSignals.1 hfits
      · exact hfits
    · exact .inr ⟨event, alerted_withSignals.1 ha⟩
  · rintro ⟨command, hc, hconcerns⟩
    by_cases hne : c' = c
    · subst hne
      refine ⟨command.withSignals s, hc.withSignals, ?_⟩
      rcases hconcerns with ⟨fits, ha, hfits⟩ | ⟨event, ha⟩
      · exact .inl ⟨fits, addressed_withSignals.2 ha, ha.fits_withSignals.2 hfits⟩
      · exact .inr ⟨event, alerted_withSignals.2 ha⟩
    · refine ⟨command, (holds_withSignals_of_ne hne).2 hc, ?_⟩
      rcases hconcerns with ⟨fits, ha, hfits⟩ | ⟨event, ha⟩
      · exact .inl ⟨fits, addressed_withSignals.2 ha, hfits⟩
      · exact .inr ⟨event, alerted_withSignals.2 ha⟩

theorem ne_of_addressed (hno : ∀ r, ¬ e.Concerns r c arrival) (hc : e.Holds r c' command)
    (ha : e.Addressed r arrival fits) (hfits : fits command) : c' ≠ c := by
  rintro rfl
  exact hno r ⟨command, hc, .inl ⟨fits, ha, hfits⟩⟩

theorem ne_of_alerted (hno : ∀ r, ¬ e.Concerns r c arrival) (hc : e.Holds r c' command)
    (ha : e.Alerted r event arrival) : c' ≠ c := by
  rintro rfl
  exact hno r ⟨command, hc, .inr ⟨event, ha⟩⟩

/-- A signal for another attempt. -/
theorem receive_withSignals_of_fits (hno : ∀ r, ¬ e.Concerns r c arrival)
    (ha : e.Addressed r arrival fits) (hc : e.Holds r c' command) (hfits : fits command) :
    (e.withSignals c s).receive arrival = (e.receive arrival).withSignals c s := by
  have hne := ne_of_addressed hno hc ha hfits
  have hc' := (holds_withSignals_of_ne (s := s) hne).2 hc
  cases ha with
  | sent hnode =>
    obtain ⟨rfl, rfl⟩ := hfits
    rw [receive_sent hnode hc, receive_sent (e := e.withSignals c s) hnode hc']
    exact signal_withSignals (e := e.push [.handled]) hne r command.generation .sent none
  | answered hn hh hread hroute =>
    obtain ⟨rfl, hseq⟩ := hfits
    rw [receive_answer hn hh hread hroute hseq hc,
      receive_answer (e := e.withSignals c s) hn hh hread hroute hseq hc']
    exact signal_withSignals (e := e.push [.handled]) hne r command.generation .answered _

/-- A signal for no attempt. -/
theorem receive_withSignals_of_stale (ha : e.Addressed r arrival fits)
    (hstale : ∀ c' command, e.Holds r c' command → ¬ fits command) :
    (e.withSignals c s).receive arrival = (e.receive arrival).withSignals c s := by
  have hstale' : ∀ c' noted, (e.withSignals c s).Holds r c' noted → ¬ fits noted := by
    intro c' noted hnoted hfits
    obtain ⟨command, hc, rfl⟩ := hnoted.of_withSignals
    refine hstale c' command hc ?_
    split at hfits
    · exact ha.fits_withSignals.1 hfits
    · exact hfits
  rw [receive_stale ha hstale, receive_stale (addressed_withSignals.2 ha) hstale']
  rfl

theorem notification_withSignals (h : e.Stored) {label : PacketType} {bytes : List UInt8}
    (hno : ∀ r, ¬ e.Concerns r c (.received .notify label bytes)) :
    (e.withSignals c s).receive (.received .notify label bytes) =
      (e.receive (.received .notify label bytes)).withSignals c s := by
  by_cases halert : ∃ r event c' command,
    e.Alerted r event (.received .notify label bytes) ∧ e.Holds r c' command
  · obtain ⟨r, event, c', command, ha, hc⟩ := halert
    have hne := ne_of_alerted hno hc ha
    have hc' := (holds_withSignals_of_ne (s := s) hne).2 hc
    have hwaits := h.isComplete_of_slot hc.slotOf?
    rw [receive_alert ha hc hwaits, receive_alert (alerted_withSignals.2 ha) hc' hwaits]
    simp only [commands_withSignals, Commands.set_withSignals hne]
    exact complete_withSignals (e := { e.push [.handled] with
      commands := e.commands.set c'.index command.forced }) hne r command.generation _
  · rw [receive_unalerted, receive_unalerted]
    · rfl
    · intro r event c' command ha hc
      exact halert ⟨r, event, c', command, ha, hc⟩
    · intro r event c' noted ha hnoted
      obtain ⟨command, hc, -⟩ := hnoted.of_withSignals
      exact halert ⟨r, event, c', command, alerted_withSignals.1 ha, hc⟩

/-- An arrival for somebody else, or for nobody. -/
theorem receive_withSignals (h : e.Stored) (hno : ∀ r, ¬ e.Concerns r c arrival) :
    (e.withSignals c s).receive arrival = (e.receive arrival).withSignals c s := by
  by_cases hsignal : arrival.isSignal = true
  · by_cases haddr : ∃ r fits, e.Addressed r arrival fits
    · obtain ⟨r, fits, ha⟩ := haddr
      by_cases hfor : ∃ c' command, e.Holds r c' command ∧ fits command
      · obtain ⟨c', command, hc, hfits⟩ := hfor
        exact receive_withSignals_of_fits hno ha hc hfits
      · exact receive_withSignals_of_stale ha fun c' command hc hfits =>
          hfor ⟨c', command, hc, hfits⟩
    · rw [receive_unaddressed hsignal fun r fits ha => haddr ⟨r, fits, ha⟩,
        receive_unaddressed hsignal fun r fits ha => haddr ⟨r, fits, addressed_withSignals.1 ha⟩]
      rfl
  · cases arrival with
    | sent context => exact absurd rfl hsignal
    | received channel label bytes =>
      cases channel with
      | read | write => exact absurd rfl hsignal
      | hotplug =>
        show ((e.withSignals c s).push [.handled]).onHotplug bytes =
          ((e.push [.handled]).onHotplug bytes).withSignals c s
        unfold onHotplug
        split <;> rfl
      | notify => exact notification_withSignals h hno

/-! ## Every move -/

theorem Stored.restack (h : e.Stored) (below : List Task) :
    ({ e with stack := below } : Engine).Stored :=
  ⟨h.tree, h.nextId, h.ids, h.places, h.orderly, h.members⟩

section

variable (h : e.Sound) (hslot : (e.queue r).slot = some c)

include h hslot

/-- What is known of the command in a slot. -/
theorem Sound.waiting_of_slot : ∃ command, e.command? c = some command ∧
    command.isComplete = false ∧ ∀ watching, notices watching command = false := by
  obtain ⟨command, hc, -, hwaits, -⟩ := h.members r c (Queue.mem_members.2 (.inl hslot))
  exact ⟨command, hc, hwaits, h.notices_of_queued (queued_of_slot hslot) hc⟩

theorem Sound.settle?_below (below : List Task) (w : Waiter) :
    ({ e.withSignals c s with stack := below } : Engine).settle? w =
      (({ e with stack := below } : Engine).settle? w).map (·.withSignals c s) := by
  obtain ⟨command, hc, -, hnotices⟩ := h.waiting_of_slot hslot
  exact settle?_withSignals (e := { e with stack := below }) hc hnotices w

theorem Sound.pause_withSignals :
    (e.withSignals c s).isWorking = e.isWorking ∧
      (e.withSignals c s).canProceed = e.canProceed := by
  unfold isWorking canProceed pause
  simp only [stack_withSignals]
  cases e.stack with
  | nil => exact ⟨rfl, rfl⟩
  | cons task below =>
    cases task with
    | offer r' c' =>
      obtain ⟨command, hc, -⟩ := h.waiting_of_slot hslot
      by_cases hne : c' = c
      · subst hne
        simp only [hc, command?_withSignals hc, and_self]
      · simp only [command?_withSignals_of_ne hne, and_self]
    | await w deadline =>
      simp only [h.settle?_below hslot, Option.isSome_map, and_self]
    | claimed w =>
      simp only [h.settle?_below hslot, Option.isSome_map, and_self]
    | _ => exact ⟨rfl, rfl⟩

theorem Sound.step_withSignals : (e.withSignals c s).step = e.step.withSignals c s := by
  unfold step
  simp only [stack_withSignals]
  cases hs : e.stack with
  | nil => rfl
  | cons task below =>
    have hfits := h.tasks task (hs ▸ List.mem_cons_self)
    cases task with
    | perform r' program =>
      cases program with
      | done result => rfl
      | ask request next =>
        exact meet_withSignals (e := ({ e with stack := below } : Engine).push [.resume r' next])
          r' request
    | reply reply => exact passOn_withSignals (e := { e with stack := below }) reply
    | attempt w =>
      refine retry_withSignals (e := { e with stack := below }) ?_
      rintro rfl
      exact hfits.1.2.1 (queued_of_slot hslot)
    | await w deadline | claimed w =>
      simp only [h.settle?_below hslot]
      cases ({ e with stack := below } : Engine).settle? w <;> rfl
    | drain r' => exact drain_withSignals (e := { e with stack := below }) r'
    | drainEach ids => exact drainFirst_withSignals (e := { e with stack := below }) ids
    | expire r' c' =>
      refine finish_withSignals (e := (({ e with stack := below } : Engine).count r' fun stats =>
        { stats with timeouts := stats.timeouts + 1 }).push [.hold [r'] [c']]) ?_ .expired
      rintro rfl
      exact hfits.1 (queued_of_slot hslot)
    | _ => rfl

/-- A command that is refused leaves its slot. -/
theorem Sound.answer_of_kept {answer : Except TransportFault Unit} {below : List Task}
    (hkept :
      ((({ e with stack := below } : Engine).answerOffer r c answer).queue r).slot = some c) :
    answer = .ok () ∨ answer = .error .busy := by
  cases answer with
  | ok => exact .inl rfl
  | error fault =>
    by_cases hbusy : fault = .busy
    · exact .inr (congrArg _ hbusy)
    · obtain ⟨command, hc, -⟩ := h.waiting_of_slot hslot
      obtain ⟨router, hr, -⟩ := slotOf?_eq_some (slotOf?_of_slot hslot hc)
      obtain ⟨requeued, -⟩ := answerOffer_error (e := { e with stack := below }) hr c hbusy
      have hreject : (({ e with stack := below } : Engine).queue r).reject c =
          (true, (e.queue r).release) := by
        rw [Queue.reject_eq]
        exact if_pos hslot
      rw [requeued.on, hreject] at hkept
      cases hkept

theorem Sound.granted?_withSignals (answer : Except TransportFault Unit)
    (hm : e.granted? answer = some e') (hkept : (e'.queue r).slot = some c) :
    (e.withSignals c s).granted? answer = some (e'.withSignals c s) := by
  unfold granted? at hm ⊢
  simp only [stack_withSignals]
  cases hs : e.stack with
  | nil =>
    rw [hs] at hm
    cases hm
  | cons task below =>
    rw [hs] at hm
    simp only at hm ⊢
    cases task with
    | allocate r' command style =>
      cases answer with
      | ok =>
        have hlt := h.lt_of_queued (queued_of_slot hslot)
        cases hm
        exact congrArg some
          (begin_withSignals (e := { e with stack := below }) hlt r' command style)
      | error fault =>
        cases hm
        rfl
    | offer r' c' =>
      cases hm
      refine congrArg some (answerOffer_withSignals (e := { e with stack := below }) r' answer ?_)
      rintro rfl hslot'
      have hslot' : (e.queue r').slot = some c' := hslot'
      have hsame : r' = r :=
        h.eq_of_mem (Queue.mem_members.2 (.inl hslot')) (Queue.mem_members.2 (.inl hslot))
      exact h.answer_of_kept hslot (hsame ▸ hkept)
    | register =>
      cases answer with
      | ok =>
        cases hm
        exact congrArg some (linkRoot_withSignals (e := { e with stack := below }))
      | error fault =>
        cases hm
        rfl
    | acknowledge event =>
      cases answer with
      | ok | error =>
        cases hm
        rfl
    | offerAcknowledgment event =>
      cases hm
      rfl
    | _ => cases hm

theorem Sound.gaveUp?_withSignals (hm : e.gaveUp? = some e')
    (hkept : (e'.queue r).slot = some c) :
    (e.withSignals c s).gaveUp? = some (e'.withSignals c s) := by
  unfold gaveUp? at hm ⊢
  simp only [stack_withSignals, now_withSignals]
  split at hm
  · rename_i w deadline below hs
    split at hm
    · rename_i hlate
      cases hm
      have hwithdraw := (h.toStored.restack below).withdraw_withSignals (s := s) hslot hkept
      exact (if_pos hlate).trans (congrArg some hwithdraw)
    · cases hm
  · cases hm

theorem Sound.call_withSignals (call : Call) (hkept : ((e.call call).queue r).slot = some c) :
    (e.withSignals c s).call call = (e.call call).withSignals c s := by
  cases call with
  | attachRoot settings =>
    show (e.withSignals c s).attachRoot settings = (e.attachRoot settings).withSignals c s
    unfold attachRoot
    split <;> rfl
  | attachChild parent route => exact attachChild_withSignals parent route
  | detach r' => exact h.toStored.detach_withSignals r' hslot hkept
  | resume r' => exact resume_withSignals r'
  | operate r' operation => exact operate_withSignals r' operation

/-- **No move sees which signals are noted for an attempt**, unless a signal for that attempt
arrives or the attempt leaves its slot. -/
theorem Sound.move?_withSignals (hm : e.move? m = some e') (hkept : (e'.queue r).slot = some c)
    (hno : ∀ arrival, m = .receive arrival → ¬ e.Concerns r c arrival) :
    (e.withSignals c s).move? m = some (e'.withSignals c s) := by
  obtain ⟨hworking, hproceed⟩ := h.pause_withSignals (s := s) hslot
  unfold move? at hm ⊢
  cases m with
  | proceed =>
    simp only [hproceed] at hm ⊢
    split at hm
    · rename_i hcan
      cases hm
      rw [if_pos hcan, h.step_withSignals hslot]
    · cases hm
  | grant answer => exact h.granted?_withSignals hslot answer hm hkept
  | back =>
    simp only [returned?, stack_withSignals] at hm ⊢
    split at hm <;> first | cases hm; rfl | cases hm
  | giveUp =>
    simp only [hproceed] at hm ⊢
    split at hm
    · cases hm
    · rename_i hcan
      rw [if_neg hcan]
      exact h.gaveUp?_withSignals hslot hm hkept
  | collect =>
    simp only [collected?, stack_withSignals] at hm ⊢
    split at hm <;> first | cases hm; rfl | cases hm
  | call call =>
    simp only [hworking] at hm ⊢
    split at hm
    · cases hm
    · rename_i hcan
      cases hm
      rw [if_neg hcan, h.call_withSignals hslot call hkept]
  | receive arrival =>
    simp only [hworking] at hm ⊢
    split at hm
    · cases hm
    · rename_i hcan
      cases hm
      rw [if_neg hcan, receive_withSignals h.toStored fun r' hconcerns => ?_]
      have hsame : r' = r := by
        obtain ⟨command, ⟨hslot', -⟩, -⟩ := hconcerns
        exact h.eq_of_mem (Queue.mem_members.2 (.inl hslot')) (Queue.mem_members.2 (.inl hslot))
      exact hno arrival rfl (hsame ▸ hconcerns)
  | elapse ms =>
    cases hm
    rfl

end

end Engine

end RouterFabric
