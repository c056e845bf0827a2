import RouterFabric.Proofs.Engine.Front
import RouterFabric.Proofs.Engine.Timed
import RouterFabric.Proofs.Tries

/-!
# Calls behind silent commands

A call that waits for its transfer joins the line of its router. If the command in the slot is
never answered, the attempt of the call times out, and in giving it up the caller expires the
command in the slot. The callback of that command is invoked, the next command moves up, and the
caller tries again at the end of the line.

* `Blockade` : a call, and the commands ahead of it
* `Blockade.Lined` : how things stand with the line
* `Blockade.Stage` : how far the call has come
* `Run.stage_next` : where a quiet move takes it
-/

namespace RouterFabric

open Engine

/-- The transfer is one that a router can be asked for. -/
def Transfer.Valid (t : Transfer) : Prop :=
  ∃ address, t.address = .ok address ∧ Command.checkPayload t.kind address t.payload = .ok ()

/-- A call that waits for its transfer, behind a line of commands with callbacks. -/
structure Blockade where
  settings : Settings
  router : RouterRef
  transfer : Transfer
  watching : Watching
  /-- the command in the slot and those behind it, each with its callback -/
  line : List (CommandRef × Nat)
  /-- the command of the call -/
  own : CommandRef
  /-- how many attempts on the router had timed out before the call -/
  timeouts : Nat
  /-- what was under way before the call -/
  below : List Task
  valid : transfer.Valid
  distinct : (line.map Prod.fst).Nodup
  foreign : own ∉ line.map Prod.fst

namespace Blockade

variable {turns : List Turn} {e e' : Engine} {m : Move} {r : RouterRef}
  {x : CommandRef} {router : Router} {chores chores' : List Task} {b : Blockade}
  {n told gone timeouts left g : Nat} {slot : Option CommandRef} {line behind : List CommandRef}
  {queued : Bool}

def node (b : Blockade) : NodeId :=
  ⟨b.router.index⟩

/-- The commands ahead of the call, without the first `n`. -/
def rest (b : Blockade) (n : Nat) : List CommandRef :=
  (b.line.drop n).map Prod.fst

/-- The call's own command, while it waits in the line. -/
def tail (b : Blockade) (queued : Bool) : List CommandRef :=
  if queued then [b.own] else []

/-- The caller, with this many attempts to follow. -/
def waiter (b : Blockade) (left : Nat) : Waiter :=
  ⟨b.router, b.own, .retrying b.watching left⟩

/-- What is asked for. -/
def request (b : Blockade) : Request :=
  .transfer b.transfer (.waiting b.watching)

/-- How the call goes on with the reply. -/
def next (b : Blockade) : Reply → Program Request Answer :=
  following b.transfer (.waiting b.watching)

theorem mem_rest {n : Nat} (h : x ∈ b.rest n) : x ∈ b.line.map Prod.fst := by
  obtain ⟨entry, hmem, rfl⟩ := List.mem_map.1 h
  exact List.mem_map_of_mem (List.mem_of_mem_drop hmem)

theorem foreign_rest (b : Blockade) (n : Nat) : b.own ∉ b.rest n :=
  fun h => b.foreign (mem_rest h)

theorem rest_succ {tag : Nat} (h : b.line[n]? = some (x, tag)) :
    b.rest n = x :: b.rest (n + 1) := by
  obtain ⟨hlt, hget⟩ := List.getElem?_eq_some_iff.1 h
  unfold rest
  rw [List.drop_eq_getElem_cons hlt, hget]
  rfl

theorem exists_of_rest (h : b.rest n = x :: line) :
    ∃ tag, b.line[n]? = some (x, tag) ∧ line = b.rest (n + 1) := by
  have hlt : n < b.line.length := by
    by_contra hge
    unfold rest at h
    rw [List.drop_eq_nil_of_le (Nat.le_of_not_lt hge)] at h
    cases h
  have hget := List.getElem?_eq_getElem hlt
  rw [rest_succ hget] at h
  obtain ⟨rfl, rfl⟩ := List.cons.inj h
  exact ⟨_, hget, rfl⟩

theorem rest_eq_nil (h : b.rest n = []) : b.line.length ≤ n :=
  List.drop_eq_nil_iff.1 (List.map_eq_nil_iff.1 h)

/-- No command is twice in the line. -/
theorem index_unique {i j tag tag' : Nat} (hi : b.line[i]? = some (x, tag))
    (hj : b.line[j]? = some (x, tag')) : i = j := by
  have hmap {k tag : Nat} (h : b.line[k]? = some (x, tag)) :
      (b.line.map Prod.fst)[k]? = some x := by
    rw [List.getElem?_map, h]
    rfl
  have hlt : i < (b.line.map Prod.fst).length := (List.getElem?_eq_some_iff.1 (hmap hi)).1
  exact (List.getElem?_inj hlt b.distinct).1 ((hmap hi).trans (hmap hj).symm)

theorem mem_tail (h : x ∈ b.tail queued) : x = b.own := by
  cases queued with
  | true => exact List.mem_singleton.1 h
  | false => cases h

/-! ## The line -/

/-- How things stand with the line: of its commands, `told` have had their callbacks invoked and
`gone` have left the queue, in which there are the others and perhaps the call's own command. -/
structure Lined (b : Blockade) (e : Engine) (told gone timeouts : Nat) (queued : Bool)
    (slot : Option CommandRef) (behind : List CommandRef) : Prop where
  front : e.front? b.router = some ⟨slot, behind, b.timeouts + timeouts, false⟩
  members : slot.toList ++ behind = b.rest gone ++ b.tail queued
  commands : ∀ i x tag, b.line[i]? = some (x, tag) → ∃ command, e.command? x = some command ∧
    command.node = b.node ∧
    command.listener = (if i < told then .nobody else .callback tag) ∧
    (gone ≤ i → command.answered = false)

/-- The call has its command, which has begun this many attempts. -/
def Begun (b : Blockade) (e : Engine) (g : Nat) : Prop :=
  ∃ command, e.command? b.own = some command ∧ command.node = b.node ∧ command.generation = g

/-- Nothing changes where neither routers nor commands do. -/
theorem Lined.same (h : b.Lined e told gone timeouts queued slot behind)
    (hr : e'.routers = e.routers) (hc : e'.commands = e.commands) :
    b.Lined e' told gone timeouts queued slot behind := by
  refine ⟨?_, h.members, fun i x tag hget => ?_⟩
  · unfold front? router?
    rw [hr]
    exact h.front
  · unfold command?
    rw [hc]
    exact h.commands i x tag hget

theorem Begun.same (h : b.Begun e g) (hc : e'.commands = e.commands) : b.Begun e' g := by
  unfold Begun command?
  rw [hc]
  exact h

section lined

variable (h : b.Lined e told gone timeouts queued slot behind)

include h

theorem Lined.queue :
    (e.queue b.router).slot = slot ∧ (e.queue b.router).pending = behind :=
  queue_of_front h.front

theorem Lined.members_eq : (e.queue b.router).members = b.rest gone ++ b.tail queued := by
  obtain ⟨hslot, hpending⟩ := h.queue
  show (e.queue b.router).slot.toList ++ (e.queue b.router).pending = _
  rw [hslot, hpending]
  exact h.members

/-- What stands in the slot is the first of the commands that are left. -/
theorem Lined.head (hslot : slot = some x) (hne : x ≠ b.own) : ∃ tag,
    b.line[gone]? = some (x, tag) ∧ behind = b.rest (gone + 1) ++ b.tail queued := by
  have hmembers := h.members
  rw [hslot] at hmembers
  cases hrest : b.rest gone with
  | nil =>
    rw [hrest] at hmembers
    have hx : x ∈ b.tail queued := by
      rw [← List.nil_append (b.tail queued), ← hmembers]
      exact List.mem_cons_self
    exact absurd (mem_tail hx) hne
  | cons y line =>
    rw [hrest] at hmembers
    obtain ⟨rfl, hbehind⟩ := List.cons.inj hmembers
    obtain ⟨tag, hget, rfl⟩ := exists_of_rest hrest
    exact ⟨tag, hget, hbehind⟩

/-- The command in the slot is not answered. -/
theorem Lined.silent (hown : slot ≠ some b.own) (c : CommandRef) (command : Command)
    (hc : e.Holds b.router c command) : command.answered = false := by
  have hslot : slot = some c := h.queue.1.symm.trans hc.1
  obtain ⟨tag, hget, -⟩ := h.head hslot fun heq => hown (hslot.trans (congrArg some heq))
  obtain ⟨command', hc', -, -, hsilent⟩ := h.commands _ _ _ hget
  cases hc.2.symm.trans hc'
  exact hsilent (Nat.le_refl _)

/-- The call's own command is not the next one that a pass over its queue offers. -/
theorem Lined.unoffered (hs : e.Stored) (hbegun : b.Begun e g)
    (hfree : slot = none → queued = false) (r : RouterRef)
    (hslot : (e.queue r).slot = none) : b.own ∉ (e.queue r).pending := by
  intro hmem
  obtain ⟨command, hc, hnode, -⟩ := hbegun
  by_cases hr : r = b.router
  · subst hr
    have hnone : slot = none := h.queue.1.symm.trans hslot
    have hmembers := Queue.mem_members.2 (.inr hmem)
    rw [h.members_eq, hfree hnone] at hmembers
    exact b.foreign_rest gone (by simpa [tail] using hmembers)
  · exact hs.ne_of_member (Queue.mem_members.2 (.inr hmem)) hr hc hnode rfl

end lined

/-! ## Errands -/

/-- What is kept about a command of the router by an errand. -/
theorem stance_next (x : e.Errand e' r chores chores') {c : CommandRef} {command : Command}
    (hc : e.command? c = some command) (hnode : command.node = ⟨r.index⟩) :
    ∃ command', e'.command? c = some command' ∧ command'.stance = command.stance := by
  rcases x.front with bypasses | takes
  · obtain ⟨command', hc', hstance, -⟩ := bypasses.commands c command hc hnode
    exact ⟨command', hc', hstance⟩
  · exact takes.commands c command hc

theorem Begun.errand (h : b.Begun e g) (x : e.Errand e' b.router chores chores') :
    b.Begun e' g := by
  obtain ⟨command, hc, hnode, hg⟩ := h
  obtain ⟨command', hc', hstance⟩ := stance_next x hc hnode
  exact ⟨command', hc', (congrArg Stance.node hstance).trans hnode,
    (congrArg Stance.generation hstance).trans hg⟩

/-- How things stand with the line while errands are to be done before the task of the call. -/
structure Tended (b : Blockade) (e : Engine) (n : Nat) (queued : Bool) (chores : List Task)
    (slot : Option CommandRef) (behind : List CommandRef) : Prop where
  lined : b.Lined e n n (2 * n) queued slot behind
  loose : ∀ t ∈ chores, t.isLoose = true
  unoffered : ∀ r, .offer r b.own ∉ chores
  tended : slot = none → behind = [] ∨ .drain b.router ∈ chores

/-- **An errand leaves the line as it is**, or has its head take the free slot. -/
theorem Tended.errand (h : b.Tended e n queued chores slot behind)
    (x : e.Errand e' b.router chores chores')
    (hunoffered : ∀ r, (e.queue r).slot = none → b.own ∉ (e.queue r).pending) :
    ∃ slot' behind', b.Tended e' n queued chores' slot' behind' ∧
      (slot ≠ none → slot' = slot ∧ behind' = behind) := by
  have hcommands : ∀ i x tag, b.line[i]? = some (x, tag) → ∃ command,
      e'.command? x = some command ∧ command.node = b.node ∧
      command.listener = (if i < n then .nobody else .callback tag) ∧
      (n ≤ i → command.answered = false) := by
    intro i y tag hget
    obtain ⟨command, hc, hnode, hlistener, hsilent⟩ := h.lined.commands i y tag hget
    obtain ⟨command', hc', hstance⟩ := stance_next x hc hnode
    exact ⟨command', hc', (congrArg Stance.node hstance).trans hnode,
      (congrArg Stance.listener hstance).trans hlistener,
      fun hle => (congrArg Stance.answered hstance).trans (hsilent hle)⟩
  have hoffers (r : RouterRef) : .offer r b.own ∉ chores' := fun hmem =>
    (x.offers r b.own hmem).elim (h.unoffered r) fun hfree => hunoffered r hfree.1 hfree.2
  have tended {slot' : Option CommandRef} {behind' : List CommandRef}
      (hfront : e'.front? b.router = some ⟨slot', behind', b.timeouts + 2 * n, false⟩) :=
    x.tended _ _ h.lined.front hfront h.tended
  rcases x.front with bypasses | takes
  · have hfront := bypasses.front.trans h.lined.front
    exact ⟨slot, behind, ⟨⟨hfront, h.lined.members, hcommands⟩, x.loose, hoffers, tended hfront⟩,
      fun _ => ⟨rfl, rfl⟩⟩
  · obtain ⟨y, rest, timeouts, detached, hbefore, hafter⟩ := takes.front
    cases h.lined.front.symm.trans hbefore
    exact ⟨some y, rest, ⟨⟨hafter, h.lined.members, hcommands⟩, x.loose, hoffers, tended hafter⟩,
      fun hslot => absurd rfl hslot⟩

/-! ## Stages -/

/-- The tasks at the bottom of the call, once its program has asked. -/
def base (b : Blockade) : List Task :=
  .resume b.router b.next :: b.below

/-- The command has held its slot for the whole timeout when the deadline passes. -/
def HeldUntil (b : Blockade) (e : Engine) (x : CommandRef) (deadline : Nat) : Prop :=
  ∃ command since, e.command? x = some command ∧ command.since = some since ∧
    since + b.settings.timeoutMs ≤ deadline

/-- The program of the call is about to ask. -/
structure Asking (b : Blockade) (e : Engine) : Prop where
  stack : e.stack = .perform b.router (.ask b.request b.next) :: b.below
  tended : ∃ slot behind, b.Tended e 0 false [] slot behind
  unmade : e.commands.length = b.own.index
  awake : ∃ router, e.router? b.router = some router ∧ router.suspended = false

/-- The call waits for a frame. -/
structure Framing (b : Blockade) (made : Command) (chores : List Task) (e : Engine) : Prop where
  stack : e.stack = chores ++ .allocate b.router made (.waiting b.watching) :: b.base
  tended : ∃ slot behind, b.Tended e 0 false chores slot behind
  unmade : e.commands.length = b.own.index

/-- The next attempt of the call is to begin. -/
structure Pausing (b : Blockade) (n left : Nat) (chores : List Task) (e : Engine) : Prop where
  stack : e.stack = chores ++ .attempt (b.waiter left) :: b.base
  count : n + left = b.settings.attempts
  tended : ∃ slot behind, b.Tended e n false chores slot behind
  begun : b.Begun e n

/-- The attempt of the call is queued, and the queue is about to be drained. -/
structure Launched (b : Blockade) (n left : Nat) (e : Engine) : Prop where
  stack : e.stack = .drain b.router :: .watch (b.waiter left) :: b.base
  count : n + 1 + left = b.settings.attempts
  lined : ∃ slot behind, b.Lined e n n (2 * n) true slot behind ∧ (slot = none → b.rest n = []) ∧
    slot ≠ some b.own
  begun : b.Begun e (n + 1)

/-- The command of the call is handed to the transport. -/
structure Offered (b : Blockade) (n left : Nat) (e : Engine) : Prop where
  stack : e.stack = .offer b.router b.own :: .watch (b.waiter left) :: b.base
  count : n + 1 + left = b.settings.attempts
  lined : b.Lined e n n (2 * n) true (some b.own) []
  begun : b.Begun e (n + 1)

/-- The call stands in the line and is about to wait. -/
structure Standing (b : Blockade) (n left : Nat) (e : Engine) : Prop where
  stack : e.stack = .watch (b.waiter left) :: b.base
  count : n + 1 + left = b.settings.attempts
  tended : ∃ x behind, b.Tended e n true [] (some x) behind ∧ x ≠ b.own
  begun : b.Begun e (n + 1)

/-- The call waits. -/
structure Waiting (b : Blockade) (n left deadline : Nat) (chores : List Task) (e : Engine) :
    Prop where
  stack : e.stack = chores ++ .await (b.waiter left) deadline :: b.base
  count : n + 1 + left = b.settings.attempts
  tended : ∃ x behind, b.Tended e n true chores (some x) behind ∧ x ≠ b.own ∧
    b.HeldUntil e x deadline
  begun : b.Begun e (n + 1)

/-- The call has given up its attempt and expired the command in the slot. -/
structure Expiring (b : Blockade) (n left : Nat) (x : CommandRef) (e : Engine) : Prop where
  stack : e.stack = .expire b.router x :: .drain b.router :: .kick :: .attempt (b.waiter left) ::
    b.base
  count : n + 1 + left = b.settings.attempts
  lined : ∃ tag behind, b.line[n]? = some (x, tag) ∧
    b.Lined e n (n + 1) (2 * n + 1) false none behind
  begun : b.Begun e (n + 1)

/-- All attempts of the call have been given up. -/
structure Replying (b : Blockade) (part chores : List Task) (e : Engine) : Prop where
  stack : e.stack = chores ++ part ++ b.below
  replied : Replied b.router b.transfer (.waiting b.watching) (.error .timeout) part
  tended : ∃ slot behind, b.Tended e b.settings.attempts false chores slot behind
  begun : b.Begun e b.settings.attempts

/-- How far the call has come when the callbacks of `n` commands have been invoked. -/
inductive Stage (b : Blockade) (e : Engine) : Nat → Prop
  | asking : b.Asking e → Stage b e 0
  | framing {made : Command} {chores : List Task} : b.Framing made chores e → Stage b e 0
  | pausing {n left : Nat} {chores : List Task} : b.Pausing n left chores e → Stage b e n
  | launched {n left : Nat} : b.Launched n left e → Stage b e n
  | offered {n left : Nat} : b.Offered n left e → Stage b e n
  | standing {n left : Nat} : b.Standing n left e → Stage b e n
  | waiting {n left deadline : Nat} {chores : List Task} : b.Waiting n left deadline chores e →
      Stage b e n
  | expiring {n left : Nat} {x : CommandRef} : b.Expiring n left x e → Stage b e n
  | replying {part chores : List Task} : b.Replying part chores e → Stage b e b.settings.attempts

/-! ### What the call does by itself -/

/-- Nothing is to be done before the task of the call. -/
theorem Lined.tended (h : b.Lined e n n (2 * n) queued slot behind)
    (hfree : slot = none → behind = []) : b.Tended e n queued [] slot behind :=
  ⟨h, List.forall_mem_nil _, nofun, fun hslot => .inl (hfree hslot)⟩

theorem Tended.free (h : b.Tended e n queued [] slot behind) (hslot : slot = none) :
    behind = [] :=
  (h.tended hslot).resolve_right nofun

theorem Tended.same (h : b.Tended e n queued chores slot behind)
    (hr : e'.routers = e.routers) (hc : e'.commands = e.commands) :
    b.Tended e' n queued chores slot behind :=
  ⟨h.lined.same hr hc, h.loose, h.unoffered, h.tended⟩

/-- A valid transfer of a router that takes commands waits for a frame. -/
theorem issue_of_valid {t : Transfer} (ht : t.Valid) (hr : e.router? r = some router)
    (hattached : router.detached = false) (hawake : router.suspended = false) (style : Style) :
    ∃ made, (e.issue r t style).stack = .allocate r made style :: e.stack ∧
      (e.issue r t style).routers = e.routers ∧ (e.issue r t style).commands = e.commands := by
  obtain ⟨address, haddress, hpayload⟩ := ht
  unfold issue
  simp only [haddress, hr, hattached, hawake, hpayload, Bool.false_eq_true, if_false]
  exact ⟨_, rfl, rfl, rfl⟩

theorem Lined.read (h : b.Lined e told gone timeouts queued slot behind)
    (hr : e.router? b.router = some router) :
    router.detached = false ∧ router.queue.slot = slot ∧ router.queue.pending = behind ∧
      router.stats.timeouts = b.timeouts + timeouts := by
  obtain ⟨router', hr', hfront⟩ := Option.map_eq_some_iff.1 h.front
  cases hr.symm.trans hr'
  exact ⟨congrArg Front.detached hfront, congrArg Front.slot hfront,
    congrArg Front.pending hfront, congrArg Front.timeouts hfront⟩

theorem Lined.exists_router (h : b.Lined e told gone timeouts queued slot behind) :
    ∃ router, e.router? b.router = some router := by
  obtain ⟨router, hr, -⟩ := Option.map_eq_some_iff.1 h.front
  exact ⟨router, hr⟩

theorem Asking.asked (k : b.Asking e) : ∃ made, b.Framing made [] e.step := by
  obtain ⟨hs, ⟨slot, behind, hl⟩, hc, router, hr, hawake⟩ := k
  obtain ⟨hattached, -⟩ := hl.lined.read hr
  have hstep : e.step = (({ e with stack := b.base } : Engine).issue b.router b.transfer
      (.waiting b.watching)) := by
    unfold step
    rw [hs]
    rfl
  obtain ⟨made, hstack, hrouters, hcommands⟩ := issue_of_valid (e := { e with stack := b.base })
    b.valid hr hattached hawake (.waiting b.watching)
  rw [hstep]
  exact ⟨made, hstack, ⟨slot, behind, hl.same hrouters hcommands⟩,
    (congrArg List.length hcommands).trans hc⟩

/-- The call is given its frame, and its command with it. -/
theorem Framing.granted {made : Command} (k : b.Framing made [] e) (h : e.Sound)
    (hsettings : e.topology.settings = b.settings) :
    b.Pausing 0 b.settings.attempts [] (({ e with stack := b.base } : Engine).begin b.router made
      (.waiting b.watching)) := by
  obtain ⟨hs, ⟨slot, behind, hl⟩, hc⟩ := k
  have hs : e.stack = .allocate b.router made (.waiting b.watching) :: b.base := hs
  obtain ⟨⟨-, ⟨hnode, -⟩, hmade⟩, -⟩ := h.tasks _ (hs ▸ List.mem_cons_self)
  have hown : (⟨e.commands.length⟩ : CommandRef) = b.own := by rw [hc]
  refine ⟨?_, Nat.zero_add _, ⟨slot, behind,
    Lined.tended ⟨hl.lined.front, hl.lined.members, fun i x tag hget => ?_⟩ hl.free⟩, ?_⟩
  · show Task.attempt ⟨b.router, ⟨e.commands.length⟩, .retrying b.watching
      e.topology.settings.attempts⟩ :: b.base = _
    rw [hown, hsettings]
    rfl
  · obtain ⟨command, hx, hrest⟩ := hl.lined.commands i x tag hget
    refine ⟨command, ?_, hrest⟩
    show Commands.get? (e.commands.add made).2 x = _
    rw [Commands.get?_add, if_neg]
    · exact hx
    · have hlt : x.index < e.commands.length := (List.getElem?_eq_some_iff.1 hx).1
      exact Nat.ne_of_lt hlt
  · refine ⟨made, ?_, hnode, by rw [hmade]; rfl⟩
    show Commands.get? (e.commands.add made).2 b.own = _
    rw [Commands.get?_add, if_pos hc.symm]

/-- The next attempt of a command of a router that takes attempts. -/
theorem launch_attached {c : CommandRef} (hr : e.router? r = some router)
    (hattached : router.detached = false) (next : List Task) :
    (e.launch r c next).stack = .drain r :: next ++ e.stack ∧
      (e.launch r c next).front? r =
        some { router.front with pending := router.queue.pending ++ [c] } ∧
      (∀ x, x ≠ c → (e.launch r c next).command? x = e.command? x) ∧
      ∀ command, e.command? c = some command → ∃ command',
        (e.launch r c next).command? c = some command' ∧ command'.node = command.node ∧
          command'.generation = command.generation + 1 := by
  have hlaunch : e.launch r c next = (({ e.updateRouter r fun router =>
      { router with begun := router.begun + 1 } with
        commands := e.commands.update c (·.beginAttempt router.begun) } : Engine).setLine r
          (router.queue.enqueue (e.commands.update c (·.beginAttempt router.begun)) c)).push
            (.drain r :: next) := by
    unfold launch
    simp only [hr, hattached, Bool.false_eq_true, if_false]
  have reads (x : CommandRef) : (e.launch r c next).command? x =
      if c = x then ((e.command? x).map (·.beginAttempt router.begun)).map (·.setPhase .queued 0)
      else e.command? x := by
    rw [hlaunch]
    show Commands.get? (Commands.update (Commands.update e.commands c _) c _) x = _
    rw [Commands.get?_update, Commands.get?_update]
    split <;> rfl
  refine ⟨by rw [hlaunch]; rfl, ?_, fun x hx => ?_, fun command hc => ?_⟩
  · rw [hlaunch]
    show (((e.updateRouter r _).updateRouter r _).router? r).map Router.front = _
    rw [router?_updateRouter, if_pos rfl, router?_updateRouter, if_pos rfl, hr]
    rfl
  · rw [reads, if_neg (Ne.symm hx)]
  · rw [reads, if_pos rfl, hc]
    exact ⟨_, rfl, rfl, rfl⟩

/-- The command of the call is in none of the places of the line. -/
theorem ne_own {i tag : Nat} (h : b.line[i]? = some (x, tag)) : x ≠ b.own := by
  rintro rfl
  exact b.foreign (List.mem_map_of_mem (List.mem_of_getElem? h))

/-- A caller without attempts left gives up. -/
theorem Pausing.exhausted (k : b.Pausing n 0 [] e) :
    n = b.settings.attempts ∧ b.Replying [.reply (.error .timeout), .resume b.router b.next] []
      e.step := by
  obtain ⟨hs, rfl, ⟨slot, behind, hl⟩, hb⟩ := k
  have hs : e.stack = .attempt (b.waiter 0) :: b.base := hs
  have hstep : e.step = ({ e with stack := b.base } : Engine).push [.reply (.error .timeout)] := by
    unfold step
    rw [hs]
    rfl
  rw [hstep]
  exact ⟨rfl, rfl, .replied, ⟨slot, behind, hl.same rfl rfl⟩, hb.same rfl⟩

/-- Any other caller begins its next attempt. -/
theorem Pausing.retried (k : b.Pausing n (left + 1) [] e) : b.Launched n left e.step := by
  obtain ⟨hs, hn, ⟨slot, behind, hl⟩, hb⟩ := k
  have hs : e.stack = .attempt (b.waiter (left + 1)) :: b.base := hs
  have hstep : e.step = ({ e with stack := b.base } : Engine).launch b.router b.own
      [.watch (b.waiter left)] := by
    unfold step
    rw [hs]
    rfl
  rw [hstep]
  obtain ⟨router, hr⟩ := hl.lined.exists_router
  obtain ⟨hattached, hslot, hbehind, htimeouts⟩ := hl.lined.read hr
  obtain ⟨command, hc, hnode, hg⟩ := hb
  obtain ⟨hstack, hfront, hothers, hcurrent⟩ := launch_attached (e := { e with stack := b.base })
    (c := b.own) hr hattached [.watch (b.waiter left)]
  obtain ⟨command', hc', hnode', hg'⟩ := hcurrent command hc
  have hmembers := hl.lined.members
  refine ⟨hstack, by omega, ⟨slot, behind ++ [b.own], ⟨?_, ?_, fun i x tag hget => ?_⟩,
    fun hnone => ?_, fun hown => ?_⟩, command', hc', hnode'.trans hnode,
    hg'.trans (congrArg (· + 1) hg)⟩
  · refine hfront.trans ?_
    unfold Router.front
    rw [hslot, hbehind, htimeouts, hattached]
  · rw [← List.append_assoc, hmembers]
    exact congrArg (· ++ [b.own]) (List.append_nil _)
  · obtain ⟨old, hx, hrest⟩ := hl.lined.commands i x tag hget
    exact ⟨old, (hothers x (ne_own hget)).trans hx, hrest⟩
  · rw [hnone, hl.free hnone] at hmembers
    exact (List.append_eq_nil_iff.1 hmembers.symm).1
  · refine b.foreign_rest n ?_
    rw [← List.append_nil (b.rest n), show [] = b.tail false from rfl, ← hmembers, hown]
    exact List.mem_cons_self

/-- The pass over the queue hands out the command of the call, if nothing is ahead of it. -/
theorem Launched.drained (k : b.Launched n left e) (h : e.Stored) :
    b.Offered n left e.step ∨ b.Standing n left e.step := by
  obtain ⟨hs, hn, ⟨slot, behind, hl, hfree, hown⟩, hb⟩ := k
  have hpop := h.restack (.watch (b.waiter left) :: b.base)
  have hstep : e.step = ({ e with stack := .watch (b.waiter left) :: b.base } : Engine).drain
      b.router := by
    unfold step
    rw [hs]
  rw [hstep]
  cases slot with
  | none =>
    have hmembers := hl.members
    rw [hfree rfl] at hmembers
    obtain rfl : behind = [b.own] := hmembers
    obtain ⟨hfront, hstack, hothers, takes⟩ := hpop.drain_takes (r := b.router) hl.front
    obtain ⟨command, hc, hnode, hg⟩ := hb
    obtain ⟨command', hc', hstance⟩ := takes.commands b.own command hc
    refine .inl ⟨hstack, hn, ⟨hfront, hl.members, fun i x tag hget => ?_⟩, command', hc',
      (congrArg Stance.node hstance).trans hnode, (congrArg Stance.generation hstance).trans hg⟩
    rw [hothers x (ne_own hget)]
    exact hl.commands i x tag hget
  | some x =>
    rw [hpop.drain_of_held (.inl fun hnone => ?_)]
    · have kept : b.Lined ({ e with stack := .watch (b.waiter left) :: b.base } : Engine) n n
          (2 * n) true (some x) behind := hl.same rfl rfl
      exact .inr ⟨rfl, hn, ⟨x, behind, kept.tended nofun, fun heq => hown (congrArg some heq)⟩,
        hb.same rfl⟩
    · cases hl.queue.1.symm.trans hnone

/-- A caller that starts to wait has its deadline after the one of the command in the slot. -/
theorem Standing.watched (k : b.Standing n left e) (h : Run b.settings turns e) :
    b.Waiting n left (e.now + b.settings.timeoutMs) [] e.step := by
  obtain ⟨hs, hn, ⟨x, behind, hl, hne⟩, hb⟩ := k
  have hsettings : e.topology.settings = b.settings := h.explored.settings_eq
  have hstep : e.step = ({ e with stack := b.base } : Engine).push
      [.await (b.waiter left) (e.now + b.settings.timeoutMs)] := by
    unfold step
    rw [hs, ← hsettings]
  rw [hstep]
  obtain ⟨tag, hget, -⟩ := hl.lined.head rfl hne
  obtain ⟨command, hc, -⟩ := hl.lined.commands n x tag hget
  obtain ⟨since, hsince, hle⟩ := h.since hl.lined.queue.1 hc
  exact ⟨rfl, hn, ⟨x, behind, hl.same rfl rfl, hne, command, since, hc, hsince,
    Nat.add_le_add_right hle _⟩, hb.same rfl⟩

/-- What has held its slot for long enough is expired. -/
theorem expire_of_held {q : Queue} {cs : Commands} {command : Command} {limit now : Nat}
    (hslot : q.slot = some x) (hc : cs.get? x = some command)
    (hheld : command.heldFor limit now = true) (hanswered : command.answered = false) :
    q.expire cs limit now = (some x, q.release, cs.set x.index command.forced) := by
  have hincomplete : command.isComplete = false := by simp [Command.isComplete, hanswered]
  unfold Queue.expire Command.markAll
  simp only [hslot, hc, hheld, hincomplete, if_true, Bool.not_false]
  rfl

/-- A caller that gives up expires the command in the slot. -/
theorem Waiting.gaveUp {deadline : Nat} (k : b.Waiting n left deadline [] e)
    (hsettings : e.topology.settings = b.settings) (hnow : deadline ≤ e.now) :
    ∃ x, b.Expiring n left x (({ e with stack := b.base } : Engine).withdraw (b.waiter left)) := by
  obtain ⟨-, hn, ⟨x, behind, hl, hne, hheld⟩, hb⟩ := k
  obtain ⟨tag, hget, rfl⟩ := hl.lined.head rfl hne
  obtain ⟨router, hr⟩ := hl.lined.exists_router
  obtain ⟨hattached, hslot, hbehind, htimeouts⟩ := hl.lined.read hr
  obtain ⟨command, hc, hnode, hlistener, hsilent⟩ := hl.lined.commands n x tag hget
  obtain ⟨command', since, hc', hsince, hdeadline⟩ := hheld
  cases hc.symm.trans hc'
  have habandon : router.queue.abandon b.own =
      (true, { router.queue with pending := b.rest (n + 1) }) := by
    have hmem : b.own ∈ router.queue.members := by
      rw [Queue.mem_members, hbehind]
      exact .inr (List.mem_append_right _ List.mem_cons_self)
    obtain ⟨hfound, -, hline⟩ := Queue.abandon_eq router.queue b.own
    have herase : router.queue.pending.erase b.own = b.rest (n + 1) := by
      rw [hbehind, List.erase_append_right _ (b.foreign_rest _)]
      show b.rest (n + 1) ++ [b.own].erase b.own = _
      rw [List.erase_cons_head, List.append_nil]
    refine Prod.ext (hfound.trans (decide_eq_true hmem)) ?_
    rw [hline (by rw [hslot]; exact fun heq => hne (Option.some.inj heq)), herase]
  have hexpire : Queue.expire { router.queue with pending := b.rest (n + 1) } e.commands
      b.settings.timeoutMs e.now = (some x,
        Queue.release { router.queue with pending := b.rest (n + 1) },
        e.commands.set x.index command.forced) := by
    refine expire_of_held hslot hc ?_ (hsilent (Nat.le_refl n))
    unfold Command.heldFor
    rw [hsince]
    exact decide_eq_true (by omega)
  have hwithdraw : ({ e with stack := b.base } : Engine).withdraw (b.waiter left) =
      ((({ e with stack := b.base } : Engine).setLine b.router
        (Queue.release { router.queue with pending := b.rest (n + 1) },
          e.commands.set x.index command.forced)).count b.router fun stats =>
            { stats with timeouts := stats.timeouts + 1 }).push
        [.expire b.router x, .drain b.router, .kick, .attempt (b.waiter left)] := by
    have hr' : ({ e with stack := b.base } : Engine).router? (b.waiter left).router =
      some router := hr
    unfold withdraw
    rw [hr']
    simp only [show (b.waiter left).command = b.own from rfl, habandon, hsettings, hexpire]
    rfl
  rw [hwithdraw]
  refine ⟨x, rfl, hn, ⟨tag, b.rest (n + 1), hget, ?_, (List.append_nil _).symm,
    fun i y tag' hget' => ?_⟩, ?_⟩
  · show ((Engine.updateRouter (Engine.updateRouter _ _ _) _ _).router? b.router).map _ = _
    rw [router?_updateRouter, if_pos rfl, router?_updateRouter, if_pos rfl]
    show ((e.router? b.router).map _ |>.map _).map Router.front = _
    rw [hr]
    show some (Router.front _) = _
    unfold Router.front
    simp only [Queue.release, htimeouts, hattached]
    rfl
  · show ∃ command, Commands.get? (e.commands.set x.index _) y = some command ∧ _
    rw [Commands.get?_set hc]
    by_cases hxy : x = y
    · subst hxy
      obtain rfl := index_unique hget hget'
      cases hget.symm.trans hget'
      exact ⟨_, if_pos rfl, hnode, hlistener, fun hle => absurd hle (Nat.not_succ_le_self _)⟩
    · rw [if_neg hxy]
      obtain ⟨old, hold, holdnode, holdlistener, holdsilent⟩ := hl.lined.commands i y tag' hget'
      exact ⟨old, hold, holdnode, holdlistener, fun hle => holdsilent (Nat.le_of_succ_le hle)⟩
  · obtain ⟨mine, hmine, hrest⟩ := hb
    refine ⟨mine, ?_, hrest⟩
    show Commands.get? (e.commands.set x.index _) b.own = _
    rw [Commands.get?_set hc, if_neg hne]
    exact hmine

theorem step_expire {command : Command} {below : List Task} (hs : e.stack = .expire r x :: below)
    (hc : e.command? x = some command) : e.step = { e with
      routers := (e.count r fun stats => { stats with timeouts := stats.timeouts + 1 }).routers
      commands := e.commands.update x (·.finish .expired)
      stack := command.notes .expired ++ .hold [r] [x] :: below } := by
  unfold step
  rw [hs]
  exact finish_eq (e := (({ e with stack := below } : Engine).count r fun stats =>
    { stats with timeouts := stats.timeouts + 1 }).push [.hold [r] [x]]) hc .expired

/-- The callback of the expired command is invoked. -/
theorem Expiring.expired (k : b.Expiring n left x e) :
    (∃ chores, b.Pausing (n + 1) left chores e.step) ∧
      ∃ tag below, b.line[n]? = some (x, tag) ∧
        e.step.stack = .notify tag (.error .timeout) :: below := by
  obtain ⟨hs, hn, ⟨tag, behind, hget, hl⟩, hb⟩ := k
  obtain ⟨command, hc, hnode, hlistener, -⟩ := hl.commands n x tag hget
  rw [if_neg (Nat.lt_irrefl n)] at hlistener
  have hnotes : command.notes .expired = [.notify tag (.error .timeout)] := by
    simp [Command.notes, Command.callback?, hlistener, Ending.reply]
  rw [step_expire hs hc, hnotes]
  refine ⟨⟨[.notify tag (.error .timeout), .hold [b.router] [x], .drain b.router, .kick], rfl, hn,
    ⟨none, behind, ⟨?_, hl.members, fun i y tag' hget' => ?_⟩,
      by simp [Task.isLoose, Task.isQuiet], by simp, fun _ => .inr (by simp)⟩, ?_⟩,
    tag, _, hget, rfl⟩
  · have hfront := hl.front
    obtain ⟨router, hr, heq⟩ := Option.map_eq_some_iff.1 hfront
    show ((Engine.updateRouter _ _ _).router? b.router).map _ = _
    rw [router?_updateRouter, if_pos rfl]
    show ((e.router? b.router).map _).map Router.front = _
    rw [hr]
    unfold Router.front at heq
    obtain ⟨hslot, hbehind, htimeouts, hattached⟩ := Front.mk.inj heq
    show some (Router.front _) = _
    unfold Router.front
    simp only [hslot, hbehind, htimeouts, hattached]
    rfl
  · show ∃ command, Commands.get? (e.commands.update x _) y = some command ∧ _
    rw [Commands.get?_update]
    by_cases hxy : x = y
    · subst hxy
      obtain rfl := index_unique hget hget'
      rw [if_pos rfl]
      have hc : Commands.get? e.commands x = some command := hc
      rw [hc]
      refine ⟨_, rfl, hnode, ?_, fun hle => absurd hle (Nat.not_succ_le_self _)⟩
      rw [if_pos (Nat.lt_succ_self _)]
      simp [Command.finish, hlistener]
    · rw [if_neg hxy]
      obtain ⟨old, hold, holdnode, holdlistener, holdsilent⟩ := hl.commands i y tag' hget'
      have hin : i ≠ n := by
        rintro rfl
        cases hget.symm.trans hget'
        exact hxy rfl
      refine ⟨old, hold, holdnode, ?_, holdsilent⟩
      rw [holdlistener]
      exact if_congr (by omega) rfl rfl
  · obtain ⟨mine, hmine, hrest⟩ := hb
    refine ⟨mine, ?_, hrest⟩
    show Commands.get? (e.commands.update x _) b.own = _
    rw [Commands.get?_update, if_neg (ne_own hget)]
    exact hmine

/-! ### Every quiet move -/

theorem Lined.slot_ne (h : b.Lined e told gone timeouts false slot behind) :
    slot ≠ some b.own := by
  rintro rfl
  refine b.foreign_rest gone ?_
  rw [← List.append_nil (b.rest gone), show [] = b.tail false from rfl, ← h.members]
  exact List.mem_cons_self

/-- As long as errands are done, no command is made. -/
theorem length_of_errand (h : e.Sound) (hm : e.move? m = some e') {made : Command}
    {watching : Watching} {below : List Task} (hloose : ∀ t ∈ chores, t.isLoose = true)
    (hs : e.stack = chores ++ .allocate r made (.waiting watching) :: below)
    (hs' : e'.stack = chores' ++ .allocate r made (.waiting watching) :: below)
    (hle : e.commands.length ≤ e'.commands.length) :
    e'.commands.length = e.commands.length := by
  rcases Nat.eq_or_lt_of_le hle with heq | hlt
  · exact heq.symm
  · obtain ⟨r', made', style, below', hstack, rfl⟩ := h.begin_of_grown hm hlt
    rw [hs] at hstack
    cases chores with
    | cons t chores =>
      cases hstack
      cases hloose _ List.mem_cons_self
    | nil =>
      cases hstack
      have hlength := congrArg List.length hs'
      cases chores' with
      | nil => cases hs'
      | cons t chores' =>
        simp [begin, push] at hlength
        omega

/-- A caller whose command is queued does not see its attempt end. -/
theorem settle?_of_queued (h : e.Stored) (hq : e.Queued b.own) :
    e.settle? (b.waiter left) = none := by
  unfold settle?
  split
  · rfl
  · rename_i command hc
    simp only [waiter, h.notices_of_queued hq hc, Bool.false_eq_true, if_false]

/-- The program of the call learns of the timeout. -/
theorem Replying.learned (k : b.Replying [.reply (.error .timeout), .resume b.router b.next] [] e) :
    b.Replying [.perform b.router (.done (.error .timeout))] [] e.step := by
  obtain ⟨hs, -, ⟨slot, behind, hl⟩, hb⟩ := k
  have hstep : e.step = { e with
      stack := .perform b.router (.done (.error .timeout)) :: b.below } := by
    unfold step
    rw [hs]
    rfl
  rw [hstep]
  exact ⟨rfl, .concluded, ⟨slot, behind, hl.same rfl rfl⟩, hb.same rfl⟩

/-- The call answers with the timeout. -/
theorem Replying.concluded (k : b.Replying [.perform b.router (.done (.error .timeout))] [] e) :
    b.Replying [.answer (.error .timeout)] [] e.step := by
  obtain ⟨hs, -, ⟨slot, behind, hl⟩, hb⟩ := k
  have hstep : e.step = ({ e with stack := b.below } : Engine).push
      [.answer (.error .timeout)] := by
    unfold step
    rw [hs]
    rfl
  rw [hstep]
  exact ⟨rfl, .answered, ⟨slot, behind, hl.same rfl rfl⟩, hb.same rfl⟩

theorem Waiting.unsettled {deadline : Nat} (k : b.Waiting n left deadline [] e) (hs : e.Stored) :
    e.canProceed = false := by
  obtain ⟨hstack, -, ⟨x, behind, hl, -⟩, -⟩ := k
  have hqueued : e.Queued b.own := by
    refine ⟨b.router, ?_⟩
    rw [hl.lined.members_eq]
    exact List.mem_append_right _ List.mem_cons_self
  have hunsettled : ({ e with stack := b.base } : Engine).settle? (b.waiter left) = none :=
    settle?_of_queued (hs.restack b.base) hqueued
  have hstack : e.stack = .await (b.waiter left) deadline :: b.base := hstack
  simp [canProceed, pause, hstack, hunsettled]

section next

variable (h : Run b.settings turns e) (hq : e.Quiet b.router m) (hm : e.move? m = some e')

include h hq hm

/-- What a quiet move comes to while the task of the call waits, perhaps below errands. -/
theorem errand_or_own {task : Task} {below : List Task}
    (hs : e.stack = chores ++ task :: below) (hl : b.Tended e n queued chores slot behind)
    (hown : slot ≠ some b.own)
    (hunoffered : ∀ r, (e.queue r).slot = none → b.own ∉ (e.queue r).pending) :
    (∃ chores' slot' behind', e'.stack = chores' ++ task :: below ∧
      e.Errand e' b.router chores chores' ∧ b.Tended e' n queued chores' slot' behind' ∧
        (slot ≠ none → slot' = slot ∧ behind' = behind)) ∨
      chores = [] ∧ (∀ arrival, m ≠ .receive arrival) ∧ ∀ ms, m ≠ .elapse ms := by
  rcases h.sound.toStored.errand hq (hl.lined.silent hown) hm hs hl.loose with
    ⟨chores', hs', x⟩ | own
  · obtain ⟨slot', behind', hl', hsame⟩ := hl.errand x hunoffered
    exact .inl ⟨chores', slot', behind', hs', x, hl', hsame⟩
  · exact .inr own

theorem Framing.next {made : Command} (k : b.Framing made chores e) :
    (∃ chores', b.Framing made chores' e') ∨
      chores = [] ∧ b.Pausing 0 b.settings.attempts [] e' := by
  obtain ⟨hs, ⟨slot, behind, hl⟩, hc⟩ := id k
  have hunmade : ¬ e.Queued b.own := fun hqueued =>
    Nat.lt_irrefl _ (hc ▸ h.sound.lt_of_queued hqueued)
  rcases errand_or_own h hq hm hs hl hl.lined.slot_ne fun r _ hmem =>
      hunmade ⟨r, Queue.mem_members.2 (.inr hmem)⟩ with
    ⟨chores', slot', behind', hs', x, hl', -⟩ | ⟨rfl, hreceive, helapse⟩
  · have hle := (h.sound.extends (fun call heq => by subst heq; exact hq.elim) hm).length_le
    exact .inl ⟨chores', hs', ⟨slot', behind', hl'⟩,
      (length_of_errand h.sound hm hl.loose hs hs' hle).trans hc⟩
  · have hs : e.stack = .allocate b.router made (.waiting b.watching) :: b.base := hs
    cases m with
    | grant answer =>
      obtain rfl : answer = .ok () := hq
      obtain rfl : ({ e with stack := b.base } : Engine).begin b.router made
          (.waiting b.watching) = e' := by
        simpa [move?, granted?, hs] using hm
      exact .inr ⟨rfl, k.granted h.sound h.explored.settings_eq⟩
    | proceed => simp [move?, canProceed, pause, hs] at hm
    | back => simp [move?, returned?, hs] at hm
    | giveUp => simp [move?, canProceed, pause, gaveUp?, hs] at hm
    | collect => simp [move?, collected?, hs] at hm
    | call call => exact hq.elim
    | receive arrival => exact absurd rfl (hreceive arrival)
    | elapse ms => exact absurd rfl (helapse ms)

theorem Pausing.next (k : b.Pausing n left chores e) :
    (∃ chores', b.Pausing n left chores' e') ∨ chores = [] ∧ e' = e.step := by
  obtain ⟨hs, hn, ⟨slot, behind, hl⟩, hb⟩ := k
  rcases errand_or_own h hq hm hs hl hl.lined.slot_ne
      (hl.lined.unoffered h.sound.toStored hb fun _ => rfl) with
    ⟨chores', slot', behind', hs', x, hl', -⟩ | ⟨rfl, hreceive, helapse⟩
  · exact .inl ⟨chores', hs', hn, ⟨slot', behind', hl'⟩, hb.errand x⟩
  · rcases working_cases (by unfold pause; rw [hs]; rfl) hm with ⟨-, rfl⟩ | ⟨ms, rfl, -⟩
    · exact .inr ⟨rfl, rfl⟩
    · exact absurd rfl (helapse ms)

theorem Waiting.next {deadline : Nat} (k : b.Waiting n left deadline chores e) :
    (∃ chores', b.Waiting n left deadline chores' e') ∨
      chores = [] ∧ ∃ x, b.Expiring n left x e' := by
  obtain ⟨hs, hn, ⟨x, behind, hl, hne, hheld⟩, hb⟩ := id k
  obtain ⟨tag, hget, -⟩ := hl.lined.head rfl hne
  rcases errand_or_own h hq hm hs hl (fun heq => hne (Option.some.inj heq))
      (hl.lined.unoffered h.sound.toStored hb nofun) with
    ⟨chores', slot', behind', hs', x', hl', hsame⟩ | ⟨rfl, hreceive, helapse⟩
  · obtain ⟨rfl, rfl⟩ := hsame nofun
    refine .inl ⟨chores', hs', hn, ⟨x, _, hl', hne, ?_⟩, hb.errand x'⟩
    -- what holds the slot has held it before
    rcases x'.front with bypasses | takes
    · obtain ⟨command, since, hc, hsince, hle⟩ := hheld
      obtain ⟨command', hc', hnode, -⟩ := hl.lined.commands n x tag hget
      cases hc.symm.trans hc'
      obtain ⟨later, hlater, -, hkept⟩ := bypasses.commands x command hc hnode
      exact ⟨later, since, hlater, hkept.trans hsince, hle⟩
    · obtain ⟨y, rest, timeouts, detached, hbefore, -⟩ := takes.front
      cases hl.lined.front.symm.trans hbefore
  · have hs : e.stack = .await (b.waiter left) deadline :: b.base := hs
    have hrests := k.unsettled h.sound.toStored
    cases m with
    | giveUp =>
      have hm : (if deadline ≤ e.now then
          some (({ e with stack := b.base } : Engine).withdraw (b.waiter left)) else none) =
            some e' := by
        simpa [move?, hrests, gaveUp?, hs] using hm
      split at hm
      · rename_i hnow
        cases hm
        exact .inr ⟨rfl, k.gaveUp h.explored.settings_eq hnow⟩
      · cases hm
    | proceed => simp [move?, hrests] at hm
    | grant answer => simp [move?, granted?, hs] at hm
    | back => simp [move?, returned?, hs] at hm
    | collect => simp [move?, collected?, hs] at hm
    | call call => exact hq.elim
    | receive arrival => exact absurd rfl (hreceive arrival)
    | elapse ms => exact absurd rfl (helapse ms)

theorem Replying.next {part : List Task} (k : b.Replying part chores e) :
    (∃ chores', b.Replying part chores' e') ∨ chores = [] ∧ ∃ part', b.Replying part' [] e' := by
  obtain ⟨hs, hr, ⟨slot, behind, hl⟩, hb⟩ := k
  obtain ⟨task, more, rfl⟩ : ∃ task more, part = task :: more := by
    cases hr <;> exact ⟨_, _, rfl⟩
  have hsplit : e.stack = chores ++ task :: (more ++ b.below) := by
    rw [hs, List.append_assoc]
    rfl
  rcases errand_or_own h hq hm hsplit hl hl.lined.slot_ne
      (hl.lined.unoffered h.sound.toStored hb fun _ => rfl) with
    ⟨chores', slot', behind', hs', x, hl', -⟩ | ⟨rfl, hreceive, helapse⟩
  · refine .inl ⟨chores', ?_, hr, ⟨slot', behind', hl'⟩, hb.errand x⟩
    rw [hs', List.append_assoc]
    rfl
  · refine .inr ⟨rfl, ?_⟩
    cases hr with
    | replied =>
      rcases working_cases (by unfold pause; rw [hsplit]; rfl) hm with ⟨-, rfl⟩ | ⟨ms, rfl, -⟩
      · exact ⟨_, Replying.learned ⟨hs, .replied, ⟨slot, behind, hl⟩, hb⟩⟩
      · exact absurd rfl (helapse ms)
    | concluded =>
      rcases working_cases (by unfold pause; rw [hsplit]; rfl) hm with ⟨-, rfl⟩ | ⟨ms, rfl, -⟩
      · exact ⟨_, Replying.concluded ⟨hs, .concluded, ⟨slot, behind, hl⟩, hb⟩⟩
      · exact absurd rfl (helapse ms)
    | answered =>
      have hs : e.stack = .answer (conclusion b.transfer (.waiting b.watching)
        (.error .timeout)) :: b.below := hsplit
      cases m with
      | collect => exact absurd hs (hq _ _)
      | proceed => simp [move?, canProceed, pause, hs] at hm
      | grant answer => simp [move?, granted?, hs] at hm
      | back => simp [move?, returned?, hs] at hm
      | giveUp => simp [move?, canProceed, pause, gaveUp?, hs] at hm
      | call call => exact hq.elim
      | receive arrival => exact absurd rfl (hreceive arrival)
      | elapse ms => exact absurd rfl (helapse ms)

/-- **A quiet move takes the call to another stage**, and where the callback of one more command is
invoked, that is the next one of the line. -/
theorem stage_next (hst : b.Stage e n) (hnot : ∀ below, e.stack ≠ .offer b.router b.own :: below) :
    b.Stage e' n ∨ b.Stage e' (n + 1) ∧ ∃ x tag below, b.line[n]? = some (x, tag) ∧
      e'.stack = .notify tag (.error .timeout) :: below := by
  cases hst with
  | asking k =>
    rcases working_cases (by unfold pause; rw [k.stack]) hm with ⟨-, rfl⟩ | ⟨ms, -, rfl⟩
    · obtain ⟨made, framing⟩ := k.asked
      exact .inl (.framing framing)
    · obtain ⟨hs, ⟨slot, behind, hl⟩, hc, hr⟩ := k
      exact .inl (.asking ⟨hs, ⟨slot, behind, hl.same rfl rfl⟩, hc, hr⟩)
  | framing k =>
    rcases k.next h hq hm with ⟨chores', k'⟩ | ⟨-, k'⟩
    · exact .inl (.framing k')
    · exact .inl (.pausing k')
  | @pausing n left chores k =>
    rcases k.next h hq hm with ⟨chores', k'⟩ | ⟨rfl, rfl⟩
    · exact .inl (.pausing k')
    · cases left with
      | zero =>
        obtain ⟨rfl, replying⟩ := k.exhausted
        exact .inl (.replying replying)
      | succ left => exact .inl (.launched k.retried)
  | launched k =>
    rcases working_cases (by unfold pause; rw [k.stack]) hm with ⟨-, rfl⟩ | ⟨ms, -, rfl⟩
    · rcases k.drained h.sound.toStored with offered | standing
      · exact .inl (.offered offered)
      · exact .inl (.standing standing)
    · obtain ⟨hs, hn, ⟨slot, behind, hl, hrest⟩, hb⟩ := k
      exact .inl (.launched ⟨hs, hn, ⟨slot, behind, hl.same rfl rfl, hrest⟩, hb.same rfl⟩)
  | offered k => exact absurd k.stack (hnot _)
  | standing k =>
    rcases working_cases (by unfold pause; rw [k.stack]) hm with ⟨-, rfl⟩ | ⟨ms, -, rfl⟩
    · exact .inl (.waiting (k.watched h))
    · obtain ⟨hs, hn, ⟨x, behind, hl, hne⟩, hb⟩ := k
      exact .inl (.standing ⟨hs, hn, ⟨x, behind, hl.same rfl rfl, hne⟩, hb.same rfl⟩)
  | waiting k =>
    rcases k.next h hq hm with ⟨chores', k'⟩ | ⟨-, x, k'⟩
    · exact .inl (.waiting k')
    · exact .inl (.expiring k')
  | expiring k =>
    rcases working_cases (by unfold pause; rw [k.stack]) hm with ⟨-, rfl⟩ | ⟨ms, -, rfl⟩
    · obtain ⟨⟨chores, pausing⟩, tag, below, hget, hstack⟩ := k.expired
      exact .inr ⟨.pausing pausing, _, tag, below, hget, hstack⟩
    · obtain ⟨hs, hn, ⟨tag, behind, hget, hl⟩, hb⟩ := k
      exact .inl (.expiring ⟨hs, hn, ⟨tag, behind, hget, hl.same rfl rfl⟩, hb.same rfl⟩)
  | replying k =>
    rcases k.next h hq hm with ⟨chores', k'⟩ | ⟨-, part', k'⟩
    · exact .inl (.replying k')
    · exact .inl (.replying k')

end next

end Blockade

end RouterFabric
