import RouterFabric.Proofs.Run

/-!
# How the calls in progress stand

Every call in progress has a segment of the stack: the task it is at, and below it the program that
goes on with the reply, if one waits. Chores of other callers lie in between. A transfer goes
through a few stages only; of any other call it is enough that it makes no transfer with a callback.

* `Program.Asks` : what a program may ask for, whatever the replies are
* `Progress`, `Stands` : how far a transfer has come, and the segment of a call
* `Stacked` : the stack, segment by segment
* `Stacked.of_inner`, `of_called`, `of_collected` : what a move does to the calls in progress
* `Run.standing` : an invariant of runs, from what it says about the calls in progress
* `Run.stacked` : in every state of a run the stack is made of the calls in progress
-/

namespace RouterFabric

/-! ## What programs ask for -/

namespace Program

variable {ρ σ α β : Type} {P : ρ → Prop}

/-- Whatever the replies are, the program makes only requests of this kind. -/
def Asks (P : ρ → Prop) : Program ρ α → Prop
  | .done _ => True
  | .ask request next => P request ∧ ∀ reply, (next reply).Asks P

theorem Asks.bind {p : Program ρ α} {f : α → Program ρ β} (h : p.Asks P)
    (hf : ∀ a, (f a).Asks P) : (p >>= f).Asks P := by
  induction p with
  | done result =>
    cases result with
    | ok a => exact hf a
    | error failure => trivial
  | ask request next ih => exact ⟨h.1, fun reply => ih reply (h.2 reply)⟩

theorem Asks.recover {p : Program ρ α} {handler : Failure → Program ρ α} (h : p.Asks P)
    (hf : ∀ failure, (handler failure).Asks P) : (p.recover handler).Asks P := by
  induction p with
  | done result =>
    cases result with
    | ok a => trivial
    | error failure => exact hf failure
  | ask request next ih => exact ⟨h.1, fun reply => ih reply (h.2 reply)⟩

theorem Asks.mono {Q : ρ → Prop} {p : Program ρ α} (h : p.Asks P)
    (hpq : ∀ request, P request → Q request) : p.Asks Q := by
  induction p with
  | done result => trivial
  | ask request next ih => exact ⟨hpq _ h.1, fun reply => ih reply (h.2 reply)⟩

theorem asks_mapRequests {P : σ → Prop} {f : ρ → σ} (p : Program ρ α)
    (hf : ∀ request, P (f request)) : (p.mapRequests f).Asks P := by
  induction p with
  | done result => trivial
  | ask request next ih => exact ⟨hf request, fun reply => ih reply⟩

theorem asks_request {request : ρ} (h : P request) : (Program.request request).Asks P :=
  ⟨h, fun _ => trivial⟩

theorem asks_ofOutcome (result : Outcome α) : (ofOutcome result : Program ρ α).Asks P :=
  trivial

theorem asks_pure (a : α) : (pure a : Program ρ α).Asks P :=
  trivial

theorem asks_fail (failure : Failure) : (Program.fail failure : Program ρ α).Asks P :=
  trivial

end Program

/-- A request that passes no callback on. -/
def Request.Plain (request : Request) : Prop :=
  ∀ t tag, request ≠ .transfer t (.callback tag)

/-- A request that leaves the router where it is. -/
def Request.Stays (request : Request) : Prop :=
  request ≠ .unlink

/-- A request of a procedure that is carried out on an attached router. -/
def Request.Tame (request : Request) : Prop :=
  request.Plain ∧ request.Stays

/-- What the procedures on attached routers ask for. -/
inductive Request.Simple : Request → Prop
  | transfer (t : Transfer) : Simple (.transfer t (.waiting .woken))
  | pause (ms : Nat) : Simple (.pause ms)
  | fallAsleep : Simple .fallAsleep

theorem Request.Simple.tame {request : Request} (h : request.Simple) : request.Tame := by
  cases h <;> exact ⟨nofun, nofun⟩

/-- What the searches ask for. -/
inductive Request.Reads : Request → Prop
  | mk (space : Space) (adapter offset dwords : Nat) :
      Reads (.transfer (.read space adapter offset dwords) (.waiting .woken))

theorem Request.Reads.simple {request : Request} (h : request.Reads) : request.Simple := by
  cases h
  exact .transfer _

namespace Procedure

open Program

theorem reads_readRouter (offset dwords : Nat) :
    (readRouter offset dwords).Asks Request.Reads :=
  asks_request (.mk .router 0 offset dwords)

theorem reads_find (start : Nat) (target : Capability.Target) (space : Space) (adapter : Nat) :
    ((Capability.find start target).mapRequests (readSpace space adapter)).Asks Request.Reads :=
  asks_mapRequests _ fun offset => .mk space adapter offset 1

theorem reads_routerCapability (target : Capability.Target) :
    (routerCapability target).Asks Request.Reads := by
  refine (reads_readRouter _ _).bind fun words => (asks_ofOutcome _).bind fun cs1 => ?_
  exact (reads_find _ target .router 0).bind fun header => asks_pure _

theorem reads_adapterCapability (identity : Option Identity) (adapter id : Nat) :
    (adapterCapability identity adapter id).Asks Request.Reads := by
  refine (asks_ofOutcome _).bind fun _ => ?_
  refine (asks_request (.mk .adapter adapter 0 _)).bind fun words => ?_
  refine (asks_ofOutcome _).bind fun cs1 => ?_
  exact (reads_find _ (.basic id) .adapter adapter).bind fun header => asks_pure _

theorem reads_linkControllerUuid (identity : Option Identity) :
    (linkControllerUuid identity).Asks Request.Reads := by
  refine (asks_ofOutcome _).bind fun vendor => (reads_routerCapability _).bind fun base => ?_
  refine (reads_readRouter _ _).bind fun words => ?_
  split
  · exact asks_pure _
  · exact asks_fail _

theorem simple_transfer (t : Transfer) : (transfer t).Asks Request.Simple :=
  asks_request (.transfer t)

theorem simple_readRouter (offset dwords : Nat) : (readRouter offset dwords).Asks Request.Simple :=
  simple_transfer _

theorem simple_awaitSleep (waitMs more : Nat) : (awaitSleep waitMs more).Asks Request.Simple := by
  induction more with
  | zero =>
    unfold awaitSleep
    refine (asks_request (.pause waitMs)).bind fun _ => ?_
    refine (simple_readRouter _ _).bind fun words => ?_
    split
    · exact (asks_request .fallAsleep).bind fun _ => asks_pure _
    · exact asks_fail _
  | succ more ih =>
    unfold awaitSleep
    refine (asks_request (.pause waitMs)).bind fun _ => ?_
    refine (simple_readRouter _ _).bind fun words => ?_
    split
    · exact (asks_request .fallAsleep).bind fun _ => asks_pure _
    · exact ih

theorem simple_suspend (settings : Settings) (asleep : Bool) :
    (suspend settings asleep).Asks Request.Simple := by
  unfold suspend
  split
  · exact asks_pure _
  · refine (simple_readRouter _ _).bind fun words => (asks_ofOutcome _).bind fun control => ?_
    exact (simple_transfer _).bind fun _ => simple_awaitSleep _ _

theorem plain_discover (settings : Settings) (route : Route) :
    (discover settings route).Asks Request.Plain := by
  refine Asks.recover ?_ fun failure => (asks_request nofun).bind fun _ => asks_fail _
  refine (asks_request nofun).bind fun words => (asks_ofOutcome _).bind fun identity => ?_
  exact (asks_request nofun).bind fun _ => asks_pure _

end Procedure

/-- Whether the operation looks for something in config spaces. -/
def Operation.isSearch : Operation → Bool
  | .findCapability _ | .findAdapterCapability _ _ | .linkControllerUuid => true
  | _ => false

/-- A search only reads. -/
theorem Operation.reads_program (settings : Settings) (router : Router) {operation : Operation}
    (h : operation.isSearch = true) :
    (operation.program settings router).Asks Request.Reads := by
  cases operation with
  | transfer | suspend => cases h
  | findCapability target =>
    exact (Procedure.reads_routerCapability target).bind fun _ => Program.asks_pure _
  | findAdapterCapability adapter id =>
    exact (Procedure.reads_adapterCapability _ adapter id).bind fun _ => Program.asks_pure _
  | linkControllerUuid =>
    exact (Procedure.reads_linkControllerUuid _).bind fun _ => Program.asks_pure _

/-- An operation other than a single transfer makes simple requests only. -/
theorem Operation.simple_program (settings : Settings) (router : Router) {operation : Operation}
    (h : ∀ t style, operation ≠ .transfer t style) :
    (operation.program settings router).Asks Request.Simple := by
  cases operation with
  | transfer t style => exact absurd rfl (h t style)
  | suspend => exact (Procedure.simple_suspend _ _).bind fun _ => Program.asks_pure _
  | findCapability | findAdapterCapability | linkControllerUuid =>
    exact (Operation.reads_program settings router rfl).mono fun _ reads => reads.simple

/-- No operation has its router taken out of the tree. -/
theorem Operation.stays_program (settings : Settings) (router : Router) (operation : Operation) :
    (operation.program settings router).Asks Request.Stays := by
  by_cases h : ∃ t style, operation = .transfer t style
  · obtain ⟨t, style, rfl⟩ := h
    exact (Program.asks_request nofun).bind fun _ => Program.asks_pure _
  · refine (Operation.simple_program settings router ?_).mono fun _ simple => simple.tame.2
    intro t style e
    exact h ⟨t, style, e⟩

/-! ## Segments -/

namespace Task

/-- Chores that can stand below all calls. -/
def isLoose : Task → Bool
  | .notify _ _ => true
  | t => t.isQuiet

/-- Tasks that belong to no call in particular. -/
def isChore : Task → Bool
  | .expire _ _ => true
  | t => t.isLoose

theorem isLoose_of_quiet {t : Task} (h : t.isQuiet = true) : t.isLoose = true := by
  cases t <;> first | rfl | exact h

theorem isChore_of_loose {t : Task} (h : t.isLoose = true) : t.isChore = true := by
  cases t <;> first | rfl | exact h

theorem isChore_of_waiter? {t : Task} {w : Waiter} (h : t.waiter? = some w) :
    t.isChore = false := by
  cases t <;> first | rfl | cases h

theorem isChore_of_quiet {t : Task} (h : t.isQuiet = true) : t.isChore = true :=
  isChore_of_loose (isLoose_of_quiet h)

theorem waiter?_of_chore {t : Task} (h : t.isChore = true) : t.waiter? = none := by
  cases t <;> first | rfl | cases h

theorem isLoose_notes (command : Command) (ending : Ending) :
    ∀ t ∈ command.notes ending, t.isLoose = true := by
  intro t ht
  unfold Command.notes at ht
  obtain ⟨tag, -, rfl⟩ := List.mem_map.1 ht
  rfl

section quiet

variable {tasks : List Task} (hquiet : ∀ t ∈ tasks, t.isQuiet = true)
include hquiet

/-- What the end of an attempt puts on the stack. -/
theorem isLoose_ended (command : Command) (ending : Ending) :
    ∀ t ∈ command.notes ending ++ tasks, t.isLoose = true :=
  List.forall_mem_append.2
    ⟨isLoose_notes command ending, fun t ht => isLoose_of_quiet (hquiet t ht)⟩

theorem isChore_ended (command : Command) (ending : Ending) :
    ∀ t ∈ command.notes ending ++ tasks, t.isChore = true :=
  fun t ht => isChore_of_loose (isLoose_ended hquiet command ending t ht)

/-- What a caller that gives up puts on the stack before it goes on. -/
theorem isChore_withdrawn (r : RouterRef) (expired : Option CommandRef) :
    ∀ t ∈ expired.toList.map (Task.expire r) ++ tasks, t.isChore = true :=
  List.forall_mem_append.2
    ⟨List.forall_mem_map.2 fun _ _ => rfl, fun t ht => isChore_of_quiet (hquiet t ht)⟩

/-- What a detachment puts on the stack before it is answered. -/
theorem isChore_detached (expired : List (RouterRef × CommandRef)) :
    ∀ t ∈ expired.map (fun (r, c) => Task.expire r c) ++ tasks, t.isChore = true :=
  List.forall_mem_append.2
    ⟨List.forall_mem_map.2 fun _ _ => rfl, fun t ht => isChore_of_quiet (hquiet t ht)⟩

end quiet

end Task

/-- What a transfer answers to a reply. -/
def conclusion (t : Transfer) (style : Style) (reply : Reply) : Outcome Answer :=
  reply.map (Operation.transferAnswer t style)

/-- How the program of a transfer goes on with the reply. -/
def following (t : Transfer) (style : Style) (reply : Reply) : Program Request Answer :=
  .done (conclusion t style reply)

theorem program_transfer (settings : Settings) (router : Router) (t : Transfer) (style : Style) :
    (Operation.transfer t style).program settings router =
      .ask (.transfer t style) (following t style) := by
  show Program.ask _ _ = _
  congr 1
  funext reply
  cases reply <;> rfl

/-- How far a transfer has come. -/
inductive Progress
  | begun
  /-- it waits for a frame for its command -/
  | framing (command : Command)
  /-- the caller waits for the command -/
  | waiting (waiter : Waiter)
  /-- what is left of it depends on the reply alone -/
  | ended (reply : Reply)

namespace Engine

/-- The command is what a transfer for the router is made into. -/
def Carries (e : Engine) (r : RouterRef) (t : Transfer) (command : Command) : Prop :=
  e.Owns r command ∧ command.kind = t.kind ∧ t.address = .ok command.address

/-- The segment of a call that is no transfer. -/
inductive Plain : List Task → Prop
  | registering : Plain [.register]
  | performing {r : RouterRef} {program : Program Request Answer} : program.Asks Request.Plain →
      Plain [.perform r program]
  | framing {r r' : RouterRef} {command : Command} {style : Style}
      {next : Reply → Program Request Answer} : (∀ tag, style ≠ .callback tag) →
      (∀ reply, (next reply).Asks Request.Plain) →
      Plain [.allocate r command style, .resume r' next]
  | waiting {t : Task} {w : Waiter} {r : RouterRef} {next : Reply → Program Request Answer} :
      t.waiter? = some w → (∀ reply, (next reply).Asks Request.Plain) → Plain [t, .resume r next]
  | replied {r : RouterRef} {reply : Reply} {next : Reply → Program Request Answer} :
      (∀ reply, (next reply).Asks Request.Plain) → Plain [.reply reply, .resume r next]
  | answered {result : Outcome Answer} : Plain [.answer result]

/-- The segment of a call, and how far the call has come if it is a transfer. -/
inductive Stands (e : Engine) : Call → Progress → List Task → Prop
  | asking {r : RouterRef} {t : Transfer} {style : Style} :
      Stands e (.operate r (.transfer t style)) .begun
        [.perform r (.ask (.transfer t style) (following t style))]
  | framing {r : RouterRef} {t : Transfer} {style : Style} {command : Command} :
      e.Carries r t command → Stands e (.operate r (.transfer t style)) (.framing command)
        [.allocate r command style, .resume r (following t style)]
  | waiting {r : RouterRef} {t : Transfer} {style : Style} {task : Task} {w : Waiter}
      {command : Command} : task.waiter? = some w → w.router = r →
      e.command? w.command = some command → e.Carries r t command →
      (∀ tag, style ≠ .callback tag) → Stands e (.operate r (.transfer t style)) (.waiting w)
        [task, .resume r (following t style)]
  | replied {r : RouterRef} {t : Transfer} {style : Style} {reply : Reply} :
      Stands e (.operate r (.transfer t style)) (.ended reply)
        [.reply reply, .resume r (following t style)]
  | concluded {r : RouterRef} {t : Transfer} {style : Style} {reply : Reply} :
      Stands e (.operate r (.transfer t style)) (.ended reply)
        [.perform r (.done (conclusion t style reply))]
  | answered {r : RouterRef} {t : Transfer} {style : Style} {reply : Reply} :
      Stands e (.operate r (.transfer t style)) (.ended reply) [.answer (conclusion t style reply)]
  | plain {call : Call} {segment : List Task} :
      (∀ r t style, call ≠ .operate r (.transfer t style)) → Plain segment →
      Stands e call .begun segment

/-- The stack is made of the segments of these calls, with chores in between. -/
inductive Stacked (e : Engine) : List (Call × Progress) → List Task → Prop
  | bottom {chores : List Task} : (∀ t ∈ chores, t.isLoose = true) → Stacked e [] chores
  | segment {call : Call} {progress : Progress} {chores segment outer : List Task}
      {standing : List (Call × Progress)} : (∀ t ∈ chores, t.isChore = true) →
      Stands e call progress segment → Stacked e standing outer →
      Stacked e ((call, progress) :: standing) (chores ++ segment ++ outer)

variable {e e' : Engine} {m : Move} {call : Call} {progress progress' : Progress}
  {standing standing' : List (Call × Progress)} {t : Task} {w : Waiter}
  {stack below gone tasks segment : List Task}

theorem Carries.mono {r : RouterRef} {t : Transfer} {command command' : Command}
    (h : e.Carries r t command) (x : e.Extends e') (hm : command'.made = command.made) :
    e'.Carries r t command' := by
  have hkind : command'.kind = command.kind := congrArg (·.kind) hm
  have haddr : command'.address = command.address := congrArg (·.address) hm
  refine ⟨x.owns h.1 hm, hkind.trans h.2.1, ?_⟩
  rw [haddr]
  exact h.2.2

theorem Stands.mono (h : e.Stands call progress segment) (x : e.Extends e') :
    e'.Stands call progress segment := by
  cases h with
  | asking => exact .asking
  | framing hc => exact .framing (hc.mono x rfl)
  | waiting hw hr hcommand hc hs =>
    obtain ⟨command', hcommand', hm, -⟩ := x.commands _ _ hcommand
    exact .waiting hw hr hcommand' (hc.mono x hm) hs
  | replied => exact .replied
  | concluded => exact .concluded
  | answered => exact .answered
  | plain hcall hp => exact .plain hcall hp

theorem Stacked.mono (h : e.Stacked standing stack) (x : e.Extends e') :
    e'.Stacked standing stack := by
  induction h with
  | bottom hloose => exact .bottom hloose
  | segment hchores hstands _ ih => exact .segment hchores (hstands.mono x) ih

/-- A segment begins with a task that is no chore. -/
theorem Stands.head (h : e.Stands call progress segment) :
    ∃ t rest, segment = t :: rest ∧ t.isChore = false := by
  cases h with
  | asking | framing | replied | concluded | answered => exact ⟨_, _, rfl, rfl⟩
  | waiting hw => exact ⟨_, _, rfl, Task.isChore_of_waiter? hw⟩
  | plain _ hp =>
    cases hp with
    | registering | performing | framing | replied | answered => exact ⟨_, _, rfl, rfl⟩
    | waiting hw => exact ⟨_, _, rfl, Task.isChore_of_waiter? hw⟩

/-- The task on top that is no chore belongs to the innermost call. -/
theorem Stacked.head (h : e.Stacked standing (t :: below)) (ht : t.isChore = false) :
    ∃ call progress standing' segment outer, standing = (call, progress) :: standing' ∧
      below = segment ++ outer ∧ e.Stands call progress (t :: segment) ∧
      e.Stacked standing' outer := by
  generalize hs : t :: below = stack at h
  cases h with
  | bottom hloose =>
    have hchore := Task.isChore_of_loose (hloose t (hs ▸ List.mem_cons_self))
    rw [ht] at hchore
    cases hchore
  | @segment call progress chores segment outer standing' hchores hstands hrest =>
    cases chores with
    | cons t' chores =>
      rw [List.cons_append, List.cons_append] at hs
      cases hs
      rw [hchores t List.mem_cons_self] at ht
      cases ht
    | nil =>
      obtain ⟨t', rest, rfl, -⟩ := hstands.head
      rw [List.nil_append, List.cons_append] at hs
      cases hs
      exact ⟨call, progress, standing', rest, outer, rfl, rfl, hstands, hrest⟩

theorem Stacked.tail (h : e.Stacked standing (t :: below)) (ht : t.isChore = true) :
    e.Stacked standing below := by
  generalize hs : t :: below = stack at h
  cases h with
  | bottom hloose =>
    subst hs
    exact .bottom fun t' ht' => hloose t' (List.mem_cons_of_mem _ ht')
  | @segment call progress chores segment outer standing' hchores hstands hrest =>
    cases chores with
    | nil =>
      obtain ⟨t', rest, rfl, hfalse⟩ := hstands.head
      rw [List.nil_append, List.cons_append] at hs
      cases hs
      rw [ht] at hfalse
      cases hfalse
    | cons t' chores =>
      rw [List.cons_append, List.cons_append] at hs
      cases hs
      exact .segment (fun t' ht' => hchores t' (List.mem_cons_of_mem _ ht')) hstands hrest

/-- Chores can be taken away. -/
theorem Stacked.drop (h : e.Stacked standing (gone ++ below))
    (hgone : ∀ t ∈ gone, t.isChore = true) : e.Stacked standing below := by
  induction gone with
  | nil => exact h
  | cons t gone ih =>
    have rest := h.tail (hgone t List.mem_cons_self)
    exact ih rest fun t' ht' => hgone t' (List.mem_cons_of_mem _ ht')

/-- Loose chores can be put on top of anything. -/
theorem Stacked.push (h : e.Stacked standing below) (htasks : ∀ t ∈ tasks, t.isLoose = true) :
    e.Stacked standing (tasks ++ below) := by
  cases h with
  | bottom hloose =>
    exact .bottom (List.forall_mem_append.2 ⟨htasks, hloose⟩)
  | segment hchores hstands hrest =>
    rw [← List.append_assoc, ← List.append_assoc]
    have hfront : ∀ t ∈ tasks, t.isChore = true := fun t ht => Task.isChore_of_loose (htasks t ht)
    exact .segment (List.forall_mem_append.2 ⟨hfront, hchores⟩) hstands hrest

/-! ## Moves -/

/-- A transfer has passed its callback on, and its command is queued. -/
inductive Queues (e : Engine) (tag : Nat) (e' : Engine) : Prop
  | intro (r : RouterRef) (command : Command) (below : List Task) (mid : Engine) (router : Router) :
      e.stack = .allocate r command (.callback tag) :: below →
      e'.stack = .drain r :: .reply (.ok []) :: below → router.detached = false →
      e.Added mid { command with listener := .callback tag } →
      mid.Begun e' r ⟨e.commands.length⟩ router { command with listener := .callback tag } →
      Queues e tag e'

/-- What a move does to the calls in progress, if it neither begins nor answers one. -/
inductive Proceeds (e e' : Engine) : List (Call × Progress) → List (Call × Progress) → Prop
  | stays (standing : List (Call × Progress)) : (∀ tag, ¬ e.Queues tag e') →
      Proceeds e e' standing standing
  /-- the innermost call comes further, but not to a good end -/
  | goes (call : Call) (progress progress' : Progress) (outer : List (Call × Progress)) :
      (∀ tag, ¬ e.Queues tag e') → (∀ ws, progress ≠ .ended (.ok ws)) →
      (∀ ws, progress' ≠ .ended (.ok ws)) →
      Proceeds e e' ((call, progress) :: outer) ((call, progress') :: outer)
  /-- the innermost call learns how its command has ended -/
  | learned (r : RouterRef) (t : Transfer) (style : Style) (w : Waiter) (reply : Reply)
      (command : Command) (outer : List (Call × Progress)) : (∀ tag, ¬ e.Queues tag e') →
      (∀ tag, style ≠ .callback tag) → e.command? w.command = some command →
      e.Carries r t command → (command.listener = .future (some reply) ∨
        ∃ ending, command.ending = some ending ∧ reply = ending.reply) →
      Proceeds e e' ((.operate r (.transfer t style), .waiting w) :: outer)
        ((.operate r (.transfer t style), .ended reply) :: outer)
  | queued (r : RouterRef) (t : Transfer) (tag : Nat) (command : Command) (below : List Task)
      (outer : List (Call × Progress)) : e.stack = .allocate r command (.callback tag) :: below →
      e.Carries r t command → e.Queues tag e' →
      Proceeds e e' ((.operate r (.transfer t (.callback tag)), .framing command) :: outer)
        ((.operate r (.transfer t (.callback tag)), .ended (.ok [])) :: outer)

theorem Proceeds.calls (p : Proceeds e e' standing standing') :
    standing'.map (·.1) = standing.map (·.1) := by
  cases p <;> rfl

theorem not_queues_of_head (e' : Engine) (he : e.stack = t :: below)
    (ht : ∀ r command style, t ≠ .allocate r command style) (tag : Nat) : ¬ e.Queues tag e' := by
  rintro ⟨r, command, rest, mid, router, hs, -⟩
  rw [he] at hs
  cases hs
  exact ht r command _ rfl

/-- While chores come and go, nothing is queued for a transfer. -/
theorem not_queues_of_chores (he : e.stack = gone ++ below) (he' : e'.stack = tasks ++ below)
    (hgone : ∀ t ∈ gone, t.isChore = true) (tag : Nat) : ¬ e.Queues tag e' := by
  rintro ⟨r, command, rest, mid, router, hs, hs', -⟩
  rw [he] at hs
  rw [he'] at hs'
  cases gone with
  | cons t gone =>
    rw [List.cons_append] at hs
    cases hs
    cases hgone _ List.mem_cons_self
  | nil =>
    rw [List.nil_append] at hs
    subst hs
    match tasks, hs' with
    | [], hs' => cases hs'
    | [_], hs' => cases hs'
    | _ :: _ :: tasks, hs' =>
      have hlen := congrArg List.length hs'
      simp only [List.cons_append, List.length_cons, List.length_append] at hlen
      omega

theorem Stacked.chores (h : e.Stacked standing e.stack) (gone tasks : List Task)
    (x : e.Extends e')
    (he : e.stack = gone ++ below) (he' : e'.stack = tasks ++ below)
    (hgone : ∀ t ∈ gone, t.isChore = true) (htasks : ∀ t ∈ tasks, t.isLoose = true) :
    ∃ standing', e'.Stacked standing' e'.stack ∧ Proceeds e e' standing standing' := by
  refine ⟨standing, ?_, .stays standing (not_queues_of_chores he he' hgone)⟩
  rw [he] at h
  rw [he']
  exact ((h.drop hgone).mono x).push htasks

theorem Stacked.of_segment {outer : List Task} (h : e.Stacked standing outer) (tasks : List Task)
    (x : e.Extends e') (he' : e'.stack = tasks ++ segment ++ outer)
    (htasks : ∀ t ∈ tasks, t.isChore = true) (hs : e'.Stands call progress segment) :
    e'.Stacked ((call, progress) :: standing) e'.stack := by
  rw [he']
  exact .segment htasks hs (h.mono x)

/-- A move that puts other tasks in the place of the one on top takes the innermost call further. -/
theorem Stacked.advances (h : e.Stacked standing e.stack) (tasks front : List Task)
    (x : e.Extends e') (he : e.stack = t :: below) (he' : e'.stack = tasks ++ (front ++ below))
    (htasks : ∀ t ∈ tasks, t.isChore = true) (ht : t.isChore = false)
    (step : ∀ call progress segment outer, e.Stands call progress (t :: segment) →
      ∃ progress', e'.Stands call progress' (front ++ segment) ∧
        Proceeds e e' ((call, progress) :: outer) ((call, progress') :: outer)) :
    ∃ standing', e'.Stacked standing' e'.stack ∧ Proceeds e e' standing standing' := by
  rw [he] at h
  obtain ⟨call, progress, outer, segment, below, rfl, rfl, hstands, hrest⟩ := h.head ht
  obtain ⟨progress', hstands', proceeds⟩ := step call progress segment outer hstands
  refine ⟨_, hrest.of_segment tasks x ?_ htasks hstands', proceeds⟩
  rw [he']
  simp

/-- A waiting caller goes on waiting for its command. -/
theorem Stacked.waits {t' : Task} {w' : Waiter} (h : e.Stacked standing e.stack)
    (tasks : List Task) (x : e.Extends e') (he : e.stack = t :: below)
    (he' : e'.stack = tasks ++ t' :: below) (htasks : ∀ t ∈ tasks, t.isChore = true)
    (hw : t.waiter? = some w) (hw' : t'.waiter? = some w') (hr : w'.router = w.router)
    (hc : w'.command = w.command) :
    ∃ standing', e'.Stacked standing' e'.stack ∧ Proceeds e e' standing standing' := by
  have hq := not_queues_of_head e' he (by rintro r command style rfl; cases hw)
  refine h.advances tasks [t'] x he he' htasks (Task.isChore_of_waiter? hw)
    fun call progress segment outer hstands => ?_
  cases hstands with
  | waiting hw₀ hr₀ hcommand hcarries hs =>
    rw [hw] at hw₀
    cases hw₀
    obtain ⟨command', hcommand', hm, -⟩ := x.commands _ _ hcommand
    refine ⟨.waiting w', ?_, .goes _ _ _ outer hq nofun nofun⟩
    exact .waiting hw' (hr.trans hr₀) (hc ▸ hcommand') (hcarries.mono x hm) hs
  | plain hcall hp =>
    cases hp with
    | waiting _ hnext => exact ⟨_, .plain hcall (.waiting hw' hnext), .stays _ hq⟩
    | registering | performing | framing | replied | answered => cases hw
  | asking | framing | replied | concluded | answered => cases hw

/-- A waiting caller is told that something has failed. -/
theorem Stacked.fails {failure : Failure} (h : e.Stacked standing e.stack) (tasks : List Task)
    (x : e.Extends e') (he : e.stack = t :: below)
    (he' : e'.stack = tasks ++ .reply (.error failure) :: below)
    (htasks : ∀ t ∈ tasks, t.isChore = true) (hw : t.waiter? = some w) :
    ∃ standing', e'.Stacked standing' e'.stack ∧ Proceeds e e' standing standing' := by
  have hq := not_queues_of_head e' he (by rintro r command style rfl; cases hw)
  refine h.advances tasks [.reply (.error failure)] x he he' htasks (Task.isChore_of_waiter? hw)
    fun call progress segment outer hstands => ?_
  cases hstands with
  | waiting => exact ⟨_, .replied, .goes _ _ _ outer hq nofun nofun⟩
  | plain hcall hp =>
    cases hp with
    | waiting _ hnext => exact ⟨_, .plain hcall (.replied hnext), .stays _ hq⟩
    | registering | performing | framing | replied | answered => cases hw
  | asking | framing | replied | concluded | answered => cases hw

/-- A waiting caller learns how its command has ended. -/
theorem Stacked.learns {reply : Reply} {command : Command} (h : e.Stacked standing e.stack)
    (x : e.Extends e') (he : e.stack = t :: below) (he' : e'.stack = .reply reply :: below)
    (hw : t.waiter? = some w) (hcommand : e.command? w.command = some command)
    (hreply : command.listener = .future (some reply) ∨
      ∃ ending, command.ending = some ending ∧ reply = ending.reply) :
    ∃ standing', e'.Stacked standing' e'.stack ∧ Proceeds e e' standing standing' := by
  have hq := not_queues_of_head e' he (by rintro r command style rfl; cases hw)
  refine h.advances [] [.reply reply] x he he' (by simp) (Task.isChore_of_waiter? hw)
    fun call progress segment outer hstands => ?_
  cases hstands with
  | waiting hw₀ hr₀ hcommand₀ hcarries hs =>
    rw [hw] at hw₀
    cases hw₀
    rw [hcommand] at hcommand₀
    cases hcommand₀
    exact ⟨_, .replied, .learned _ _ _ w reply command outer hq hs hcommand hcarries hreply⟩
  | plain hcall hp =>
    cases hp with
    | waiting _ hnext => exact ⟨_, .plain hcall (.replied hnext), .stays _ hq⟩
    | registering | performing | framing | replied | answered => cases hw
  | asking | framing | replied | concluded | answered => cases hw

section

variable {r : RouterRef} {request : Request} {next : Reply → Program Request Answer}
  {command : Command} {style : Style} {reply : Reply} {result : Outcome Answer}

theorem Stacked.finishes (h : e.Stacked standing e.stack) (x : e.Extends e')
    (he : e.stack = .perform r (.done result) :: below) (he' : e'.stack = .answer result :: below) :
    ∃ standing', e'.Stacked standing' e'.stack ∧ Proceeds e e' standing standing' := by
  have hq := not_queues_of_head e' he (by simp)
  refine h.advances [] [.answer result] x he he' (by simp) rfl
    fun call progress segment outer hstands => ?_
  cases hstands with
  | concluded => exact ⟨_, .answered, .stays _ hq⟩
  | plain hcall hp =>
    cases hp with
    | performing => exact ⟨_, .plain hcall .answered, .stays _ hq⟩
    | waiting hw => cases hw
  | waiting hw => cases hw

theorem Stacked.asks (h : e.Stacked standing e.stack) (x : e.Extends e')
    (he : e.stack = .perform r (.ask request next) :: below)
    (he' : e'.stack = tasks ++ t :: .resume r next :: below)
    (htasks : ∀ t ∈ tasks, t.isChore = true) (asked : Asked e r request t) :
    ∃ standing', e'.Stacked standing' e'.stack ∧ Proceeds e e' standing standing' := by
  have hq := not_queues_of_head e' he (by simp)
  refine h.advances tasks [t, .resume r next] x he he' htasks rfl
    fun call progress segment outer hstands => ?_
  cases hstands with
  | asking =>
    cases asked with
    | refused failure => exact ⟨_, .replied, .goes _ _ _ outer hq nofun nofun⟩
    | met reply ht => exact absurd rfl (ht _ _)
    | transfer ho hmade hkind haddr =>
      have carries : e.Carries r _ _ := ⟨ho, hkind, haddr⟩
      exact ⟨_, .framing (carries.mono x rfl), .goes _ _ _ outer hq nofun nofun⟩
  | plain hcall hp =>
    refine ⟨_, .plain hcall ?_, .stays _ hq⟩
    cases hp with
    | performing hasks =>
      cases asked with
      | refused failure => exact .replied hasks.2
      | met reply => exact .replied hasks.2
      | transfer =>
        refine .framing (fun tag hs => ?_) hasks.2
        subst hs
        exact hasks.1 _ tag rfl
    | waiting hw => cases hw
  | waiting hw => cases hw

theorem Stacked.unlinks (h : e.Stacked standing e.stack) (x : e.Extends e')
    (he : e.stack = .perform r (.ask .unlink next) :: below)
    (he' : e'.stack = .reply (.ok []) :: .resume r next :: below) :
    ∃ standing', e'.Stacked standing' e'.stack ∧ Proceeds e e' standing standing' := by
  have hq := not_queues_of_head e' he (by simp)
  refine h.advances [] [.reply (.ok []), .resume r next] x he he' (by simp) rfl
    fun call progress segment outer hstands => ?_
  cases hstands with
  | plain hcall hp =>
    cases hp with
    | performing hasks => exact ⟨_, .plain hcall (.replied hasks.2), .stays _ hq⟩
    | waiting hw => cases hw
  | waiting hw => cases hw

/-- A reply stands above the program that waits for it. -/
theorem Stacked.answers (h : e.Stacked standing e.stack) (he : e.stack = .reply reply :: below) :
    ∃ r next rest, below = .resume r next :: rest := by
  rw [he] at h
  obtain ⟨call, progress, outer, segment, rest, rfl, hsplit, hstands, -⟩ := h.head rfl
  cases hstands with
  | replied => exact ⟨_, _, _, hsplit⟩
  | plain hcall hp =>
    cases hp with
    | replied => exact ⟨_, _, _, hsplit⟩
    | waiting hw => cases hw
  | waiting hw => cases hw

theorem Stacked.resumes (h : e.Stacked standing e.stack) (x : e.Extends e')
    (he : e.stack = .reply reply :: .resume r next :: below)
    (he' : e'.stack = .perform r (next reply) :: below) :
    ∃ standing', e'.Stacked standing' e'.stack ∧ Proceeds e e' standing standing' := by
  have hq := not_queues_of_head e' he (by simp)
  rw [he] at h
  obtain ⟨call, progress, outer, segment, rest, rfl, hbelow, hstands, hrest⟩ := h.head rfl
  cases hstands with
  | replied =>
    cases hbelow
    exact ⟨_, hrest.of_segment [] x he' (by simp) .concluded, .stays _ hq⟩
  | plain hcall hp =>
    cases hp with
    | replied hnext =>
      cases hbelow
      exact ⟨_, hrest.of_segment [] x he' (by simp)
        (.plain hcall (.performing (hnext reply))), .stays _ hq⟩
    | waiting hw => cases hw
  | waiting hw => cases hw

theorem Stacked.unframes {failure : Failure} (h : e.Stacked standing e.stack) (x : e.Extends e')
    (he : e.stack = .allocate r command style :: below)
    (he' : e'.stack = .reply (.error failure) :: below) :
    ∃ standing', e'.Stacked standing' e'.stack ∧ Proceeds e e' standing standing' := by
  have hq (tag : Nat) : ¬ e.Queues tag e' := by
    rintro ⟨_, _, _, _, _, -, hs, -⟩
    rw [he'] at hs
    cases hs
  refine h.advances [] [.reply (.error failure)] x he he' (by simp) rfl
    fun call progress segment outer hstands => ?_
  cases hstands with
  | framing => exact ⟨_, .replied, .goes _ _ _ outer hq nofun nofun⟩
  | plain hcall hp =>
    cases hp with
    | framing _ hnext => exact ⟨_, .plain hcall (.replied hnext), .stays _ hq⟩
    | waiting hw => cases hw
  | waiting hw => cases hw

/-- From a transfer that is framed, its caller goes on to wait for the command. -/
theorem Stacked.watches {new : Command} (h : e.Stacked standing e.stack) (tasks : List Task)
    (x : e.Extends e') (he : e.stack = .allocate r command style :: below)
    (he' : e'.stack = tasks ++ t :: below) (htasks : ∀ t ∈ tasks, t.isChore = true)
    (hstyle : ∀ tag, style ≠ .callback tag) (hw : t.waiter? = some w) (hr : w.router = r)
    (hnew : e'.command? w.command = some new) (hm : new.made = command.made) :
    ∃ standing', e'.Stacked standing' e'.stack ∧ Proceeds e e' standing standing' := by
  have hq (tag : Nat) : ¬ e.Queues tag e' := by
    rintro ⟨_, _, _, _, _, hs, -⟩
    rw [he] at hs
    cases hs
    exact hstyle tag rfl
  refine h.advances tasks [t] x he he' htasks rfl fun call progress segment outer hstands => ?_
  cases hstands with
  | framing hc =>
    exact ⟨_, .waiting hw hr hnew (hc.mono x hm) hstyle, .goes _ _ _ outer hq nofun nofun⟩
  | plain hcall hp =>
    cases hp with
    | framing _ hnext => exact ⟨_, .plain hcall (.waiting hw hnext), .stays _ hq⟩
    | waiting hw => cases hw
  | waiting hw => cases hw

/-- The transport has answered whether it takes the handlers. -/
theorem Stacked.registers (h : e.Stacked standing e.stack) (x : e.Extends e')
    (he : e.stack = .register :: below) (he' : e'.stack = t :: below) (hp' : Plain [t]) :
    ∃ standing', e'.Stacked standing' e'.stack ∧ Proceeds e e' standing standing' := by
  have hq := not_queues_of_head e' he (by simp)
  refine h.advances [] [t] x he he' (by simp) rfl fun call progress segment outer hstands => ?_
  cases hstands with
  | plain hcall hp =>
    cases hp with
    | registering => exact ⟨_, .plain hcall hp', .stays _ hq⟩
    | waiting hw => cases hw
  | waiting hw => cases hw

end

/-- The first task of an attachment. -/
theorem plain_of_joined {r : RouterRef} {route : Route} {linked : Bool}
    (ht : linked = false ∧ (∃ failure, t = .answer (.error failure)) ∨
      linked = true ∧ ∃ settings, t = .perform r (do
        Procedure.discover settings route
        return .router r)) : Plain [t] := by
  rcases ht with ⟨-, failure, rfl⟩ | ⟨-, settings, rfl⟩
  · exact .answered
  · exact .performing ((Procedure.plain_discover settings route).bind fun _ => Program.asks_pure _)

/-- A transfer is issued with a callback, and its caller has the reply at once. -/
theorem Stacked.passesOn {r : RouterRef} {command : Command} {tag : Nat}
    (h : e.Stacked standing e.stack) (x : e.Extends e')
    (he : e.stack = .allocate r command (.callback tag) :: below)
    (he' : e'.stack = .drain r :: .reply (.ok []) :: below) (queues : e.Queues tag e') :
    ∃ standing', e'.Stacked standing' e'.stack ∧ Proceeds e e' standing standing' := by
  refine h.advances [.drain r] [.reply (.ok [])] x he he' (List.forall_mem_singleton.2 rfl) rfl
    fun call progress segment outer hstands => ?_
  cases hstands with
  | framing hc => exact ⟨_, .replied, .queued r _ tag command _ outer he hc queues⟩
  | plain hcall hp =>
    cases hp with
    | framing hs => exact absurd rfl (hs tag)
    | waiting hw => cases hw
  | waiting hw => cases hw

/-- A transfer that nobody waits for by watching is issued. -/
theorem Stacked.issues {r : RouterRef} {command : Command} {style : Style} {mid : Engine}
    {router : Router} (h : e.Stacked standing e.stack) (x : e.Extends e')
    (he : e.stack = .allocate r command style :: below)
    (he' : e'.stack =
      (if router.detached then [Task.reply (.error .notFound)] else [Task.drain r, t]) ++ below)
    (issued : Issued r ⟨e.commands.length⟩ style t)
    (added : e.Added mid { command with listener := listenerFor style })
    (begun : mid.Begun e' r ⟨e.commands.length⟩ router
      { command with listener := listenerFor style }) :
    ∃ standing', e'.Stacked standing' e'.stack ∧ Proceeds e e' standing standing' := by
  cases hd : router.detached with
  | true =>
    rw [hd] at he'
    exact h.unframes x he he'
  | false =>
    rw [hd] at he'
    cases issued with
    | callback tag =>
      exact h.passesOn x he he' ⟨r, command, below, mid, router, he, he', hd, added, begun⟩
    | future =>
      obtain ⟨new, hnew, hsub, -⟩ := begun.after
      exact h.watches [.drain r] x he he' (List.forall_mem_singleton.2 rfl) nofun rfl rfl hnew
        ((Command.made_of_substance hsub).trans rfl)

/-- What a move does to the calls in progress, if it neither begins nor answers one. -/
theorem Stacked.of_inner (h : e.Stacked standing e.stack) (s : e.Sound) (k : Inner e m e') :
    ∃ standing', e'.Stacked standing' e'.stack ∧ Proceeds e e' standing standing' := by
  have x := s.extends_inner k
  have single {t : Task} (ht : t.isChore = true) : ∀ t' ∈ [t], t'.isChore = true :=
    List.forall_mem_singleton.2 ht
  have chores {l : List Task} (hl : ∀ t ∈ l, t.isQuiet = true) : ∀ t ∈ l, t.isChore = true :=
    fun t ht => Task.isChore_of_quiet (hl t ht)
  cases k with
  | quiet gone tasks below he he' hgone hquiet hfits a =>
    exact h.chores gone tasks x he he' (chores hgone)
      fun t ht => Task.isLoose_of_quiet (hquiet t ht)
  | returned tag reply below he he' hm a =>
    exact h.chores [.notify tag reply] [] x he he' (single rfl) (by simp)
  | expired r c old tasks below he he' hquiet hfits a =>
    exact h.chores [.expire r c] _ x he he' (single rfl) (Task.isLoose_ended hquiet old _)
  | refused r c old fault tasks below he he' hquiet hfits hslot a =>
    exact h.chores [.offer r c] _ x he he' (single rfl) (Task.isLoose_ended hquiet old _)
  | noted r c old signal words he' hslot signalled hdone a =>
    refine h.chores [] [.handled] x rfl he' (by simp) fun t ht => ?_
    rw [List.mem_singleton.1 ht]
    rfl
  | completed r c old signal words tasks he' hquiet hfits hslot signalled hdone a =>
    exact h.chores [] _ x rfl he' (by simp) (Task.isLoose_ended hquiet old _)
  | interrupted r c old event tasks he' hquiet hfits hslot a =>
    exact h.chores [] _ x rfl he' (by simp) (Task.isLoose_ended hquiet old _)
  | finished r result below he he' a => exact h.finishes x he he'
  | asked r request next t tasks below he he' hquiet hfits asked a =>
    exact h.asks x he he' (chores hquiet) asked
  | unlinked r next below he he' parted hm => exact h.unlinks x he he'
  | resumed r next reply below he he' a => exact h.resumes x he he'
  | dropped reply below he hbelow he' a =>
    obtain ⟨r, next, rest, hs⟩ := h.answers he
    exact absurd hs (hbelow r next rest)
  | unframed r command style failure below he he' a => exact h.unframes x he he'
  | framed r command watching below he he' added =>
    exact h.watches [] x he he' (by simp) nofun rfl rfl added.command_new rfl
  | issued r command style t mid router below he he' issued added begun =>
    exact h.issues x he he' issued added begun
  | retried w watching left router old below he he' begun =>
    cases hd : router.detached with
    | true =>
      rw [hd] at he'
      exact h.fails [] x he he' (by simp) rfl
    | false =>
      rw [hd] at he'
      exact h.waits [.drain w.router] x he he' (single rfl) rfl rfl rfl rfl
  | exhausted w below he he' a => exact h.fails [] x he he' (by simp) rfl
  | watched w deadline below he he' a =>
    exact h.waits [] x he he' (by simp) rfl rfl rfl rfl
  | settled w t t' command below he ht he' hcommand hsettled a =>
    have hw : t.waiter? = some w := by
      rcases ht with rfl | ⟨deadline, rfl⟩ <;> rfl
    rcases hsettled with ⟨reply, rfl, hreply⟩ | ⟨rfl, -⟩
    · exact h.learns x he he' hw hcommand hreply
    · exact h.waits [] x he he' (by simp) hw rfl rfl rfl
  | unclaimed w deadline below he he' a =>
    exact h.waits [] x he he' (by simp) rfl rfl rfl rfl
  | withdrawn w deadline mid old expired t tasks below he he' hquiet hfits ht hmem changed forced =>
    have htasks := Task.isChore_withdrawn hquiet w.router expired
    rcases ht with rfl | ⟨rfl, -⟩
    · exact h.fails _ x he he' htasks rfl
    · exact h.waits _ x he he' htasks rfl rfl rfl rfl
  | unregistered failure below he he' a => exact h.registers x he he' .answered
  | rooted linked t below he he' joined ht => exact h.registers x he he' (plain_of_joined ht)

/-- A call that begins is the innermost one, and has not come to a good end yet. -/
theorem Stacked.of_called (h : e.Stacked standing e.stack) (s : e.Sound) (k : Called e call e') :
    ∃ progress, e'.Stacked ((call, progress) :: standing) e'.stack ∧
      ∀ ws, progress ≠ .ended (.ok ws) := by
  have x := s.extends_called k
  cases k with
  | answered result hresult he' a =>
    by_cases htransfer : ∃ r t style, call = .operate r (.transfer t style)
    · obtain ⟨r, t, style, rfl⟩ := htransfer
      obtain ⟨failure, rfl⟩ := hresult r _ rfl
      exact ⟨.ended (.error failure), h.of_segment [] x he' (by simp) .answered, nofun⟩
    · refine ⟨.begun, h.of_segment [] x he' (by simp) (.plain ?_ .answered), nofun⟩
      rintro r t style rfl
      exact htransfer ⟨r, t, style, rfl⟩
  | operated r operation router settings hr he' a =>
    by_cases htransfer : ∃ t style, operation = .transfer t style
    · obtain ⟨t, style, rfl⟩ := htransfer
      rw [program_transfer] at he'
      exact ⟨.begun, h.of_segment [] x he' (by simp) .asking, nofun⟩
    · have hother (t : Transfer) (style : Style) : operation ≠ .transfer t style := by
        rintro rfl
        exact htransfer ⟨t, style, rfl⟩
      refine ⟨.begun, h.of_segment [] x he' (by simp) (.plain ?_ (.performing
        ((Operation.simple_program settings router hother).mono
          fun _ simple => simple.tame.1))), nofun⟩
      intro r' t style hcall
      cases hcall
      exact hother t style rfl
  | attached parent route linked t he' joined ht =>
    exact ⟨.begun, h.of_segment [] x he' (by simp) (.plain nofun (plain_of_joined ht)),
      nofun⟩
  | detached r expired mid rs tasks result he' hquiet hfits forced cut hempty =>
    have split := he'.trans (List.append_assoc _ [.answer result] e.stack).symm
    exact ⟨.begun, h.of_segment _ x split (Task.isChore_detached hquiet expired)
      (.plain nofun .answered), nofun⟩

/-- The answer that is taken is the one of the innermost call. -/
theorem Stacked.of_collected {result : Outcome Answer} (h : e.Stacked standing e.stack)
    (x : e.Extends e') (he : e.stack = .answer result :: below) (he' : e'.stack = below) :
    ∃ call progress outer, standing = (call, progress) :: outer ∧ e'.Stacked outer e'.stack ∧
      ∀ r t style, call = .operate r (.transfer t style) →
        ∃ reply, progress = .ended reply ∧ result = conclusion t style reply := by
  rw [he] at h
  obtain ⟨call, progress, outer, segment, rest, rfl, rfl, hstands, hrest⟩ := h.head rfl
  refine ⟨call, progress, outer, rfl, ?_⟩
  cases hstands with
  | answered =>
    refine ⟨he' ▸ hrest.mono x, fun r t style hcall => ?_⟩
    cases hcall
    exact ⟨_, rfl, rfl⟩
  | plain hcall hp =>
    cases hp with
    | answered => exact ⟨he' ▸ hrest.mono x, fun r t style heq => absurd heq (hcall r t style)⟩
    | waiting hw => cases hw
  | waiting hw => cases hw

/-- With no call in progress, only loose chores are left. -/
theorem Stacked.loose (h : e.Stacked [] stack) : ∀ t ∈ stack, t.isLoose = true := by
  cases h with
  | bottom hloose => exact hloose

end Engine

/-- The call that a run begins with. -/
theorem stacked_opening (settings : Settings) :
    (opening settings).Stacked [(.attachRoot settings, .begun)] (opening settings).stack := by
  have bottom : (opening settings).Stacked [] [] := .bottom (by simp)
  have x := Engine.Extends.refl (opening settings)
  rcases stack_opening settings with hs | ⟨failure, hs⟩
  · exact bottom.of_segment [] x hs (by simp) (.plain nofun .registering)
  · exact bottom.of_segment [] x hs (by simp) (.plain nofun .answered)

/-- What holds of the calls in progress throughout a run: at its beginning, and after a turn that
does not concern who is in progress, one that begins a call and one that takes an answer. -/
theorem Run.standing {settings : Settings} {turns : List Turn} {e : Engine}
    {P : List Turn → Engine → List (Call × Progress) → Prop}
    (start : P [] (opening settings) [(.attachRoot settings, .begun)])
    (inner : ∀ turns e m e' standing standing', Run settings turns e →
      standing.map (·.1) = openCalls settings turns → P turns e standing →
      (m = .collect → ∀ result below, e.stack ≠ .answer result :: below) →
      (∀ call, m ≠ .call call) → e.move? m = some e' → e.Inner m e' →
      e.Proceeds e' standing standing' → P (⟨e, m, e'⟩ :: turns) e' standing')
    (called : ∀ turns e call e' standing progress, Run settings turns e →
      standing.map (·.1) = openCalls settings turns → P turns e standing → e.Called call e' →
      (∀ ws, progress ≠ .ended (.ok ws)) →
      P (⟨e, .call call, e'⟩ :: turns) e' ((call, progress) :: standing))
    (collected : ∀ turns e result below e' call progress standing, Run settings turns e →
      ((call, progress) :: standing).map (·.1) = openCalls settings turns →
      P turns e ((call, progress) :: standing) → e.stack = .answer result :: below →
      e'.stack = below → e.Alike e' → (∀ r t style, call = .operate r (.transfer t style) →
        ∃ reply, progress = .ended reply ∧ result = conclusion t style reply) →
      P (⟨e, .collect, e'⟩ :: turns) e' standing)
    (h : Run settings turns e) :
    ∃ standing, e.Stacked standing e.stack ∧ standing.map (·.1) = openCalls settings turns ∧
      P turns e standing := by
  induction h with
  | start => exact ⟨_, stacked_opening settings, rfl, start⟩
  | @next turns e e' m prior ha hm ih =>
    obtain ⟨standing, hstacked, hcalls, hp⟩ := ih
    cases prior.moved ha hm with
    | inner hcall hcollect k =>
      obtain ⟨standing', hstacked', proceeds⟩ := hstacked.of_inner prior.sound k
      refine ⟨standing', hstacked', ?_, ?_⟩
      · rw [openCalls_of_inner hcall hcollect, ← hcalls, proceeds.calls]
      · exact inner turns e m e' standing standing' prior hcalls hp hcollect hcall hm k proceeds
    | called k =>
      obtain ⟨progress, hstacked', hprogress⟩ := hstacked.of_called prior.sound k
      refine ⟨_, hstacked', ?_, called turns e _ e' standing progress prior hcalls hp k hprogress⟩
      rw [List.map_cons, hcalls]
      rfl
    | collected result below he he' a =>
      obtain ⟨call, progress, outer, rfl, hstacked', hresult⟩ :=
        hstacked.of_collected a.extends he he'
      refine ⟨outer, hstacked', ?_, ?_⟩
      · rw [openCalls_of_collected he, ← hcalls]
        rfl
      · exact collected turns e result below e' call progress outer prior hcalls hp he he' a hresult

/-- In every state of a run the stack is made of the calls in progress. -/
theorem Run.stacked {settings : Settings} {turns : List Turn} {e : Engine}
    (h : Run settings turns e) :
    ∃ standing, e.Stacked standing e.stack ∧ standing.map (·.1) = openCalls settings turns := by
  obtain ⟨standing, hstacked, hcalls, -⟩ := h.standing (P := fun _ _ _ => True) trivial
    (fun _ _ _ _ _ _ _ _ _ _ _ _ _ _ => trivial) (fun _ _ _ _ _ _ _ _ _ _ _ => trivial)
    (fun _ _ _ _ _ _ _ _ _ _ _ _ _ _ _ => trivial)
  exact ⟨standing, hstacked, hcalls⟩

end RouterFabric
