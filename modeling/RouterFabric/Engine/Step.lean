import RouterFabric.Engine.State

/-!
# The steps of an engine

One step does the work of the task on top of the stack, as far as the next point at which something
from outside is needed or may intervene. What happens between two such points is one section that
nothing interrupts.

* `Engine.launch` : begins an attempt and queues it
* `Engine.complete`, `Engine.finish` : the end of an attempt
* `Engine.withdraw` : what a caller does whose patience is at an end
* `Engine.step` : one step
-/

namespace RouterFabric.Engine

/-! ## Attempts -/

/-- Begins the next attempt of a command under the next sequence number of its router, queues it,
and has the queue drained before `next`. A detached router takes no more attempts. -/
def launch (e : Engine) (r : RouterRef) (c : CommandRef) (next : List Task) : Engine :=
  match e.router? r with
  | none => e
  | some router =>
    let begun := { e.updateRouter r fun router => { router with begun := router.begun + 1 } with
      commands := e.commands.update c (·.beginAttempt router.begun) }
    if router.detached then
      begun.push [.reply (.error .notFound)]
    else
      (begun.setLine r (router.queue.enqueue begun.commands c)).push (.drain r :: next)

/-- Ends the current attempt of a command. Its callback, if it has one, runs next. -/
def finish (e : Engine) (c : CommandRef) (ending : Ending) : Engine :=
  match e.command? c with
  | none => e
  | some command =>
    let ended := { e with commands := e.commands.update c (·.finish ending) }
    match command.callback? with
    | some tag => ended.push [.notify tag ending.reply]
    | none => ended

/-- Ends an attempt that a signal has completed, if it still holds the slot of its router. The slot
then goes to the next command, and all routers that wait for the transport are tried again. -/
def complete (e : Engine) (r : RouterRef) (c : CommandRef) (generation : Nat) (ending : Ending) :
    Engine :=
  match e.router? r with
  | none => e
  | some router =>
    match router.queue.complete e.commands c generation with
    | (false, _) => e.count r fun stats => { stats with staleDiscards := stats.staleDiscards + 1 }
    | (true, queue) =>
      let freed := (e.setQueue r queue).count r fun stats =>
        { stats with completed := stats.completed + 1 }
      (freed.push [.drain r, .kick, .hold [r] [c]]).finish c ending

/-! ## Waiting -/

/-- Whether a caller that watches a command sees that its attempt has ended. -/
def notices (watching : Watching) (command : Command) : Bool :=
  match watching with
  | .woken => command.phase == .done
  | .polling => command.pollComplete

/-- The reply for a waiter whose attempt has ended, or the next attempt if it expired; nothing as
long as it has not ended. -/
def settle? (e : Engine) (w : Waiter) : Option Engine :=
  match e.command? w.command with
  | none => none
  | some command =>
    match w.patience with
    | .future =>
      match command.listener with
      | .future (some reply) => some (e.push [.reply reply])
      | _ => none
    | .retrying watching _ =>
      if notices watching command then
        let (ending, taken) := command.takeEnding
        let e := { e with commands := e.commands.set w.command.index taken }
        match ending with
        | none => some (e.push [.attempt w])
        | some .expired => some (e.push [.attempt w])
        | some ending => some (e.push [.reply ending.reply])
      else
        none

/-- Begins the next attempt of a waiting caller, or gives up when none is left. -/
def retry (e : Engine) (w : Waiter) : Engine :=
  match w.patience with
  | .retrying _ 0 => e.push [.reply (.error .timeout)]
  | .retrying watching (left + 1) =>
    e.launch w.router w.command [.watch { w with patience := .retrying watching left }]
  | .future => e.launch w.router w.command [.watch w]

/-- What follows for a caller whose attempt timed out. -/
def afterTimeout (w : Waiter) : List Task :=
  match w.patience with
  | .retrying _ _ => [.attempt w]
  | .future => [.hold [w.router] [w.command], .reply (.error .timeout)]

/-- Withdraws the attempt of a caller whose patience is at an end. If the attempt waited behind
one that has held the slot for the whole timeout, that one is expired. An attempt that has been
claimed in the meantime cannot be withdrawn; its end is awaited instead. -/
def withdraw (e : Engine) (w : Waiter) : Engine :=
  match e.router? w.router with
  | none => e
  | some router =>
    match router.queue.abandon w.command with
    | (false, _) => e.push [.claimed w]
    | (true, queue) =>
      let (expired, line) := queue.expire e.commands e.topology.settings.timeoutMs e.now
      let freed := (e.setLine w.router line).count w.router fun stats =>
        { stats with timeouts := stats.timeouts + 1 }
      freed.push (expired.toList.map (.expire w.router) ++
        [.drain w.router, .kick] ++ afterTimeout w)

/-! ## Draining -/

/-- Moves the next command of a router into its slot and offers it to the transport. A pass over
the queue is over if there is none or the slot is taken; the result tells which it is. -/
def drainNext (e : Engine) (r : RouterRef) : Option Drained × Engine :=
  match e.router? r with
  | none => (some .empty, e)
  | some router =>
    match router.queue.beginDrain e.commands e.now with
    | some (c, line) => (none, (e.setLine r line).push [.offer r c])
    | none => (some (if router.queue.slot.isSome then .occupied else .empty), e)

/-- The transport's answer for a command. An accepted command keeps the slot; a busy transport ends
the pass, with the command back in line; any other refusal ends the attempt. -/
def takeAnswer (e : Engine) (r : RouterRef) (c : CommandRef) (answer : Except TransportFault Unit) :
    Option Drained × Engine :=
  match e.router? r with
  | none => (some .empty, e)
  | some router =>
    match answer with
    | .ok () =>
      (none, ((e.setQueue r (router.queue.submitted c)).count r fun stats =>
        { stats with submitted := stats.submitted + 1 }).push [.drain r])
    | .error .busy =>
      let (_, line) := router.queue.defer e.commands c
      (some .deferred, (e.setLine r line).count r fun stats =>
        { stats with busyDeferrals := stats.busyDeferrals + 1 })
    | .error fault =>
      match router.queue.reject c with
      | (false, _) => (none, e.push [.drain r])
      | (true, queue) =>
        let freed := e.setQueue r queue
        let (claimed, commands) := freed.commands.change c false fun command =>
          command.markAll command.generation
        let marked := { freed with commands := commands }
        if claimed then
          (none, (marked.push [.hold [r] [c], .drain r]).finish c (.refused fault))
        else
          (none, marked.push [.drain r])

/-- Has a router wait for the transport if that is why a pass over its queue is over. -/
def noteDrained (e : Engine) (r : RouterRef) (result : Option Drained) : Engine :=
  match result, e.router? r with
  | some .deferred, some router => { e with topology := e.topology.defer router.id }
  | _, _ => e

/-- Goes on with a pass over the queue of a router. -/
def drain (e : Engine) (r : RouterRef) : Engine :=
  let (result, drained) := e.drainNext r
  drained.noteDrained r result

/-- Goes on with a pass over the queue of a router after the transport's answer for a command. -/
def answerOffer (e : Engine) (r : RouterRef) (c : CommandRef) (answer : Except TransportFault Unit) :
    Engine :=
  let (result, answered) := e.takeAnswer r c answer
  answered.noteDrained r result

/-- Takes the list of routers that wait for the transport, to try them one after the other. -/
def kick (e : Engine) : Engine :=
  { e with topology := { e.topology with deferred := [] } }.push [.drainEach e.topology.deferred]

/-- Tries the first of the given routers, if it is attached. -/
def drainFirst (e : Engine) : List NodeId → Engine
  | [] => e
  | id :: rest =>
    e.push (((e.topology.tree.get? id).toList.map .drain) ++ [.drainEach rest])

/-! ## Requests of programs -/

/-- Issues a transfer for a router: refused at once if its address is no valid one or if the router
takes no commands, and otherwise waiting for a frame. -/
def issue (e : Engine) (r : RouterRef) (t : Transfer) (style : Style) : Engine :=
  let refuse (e : Engine) (failure : Failure) : Engine := e.push [.reply (.error failure)]
  match t.address with
  | .error failure => refuse e failure
  | .ok address =>
    match e.router? r with
    | none => refuse e .notFound
    | some router =>
      if router.detached then
        refuse e .notFound
      else if router.suspended then
        refuse e .suspended
      else
        let numbered := { e with
          topology := { e.topology with nextCommand := e.topology.nextCommand + 1 } }
        match Command.checkPayload t.kind address t.payload with
        | .error failure => refuse numbered failure
        | .ok () =>
          numbered.push [.allocate r {
            id := ⟨e.topology.nextCommand⟩
            node := router.id
            route := router.route
            kind := t.kind
            address := address
            payload := t.payload } style]

/-- Gives a router its adapter table and its identity. -/
def enrol (e : Engine) (r : RouterRef) (identity : Identity) : Engine :=
  match e.router? r with
  | none => e.push [.reply (.error .notFound)]
  | some router =>
    match e.topology.tree.setAdapterCount router.id identity.maxAdapter with
    | .error failure => e.push [.reply (.error failure)]
    | .ok tree =>
      let known := e.updateRouter r fun router =>
        { router with identity := router.identity.orElse fun _ => some identity }
      { known with topology := { known.topology with tree := tree } }.push [.reply (.ok [])]

/-- Takes a router out of the tree, as far as it is there and nothing is below it. -/
def unlink (e : Engine) (r : RouterRef) : Engine :=
  match e.router? r with
  | none => e.push [.reply (.ok [])]
  | some router =>
    let marked := e.updateRouter r fun router => { router with detached := true }
    let tree :=
      match marked.topology.tree.remove router.id with
      | .ok (_, tree) => tree
      | .error _ => marked.topology.tree
    { marked with topology := { marked.topology with tree := tree } }.push [.reply (.ok [])]

/-- Meets a request of a program, as far as that needs nothing from outside. -/
def meet (e : Engine) (r : RouterRef) : Request → Engine
  | .transfer t style => e.issue r t style
  | .pause ms => e.push [.sleep ms, .reply (.ok [])]
  | .fallAsleep =>
    (e.updateRouter r fun router => { router with suspended := true }).push [.reply (.ok [])]
  | .enrol identity => e.enrol r identity
  | .unlink => e.unlink r

/-- Hands a reply to the program that waits for it. -/
def passOn (e : Engine) (reply : Reply) : Engine :=
  match e.stack with
  | .resume r next :: below => { e with stack := .perform r (next reply) :: below }
  | _ => e

/-! ## Steps -/

/-- One step of the task on top of the stack; nothing changes where that task needs something from
outside. -/
def step (e : Engine) : Engine :=
  match e.stack with
  | [] => e
  | task :: below =>
    let rest := { e with stack := below }
    match task with
    | .perform _ (.done result) => rest.push [.answer result]
    | .perform r (.ask request next) => (rest.push [.resume r next]).meet r request
    | .reply reply => rest.passOn reply
    | .attempt w => rest.retry w
    | .watch w => rest.push [.await w (e.now + e.topology.settings.timeoutMs)]
    | .await w _ => (rest.settle? w).getD e
    | .claimed w => (rest.settle? w).getD e
    | .drain r => rest.drain r
    | .kick => rest.kick
    | .drainEach ids => rest.drainFirst ids
    | .expire r c =>
      ((rest.count r fun stats => { stats with timeouts := stats.timeouts + 1 }).push
        [.hold [r] [c]]).finish c .expired
    | .hold _ _ => rest
    | .announce event => { rest with topology := rest.topology.announce event }
    | _ => e

end RouterFabric.Engine
