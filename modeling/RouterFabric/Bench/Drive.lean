import RouterFabric.Bench.State

/-!
# Driving an engine

Whenever the engine of a bench needs something, the bench provides it: frames from the pool, the
planned answers of the transport, the passage of time. What happens at the transport meanwhile is
laid down in cues.

* `Bench.drive` : provides what the engine needs
* `Bench.submit` : deals with a submission as planned
* `Bench.play` : carries out one cue
-/

namespace RouterFabric.Bench

/-! ## Driving the engine -/

/-- Makes a move of the engine, if it is possible. -/
def move (b : Bench) (m : Move) : Bench :=
  match b.engine.move? m with
  | some engine => { b with engine := engine }
  | none => b

/-- Lets something arrive at the handlers, if they belong to a topology in use. -/
def deliver (b : Bench) (delivery : Delivery) : Bench :=
  match b.handlers, delivery.arrival? with
  | some index, some arrival =>
    if b.topologiesInUse.contains index then
      (b.enter index [.delivery]).move (.receive arrival)
    else
      b
  | _, _ => b

/-- Lets something arrive, or keeps it back. -/
def deliverOrKeep (b : Bench) (kept : Bool) (delivery : Delivery) : Bench :=
  if kept then { b with kept := b.kept ++ [delivery] } else b.deliver delivery

/-- The transport's answer to the request for a frame. -/
def frameAnswer (b : Bench) : Except TransportFault Unit :=
  match b.frameFault with
  | some fault => .error fault
  | none => if b.pool ≤ b.framesInUse then .error .busy else .ok ()

/-- What the far end does of itself during the submission of a frame. -/
def ownCues (b : Bench) (frame : Frame) : List Cue :=
  match b.far.reaches? frame with
  | some true => [.sent false .own, .answer false {}]
  | some false => [.sent false .own]
  | none => []

/-- Deals with a submission as planned. -/
def submit (b : Bench) (frame : Frame) : Bench :=
  let (cues, answer, actions) :=
    match b.actions with
    | .mk cues answer :: rest => (cues.getD [], answer, rest)
    | [] => (b.ownCues frame, .ok (), [])
  let far :=
    match answer with
    | .ok () => b.far.accept frame
    | .error _ => b.far
  ({ b with actions := actions, far := far }.note (.submitted frame answer)).push
    [.cues (some frame) cues, .submission answer]

/-- Runs a callback. -/
def callBack (b : Bench) (tag : Nat) (reply : Reply) : Bench :=
  match b.callbacks.find? (·.1 == tag) with
  | some (_, kind, following) =>
    (b.note (.calledBack tag kind reply)).push [.instructions .callback following, .callback]
  | none => b.push [.callback]

/-- Takes up the cues that are due first among those that were put off, if there are any. -/
def takeUp? (b : Bench) : Option Bench :=
  match b.later with
  | [] => none
  | (frame, cues) :: rest =>
    some (({ b with later := rest }.move (.elapse 5)).push [.cues frame cues])

/-- Lets a caller wait: the cues that were put off come first, and if they were not enough the
whole time passes. -/
def wait (b : Bench) (deadline : Nat) : Bench :=
  b.takeUp?.getD ((b.move (.elapse (deadline - b.engine.now))).move .giveUp)

/-- The value in the answer of a call. -/
def valueOf (b : Bench) : Answer → Value
  | .nothing => .nothing
  | .words words => .words words
  | .offset offset => .offset offset
  | .router r =>
    match b.engine.router? r with
    | some router => .router router
    | none => .nothing

/-- Does with the answer of a call what the caller wants done with it. -/
def finishCall (b : Bench) (performer : Performer) (ending : Ending) (result : Outcome Answer) :
    Bench :=
  match result with
  | .error failure => b.conclude performer (.failed failure)
  | .ok answer =>
    match ending, answer with
    | .named name, .router r =>
      (b.bindAny name r).conclude performer (.succeeded (b.valueOf answer))
    | .attached index name, .router r =>
      let attached := { b with current := some index }.bind name r
      match b.engine.router? r with
      | some router =>
        attached.conclude performer (.succeeded (.attached b.engine.topology.settings router))
      | none => attached
    | _, _ => b.conclude performer (.succeeded (b.valueOf answer))

/-- Provides what the engine needs for the activity on top. -/
def drive (b : Bench) (activity : Activity) : Bench :=
  match b.engine.pause with
  | .working => b.move .proceed
  | .settled => b.move .proceed
  | .frame => b.move (.grant b.frameAnswer)
  | .registration =>
    match b.handlerFault with
    | some fault => b.move (.grant (.error fault))
    | none => { b with handlers := b.loaded }.move (.grant (.ok ()))
  | .submission frame => b.submit frame
  | .callback tag reply => b.callBack tag reply
  | .waiting deadline => b.wait deadline
  | .asleep ms => (b.move (.elapse ms)).move .back
  | .answered result =>
    let done := { b with activities := b.activities.tail }.move .collect
    match activity with
    | .call performer ending _ => done.finishCall performer ending result
    | _ => done
  | .handled => { b with activities := b.activities.tail }.move .collect
  | .idle => { b with activities := b.activities.tail }
  | .stuck => { b with activities := b.activities.tail }

/-! ## Cues -/

/-- The context that is reported for a frame. -/
def contextOf (frame : Frame) : SentContext → Option FrameContext
  | .own => some frame.context
  | .missing => none
  | .acknowledgment => some .acknowledgment
  | .generation generation =>
    match frame.context with
    | .command node command _ => some (.command node command generation)
    | .acknowledgment => some .acknowledgment

/-- Carries out one cue, about the given frame if it is about one. -/
def play (b : Bench) (frame : Option Frame) : Cue → Bench
  | .sent kept context =>
    match frame with
    | some frame => b.deliverOrKeep kept (.sent frame.packetType (contextOf frame context))
    | none => b
  | .answer kept alteration =>
    match frame.bind (b.far.answer? · alteration) with
    | some (packetType, bytes) => b.deliverOrKeep kept (.received packetType packetType bytes)
    | none => b
  | .releaseAll => { b with kept := [] }.push [.deliveries b.kept]
  | .release index =>
    match b.kept[index]? with
    | some delivery => { b with kept := b.kept.eraseIdx index }.deliver delivery
    | none => b
  | .replay index =>
    match b.kept[index]? with
    | some delivery => b.deliver delivery
    | none => b
  | .received channel label bytes => b.deliver (.received channel label bytes)
  | .sleep ms => b.move (.elapse ms)
  | .perform instructions => b.push [.instructions .other instructions]
  | .later cues => { b with later := b.later ++ [(frame, cues)] }

end RouterFabric.Bench
