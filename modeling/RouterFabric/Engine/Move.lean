import RouterFabric.Engine.Arrival
import RouterFabric.Engine.Call

/-!
# Moves

An engine is driven from outside, by moves. At any time it either can go on by itself or stands at
a point where it needs something, and which moves are possible depends on that. Wherever the engine
is not at work by itself, new calls and arrivals may come in between; they may also overtake a
caller whose command has ended but that has not been woken yet.

* `Pause`, `Engine.pause` : what an engine needs
* `Move`, `Engine.move?` : what can happen to an engine, and what comes of it
-/

namespace RouterFabric

/-- What an engine needs in order to go on. -/
inductive Pause
  /-- nothing, it can go on by itself -/
  | working
  /-- nothing is under way -/
  | idle
  /-- a frame from the transport -/
  | frame
  /-- the transport's consent to take the handlers of the topology -/
  | registration
  /-- the transport's answer for a frame -/
  | submission (frame : Frame)
  /-- the return of a callback -/
  | callback (tag : Nat) (reply : Reply)
  /-- an arrival, or that the deadline passes -/
  | waiting (deadline : Nat)
  /-- that the caller whose command has ended is woken -/
  | settled
  /-- time -/
  | asleep (ms : Nat)
  /-- that the answer of a call is collected -/
  | answered (result : Outcome Answer)
  /-- that it is noted that an arrival has been dealt with -/
  | handled
  /-- what it waits for can come from no one -/
  | stuck

/-- What can happen to an engine. -/
inductive Move
  /-- the engine goes on by itself -/
  | proceed
  /-- the transport answers -/
  | grant (answer : Except TransportFault Unit)
  /-- a callback returns, or a sleep is over -/
  | back
  /-- a waiting caller finds that its deadline has passed -/
  | giveUp
  /-- an answer, or the end of an arrival, is taken note of -/
  | collect
  | call (call : Call)
  | receive (arrival : Arrival)
  /-- time passes -/
  | elapse (ms : Nat)

namespace Engine

/-- What the engine needs in order to go on. -/
def pause (e : Engine) : Pause :=
  match e.stack with
  | [] => .idle
  | .answer result :: _ => .answered result
  | .sleep ms :: _ => .asleep ms
  | .allocate _ _ _ :: _ => .frame
  | .acknowledge _ :: _ => .frame
  | .register :: _ => .registration
  | .offer _ c :: _ =>
    match e.command? c with
    | some command => .submission command.frame
    | none => .stuck
  | .offerAcknowledgment event :: _ =>
    .submission ⟨.notify, (Notification.acknowledging event).encode, 0, .acknowledgment⟩
  | .notify tag reply :: _ => .callback tag reply
  | .await w deadline :: below =>
    if ({ e with stack := below }.settle? w).isSome then .settled else .waiting deadline
  | .claimed w :: below =>
    if ({ e with stack := below }.settle? w).isSome then .settled else .stuck
  | .handled :: _ => .handled
  | .resume _ _ :: _ => .stuck
  | _ => .working

/-- A command that has been given its frame: a waiting caller makes its first attempt, and any
other transfer makes its only one. -/
def begin (e : Engine) (r : RouterRef) (command : Command) (style : Style) : Engine :=
  match style with
  | .waiting watching =>
    let (c, commands) := e.commands.add command
    { e with commands := commands }.push
      [.attempt ⟨r, c, .retrying watching e.topology.settings.attempts⟩]
  | .callback tag =>
    let (c, commands) := e.commands.add { command with listener := .callback tag }
    { e with commands := commands }.launch r c [.reply (.ok [])]
  | .future =>
    let (c, commands) := e.commands.add { command with listener := .future none }
    { e with commands := commands }.launch r c [.watch ⟨r, c, .future⟩]

/-- What comes of an answer of the transport. -/
def granted? (e : Engine) (answer : Except TransportFault Unit) : Option Engine :=
  match e.stack with
  | [] => none
  | task :: below =>
    let rest := { e with stack := below }
    match task with
    | .allocate r command style =>
      match answer with
      | .ok () => some (rest.begin r command style)
      | .error fault => some (rest.push [.reply (.error (Failure.ofAllocation fault))])
    | .offer r c => some (rest.answerOffer r c answer)
    | .register =>
      match answer with
      | .ok () => some rest.linkRoot
      | .error fault => some (rest.push [.answer (.error (.transport fault))])
    | .acknowledge event =>
      match answer with
      | .ok () => some (rest.takeFrame.push [.offerAcknowledgment event])
      | .error _ => some rest
    | .offerAcknowledgment _ => some rest.freeFrame
    | _ => none

/-- What comes of the return of a callback or the end of a sleep. -/
def returned? (e : Engine) : Option Engine :=
  match e.stack with
  | .notify _ _ :: below => some { e with stack := below }
  | .sleep _ :: below => some { e with stack := below }
  | _ => none

/-- What comes of it when a caller gives up, which it does not before its deadline. -/
def gaveUp? (e : Engine) : Option Engine :=
  match e.stack with
  | .await w deadline :: below =>
    if deadline ≤ e.now then some ({ e with stack := below }.withdraw w) else none
  | _ => none

/-- What is left when an answer, or the end of an arrival, has been taken note of. -/
def collected? (e : Engine) : Option Engine :=
  match e.stack with
  | .answer _ :: below => some { e with stack := below }
  | .handled :: below => some { e with stack := below }
  | _ => none

/-- Whether the engine is in the midst of something that nothing interrupts. -/
def isWorking (e : Engine) : Bool :=
  match e.pause with
  | .working => true
  | _ => false

/-- Whether the engine can go on without anything from outside. -/
def canProceed (e : Engine) : Bool :=
  match e.pause with
  | .working => true
  | .settled => true
  | _ => false

/-- What comes of a move, if it is possible. -/
def move? (e : Engine) : Move → Option Engine
  | .proceed => if e.canProceed then some e.step else none
  | .grant answer => e.granted? answer
  | .back => e.returned?
  | .giveUp => if e.canProceed then none else e.gaveUp?
  | .collect => e.collected?
  | .call c => if e.isWorking then none else some (e.call c)
  | .receive arrival => if e.isWorking then none else some (e.receive arrival)
  | .elapse ms => some { e with now := e.now + ms }

end Engine

end RouterFabric
