import RouterFabric.Engine.Step

/-!
# Arrivals

The transport reports two things: that a frame was sent, with the context the frame was given, and
that a packet was received. A packet carries no context, so the command it belongs to is whatever
holds the slot of the router its route leads to, if type and sequence number agree.

* `Engine.onSent` : a request was sent
* `Engine.onResponse` : an answer was received
* `Engine.onNotification` : an event interrupts the command that holds the slot
* `Engine.onHotplug` : a hot-plug event is acknowledged and passed on
-/

namespace RouterFabric

/-- What the transport reports. -/
inductive Arrival
  /-- a frame with this context was sent -/
  | sent (context : Option FrameContext)
  /-- a packet of type `label` was received by the handler for packets of type `channel` -/
  | received (channel label : PacketType) (bytes : List UInt8)
  deriving DecidableEq, Repr

namespace Engine

/-- Counts a signal for which there is no attempt. -/
def discard (e : Engine) (r : RouterRef) : Engine :=
  e.count r fun stats => { stats with staleDiscards := stats.staleDiscards + 1 }

/-- Records a signal for an attempt, and ends the attempt if that made it complete. -/
def signal (e : Engine) (r : RouterRef) (c : CommandRef) (generation : Nat) (signal : Signal)
    (words : Option (List UInt32)) : Engine :=
  let (completed, commands) := e.commands.change c false (·.mark generation signal words)
  let marked := { e with commands := commands }
  if completed then
    let (data, commands) := marked.commands.change c [] Command.takeResponse
    { marked with commands := commands }.complete r c generation (.completed data)
  else
    marked

/-- The command that holds the slot of a router. -/
def slotOf? (e : Engine) (r : RouterRef) : Option (CommandRef × Command) := do
  let router ← e.router? r
  let c ← router.queue.slot
  let command ← e.command? c
  some (c, command)

/-- The request of an attempt was sent. -/
def onSent (e : Engine) (context : Option FrameContext) : Engine :=
  match context with
  | some (.command node id generation) =>
    match e.topology.tree.get? node with
    | none => e
    | some r =>
      match e.slotOf? r with
      | none => e.discard r
      | some (c, command) =>
        if command.id = id ∧ command.generation = generation then
          e.signal r c generation .sent none
        else
          e.discard r
  | _ => e

/-- The route, address and data of an answer. -/
def response? (label : PacketType) (bytes : List UInt8) : Option (Route × Address × List UInt32) :=
  match label with
  | .read =>
    match ReadResponse.decode bytes with
    | .ok packet => some (packet.route, packet.address, packet.data)
    | .error _ => none
  | .write =>
    match WriteResponse.decode bytes with
    | .ok packet => some (packet.route, packet.address, [])
    | .error _ => none
  | _ => none

/-- An answer was received. One that cannot be read or that leads to no router is ignored. -/
def onResponse (e : Engine) (label : PacketType) (bytes : List UInt8) : Engine :=
  match response? label bytes with
  | none => e
  | some (route, address, data) =>
    match e.topology.lookup route with
    | .error _ => e
    | .ok r =>
      match e.slotOf? r with
      | none => e.discard r
      | some (c, command) =>
        if command.kind.packetType = label ∧ command.seq = address.seq then
          let words :=
            match command.kind with
            | .read => some (data.take command.address.dwords)
            | .write => none
          e.signal r c command.generation .answered words
        else
          e.discard r

/-- A notification was received. A recognized event ends the attempt that holds the slot. -/
def onNotification (e : Engine) (bytes : List UInt8) : Engine :=
  match Notification.decode bytes with
  | .error _ => e
  | .ok packet =>
    match packet.event? with
    | none => e
    | some event =>
      match e.topology.lookup packet.route with
      | .error _ => e
      | .ok r =>
        match e.slotOf? r with
        | none => e
        | some (c, command) =>
          let (claimed, commands) := e.commands.change c false (·.markAll command.generation)
          let marked := { e with commands := commands }
          if claimed then
            marked.complete r c command.generation (.interrupted event)
          else
            marked

/-- A hot-plug event was received. -/
def onHotplug (e : Engine) (bytes : List UInt8) : Engine :=
  match HotplugEvent.decode bytes with
  | .error _ => e
  | .ok event => e.push [.acknowledge event, .announce event]

/-- Begins to deal with an arrival. -/
def receive (e : Engine) (arrival : Arrival) : Engine :=
  let e := e.push [.handled]
  match arrival with
  | .sent context => e.onSent context
  | .received .notify _ bytes => e.onNotification bytes
  | .received .hotplug _ bytes => e.onHotplug bytes
  | .received _ label bytes => e.onResponse label bytes

end Engine

end RouterFabric
