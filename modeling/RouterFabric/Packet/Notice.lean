import RouterFabric.BitField
import RouterFabric.Packet.Transfer

/-!
# Notifications and hot-plug events

A notification reports an event of a router and adapter in one event word; a hot-plug event reports
that an adapter was plugged or unplugged, and is answered with a notification that says the same.

* `Notification` : an event, travelling in either direction
* `HotplugEvent` : a change at an adapter
* `Notification.acknowledging` : the answer to a hot-plug event
-/

namespace RouterFabric

/-! ## The event word -/

namespace EventWord

def codeField : BitField := ⟨0, 8⟩
def adapterField : BitField := ⟨8, 6⟩
def plugField : BitField := ⟨30, 2⟩

/-- The plug bits that say an adapter was plugged. -/
def plugged : UInt32 := 0x80000000

/-- The plug bits that say an adapter was unplugged. -/
def unplugged : UInt32 := 0xc0000000

/-- The packed event: its code, its adapter and the two plug bits at the top. -/
def pack (code : UInt8) (adapter : Nat) (plug : UInt32) : UInt32 :=
  UInt32.ofNat (codeField.put code.toNat + adapterField.put adapter + plugField.keep plug.toNat)

/-- The event code in a word. -/
def code (word : UInt32) : UInt8 :=
  UInt8.ofNat (codeField.get word.toNat)

/-- The adapter in a word. -/
def adapter (word : UInt32) : Nat :=
  adapterField.get word.toNat

/-- The plug bits of a word, left where they stand. -/
def plug (word : UInt32) : UInt32 :=
  UInt32.ofNat (plugField.keep word.toNat)

end EventWord

/-! ## Notifications -/

/-- An event of one adapter of a router. -/
structure Notification where
  route : Route
  code : UInt8
  adapter : Nat
  /-- the plug bits, where they stand in the event word -/
  plug : UInt32
  deriving DecidableEq, Repr

namespace Notification

def encode (packet : Notification) : List UInt8 :=
  Packet.toWire [packet.route.hi, packet.route.lo,
    EventWord.pack packet.code packet.adapter packet.plug]

def decode (bytes : List UInt8) : Outcome Notification := do
  let (route, word, _) ← Packet.header .notification (← Packet.ofWire bytes)
  return ⟨route, EventWord.code word, EventWord.adapter word, EventWord.plug word⟩

/-- The event, if the code is a recognized one. -/
def event? (packet : Notification) : Option Event :=
  Event.ofCode? packet.code

/-- Whether the plug bits say that the adapter was unplugged. -/
def isUnplug (packet : Notification) : Bool :=
  EventWord.plug packet.plug == EventWord.unplugged

end Notification

/-! ## Hot-plug events -/

/-- A change at one adapter of a router. -/
structure HotplugEvent where
  route : Route
  adapter : Nat
  unplug : Bool
  deriving DecidableEq, Repr

namespace HotplugEvent

def adapterField : BitField := ⟨0, 6⟩
def unplugField : BitField := ⟨31, 1⟩

def encode (packet : HotplugEvent) : List UInt8 :=
  Packet.toWire [packet.route.markedHi, packet.route.lo,
    UInt32.ofNat (adapterField.put packet.adapter + unplugField.put packet.unplug.toNat)]

def decode (bytes : List UInt8) : Outcome HotplugEvent := do
  let (route, word, _) ← Packet.header .hotplugEvent (← Packet.ofWire bytes)
  return ⟨route, adapterField.get word.toNat, unplugField.get word.toNat == 1⟩

end HotplugEvent

/-- The notification that tells a router its hot-plug event has arrived. -/
def Notification.acknowledging (event : HotplugEvent) : Notification where
  route := event.route
  code := Event.hotplugAck.code
  adapter := event.adapter
  plug := if event.unplug then EventWord.unplugged else EventWord.plugged

end RouterFabric
