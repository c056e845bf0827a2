import RouterFabric.Engine.Move

/-!
# Which section every move runs

A move runs one section of the engine, for the task on top of the stack or, if it is a call or an
arrival, on top of all tasks. Here the sections are only named; what they do is said elsewhere, of
each of them, and carried over to all moves by cases.

* `Engine.Acts`, `acts_of_move?` : the section that a move runs
* `Engine.Heard`, `heard_receive` : what an arrival comes to
-/

namespace RouterFabric.Engine

variable {e e' : Engine} {m : Move}

/-! ## Moves -/

/-- Tasks of which nothing is left. -/
inductive Drops : Move → Task → Prop
  | released (rs : List RouterRef) (cs : List CommandRef) : Drops .proceed (.hold rs cs)
  | unacknowledged (event : HotplugEvent) (fault : TransportFault) :
      Drops (.grant (.error fault)) (.acknowledge event)
  | returned (tag : Nat) (reply : Reply) : Drops .back (.notify tag reply)
  | rested (ms : Nat) : Drops .back (.sleep ms)
  | handled : Drops .collect .handled

/-- The section that a move runs, with the task that it takes from the stack. -/
inductive Acts (e : Engine) : Move → Engine → Prop
  | dropped {m : Move} {t : Task} {below : List Task} : e.stack = t :: below → Drops m t →
      Acts e m { e with stack := below }
  | concluded {r : RouterRef} {result : Outcome Answer} {below : List Task} :
      e.stack = .perform r (.done result) :: below →
      Acts e .proceed (({ e with stack := below } : Engine).push [.answer result])
  | asked {r : RouterRef} {request : Request} {next : Reply → Program Request Answer}
      {below : List Task} : e.stack = .perform r (.ask request next) :: below →
      Acts e .proceed ((({ e with stack := below } : Engine).push [.resume r next]).meet r request)
  | replied {reply : Reply} {below : List Task} : e.stack = .reply reply :: below →
      Acts e .proceed (({ e with stack := below } : Engine).passOn reply)
  | retried {w : Waiter} {below : List Task} : e.stack = .attempt w :: below →
      Acts e .proceed (({ e with stack := below } : Engine).retry w)
  | watched {w : Waiter} {below : List Task} : e.stack = .watch w :: below →
      Acts e .proceed (({ e with stack := below } : Engine).push
        [.await w (e.now + e.topology.settings.timeoutMs)])
  | settled {w : Waiter} {t : Task} {below : List Task} {e' : Engine} : e.stack = t :: below →
      (t = .claimed w ∨ ∃ deadline, t = .await w deadline) →
      ({ e with stack := below } : Engine).settle? w = some e' → Acts e .proceed e'
  | drained {r : RouterRef} {below : List Task} : e.stack = .drain r :: below →
      Acts e .proceed (({ e with stack := below } : Engine).drain r)
  | kicked {below : List Task} : e.stack = .kick :: below →
      Acts e .proceed ({ e with stack := below } : Engine).kick
  | toured {ids : List NodeId} {below : List Task} : e.stack = .drainEach ids :: below →
      Acts e .proceed (({ e with stack := below } : Engine).drainFirst ids)
  | expired {r : RouterRef} {c : CommandRef} {below : List Task} : e.stack = .expire r c :: below →
      Acts e .proceed (((({ e with stack := below } : Engine).count r fun stats =>
        { stats with timeouts := stats.timeouts + 1 }).push [.hold [r] [c]]).finish c .expired)
  | announced {event : HotplugEvent} {below : List Task} : e.stack = .announce event :: below →
      Acts e .proceed { e with stack := below, topology := e.topology.announce event }
  | framed {r : RouterRef} {command : Command} {style : Style} {below : List Task} :
      e.stack = .allocate r command style :: below →
      Acts e (.grant (.ok ())) (({ e with stack := below } : Engine).begin r command style)
  | unframed {r : RouterRef} {command : Command} {style : Style} {fault : TransportFault}
      {below : List Task} : e.stack = .allocate r command style :: below →
      Acts e (.grant (.error fault)) (({ e with stack := below } : Engine).push
        [.reply (.error (Failure.ofAllocation fault))])
  | answered {r : RouterRef} {c : CommandRef} {answer : Except TransportFault Unit}
      {below : List Task} : e.stack = .offer r c :: below →
      Acts e (.grant answer) (({ e with stack := below } : Engine).answerOffer r c answer)
  | registered {below : List Task} : e.stack = .register :: below →
      Acts e (.grant (.ok ())) ({ e with stack := below } : Engine).linkRoot
  | unregistered {fault : TransportFault} {below : List Task} : e.stack = .register :: below →
      Acts e (.grant (.error fault)) (({ e with stack := below } : Engine).push
        [.answer (.error (.transport fault))])
  | acknowledging {event : HotplugEvent} {below : List Task} :
      e.stack = .acknowledge event :: below →
      Acts e (.grant (.ok ())) (({ e with stack := below } : Engine).takeFrame.push
        [.offerAcknowledgment event])
  | acknowledged {event : HotplugEvent} {answer : Except TransportFault Unit} {below : List Task} :
      e.stack = .offerAcknowledgment event :: below →
      Acts e (.grant answer) ({ e with stack := below } : Engine).freeFrame
  | gaveUp {w : Waiter} {deadline : Nat} {below : List Task} :
      e.stack = .await w deadline :: below →
      Acts e .giveUp (({ e with stack := below } : Engine).withdraw w)
  | collected {result : Outcome Answer} {below : List Task} : e.stack = .answer result :: below →
      Acts e .collect { e with stack := below }
  | called (call : Call) : Acts e (.call call) (e.call call)
  | received (arrival : Arrival) : Acts e (.receive arrival) (e.receive arrival)
  | elapsed (ms : Nat) : Acts e (.elapse ms) { e with now := e.now + ms }

theorem acts_step (hp : e.canProceed = true) : Acts e .proceed e.step := by
  cases hs : e.stack with
  | nil =>
    unfold canProceed pause at hp
    rw [hs] at hp
    cases hp
  | cons task below =>
    unfold step
    rw [hs]
    cases task with
    | perform r program =>
      cases program with
      | done result => exact .concluded hs
      | ask request next => exact .asked hs
    | reply reply => exact .replied hs
    | attempt w => exact .retried hs
    | watch w => exact .watched hs
    | await w deadline =>
      simp only
      cases hsettle : ({ e with stack := below } : Engine).settle? w with
      | none => simp [canProceed, pause, hs, hsettle] at hp
      | some e' => exact .settled hs (.inr ⟨deadline, rfl⟩) hsettle
    | claimed w =>
      simp only
      cases hsettle : ({ e with stack := below } : Engine).settle? w with
      | none => simp [canProceed, pause, hs, hsettle] at hp
      | some e' => exact .settled hs (.inl rfl) hsettle
    | drain r => exact .drained hs
    | kick => exact .kicked hs
    | drainEach ids => exact .toured hs
    | expire r c => exact .expired hs
    | hold rs cs => exact .dropped hs (.released rs cs)
    | announce event => exact .announced hs
    | offer r c =>
      unfold canProceed pause at hp
      rw [hs] at hp
      simp only at hp
      cases hc : e.command? c <;> simp [hc] at hp
    | _ => simp [canProceed, pause, hs] at hp

theorem acts_granted {answer : Except TransportFault Unit} (hg : e.granted? answer = some e') :
    Acts e (.grant answer) e' := by
  unfold granted? at hg
  cases hs : e.stack with
  | nil =>
    rw [hs] at hg
    cases hg
  | cons task below =>
    rw [hs] at hg
    cases task with
    | allocate r command style =>
      cases answer with
      | ok done =>
        cases hg
        exact .framed hs
      | error fault =>
        cases hg
        exact .unframed hs
    | offer r c =>
      cases hg
      exact .answered hs
    | register =>
      cases answer with
      | ok done =>
        cases hg
        exact .registered hs
      | error fault =>
        cases hg
        exact .unregistered hs
    | acknowledge event =>
      cases answer with
      | ok done =>
        cases hg
        exact .acknowledging hs
      | error fault =>
        cases hg
        exact .dropped hs (.unacknowledged event fault)
    | offerAcknowledgment event =>
      cases hg
      exact .acknowledged hs
    | _ => cases hg

/-- **Every move runs one of the sections.** -/
theorem acts_of_move? (hm : e.move? m = some e') : Acts e m e' := by
  unfold move? at hm
  cases m with
  | proceed =>
    simp only at hm
    split at hm
    · rename_i hp
      cases hm
      exact acts_step hp
    · cases hm
  | grant answer => exact acts_granted hm
  | back =>
    have hm : e.returned? = some e' := hm
    unfold returned? at hm
    split at hm
    · rename_i tag reply below hs
      cases hm
      exact .dropped hs (.returned tag reply)
    · rename_i ms below hs
      cases hm
      exact .dropped hs (.rested ms)
    · cases hm
  | giveUp =>
    simp only at hm
    split at hm
    · cases hm
    · unfold gaveUp? at hm
      split at hm
      · rename_i w deadline below hs
        split at hm
        · cases hm
          exact .gaveUp hs
        · cases hm
      · cases hm
  | collect =>
    have hm : e.collected? = some e' := hm
    unfold collected? at hm
    split at hm
    · rename_i hs
      cases hm
      exact .collected hs
    · rename_i hs
      cases hm
      exact .dropped hs .handled
    · cases hm
  | call call =>
    simp only at hm
    split at hm
    · cases hm
    · cases hm
      exact .called call
  | receive arrival =>
    simp only at hm
    split at hm
    · cases hm
    · cases hm
      exact .received arrival
  | elapse ms =>
    cases hm
    exact .elapsed ms

/-! ## Arrivals -/

/-- What an arrival comes to. -/
inductive Heard (e : Engine) : Arrival → Engine → Prop
  | ignored {arrival : Arrival} : Heard e arrival e
  | discarded {arrival : Arrival} (r : RouterRef) : Heard e arrival (e.discard r)
  | sent {context : Option FrameContext} {r : RouterRef} {c : CommandRef} {command : Command} :
      e.slotOf? r = some (c, command) → (∃ id, e.topology.tree.get? id = some r) →
      Heard e (.sent context) (e.signal r c command.generation .sent none)
  | answered {channel : PacketType} {bytes : List UInt8} {route : Route} {address : Address}
      {data : List UInt32} {r : RouterRef} {c : CommandRef} {command : Command} :
      channel ≠ .notify → channel ≠ .hotplug →
      response? command.kind.packetType bytes = some (route, address, data) →
      e.topology.lookup route = .ok r → e.slotOf? r = some (c, command) →
      command.seq = address.seq →
      Heard e (.received channel command.kind.packetType bytes)
        (e.signal r c command.generation .answered (match command.kind with
          | .read => some (data.take command.address.dwords)
          | .write => none))
  | interrupted {label : PacketType} {bytes : List UInt8} {route : Route} {r : RouterRef}
      {c : CommandRef} {command : Command} (event : Event) : e.slotOf? r = some (c, command) →
      e.topology.lookup route = .ok r →
      Heard e (.received .notify label bytes)
        (let (claimed, commands) := e.commands.change c false (·.markAll command.generation)
        let marked := { e with commands := commands }
        if claimed then marked.complete r c command.generation (.interrupted event) else marked)
  | plugged {label : PacketType} {bytes : List UInt8} (event : HotplugEvent) :
      Heard e (.received .hotplug label bytes) (e.push [.acknowledge event, .announce event])

theorem heard_onResponse {channel : PacketType} (hn : channel ≠ .notify) (hh : channel ≠ .hotplug)
    (label : PacketType) (bytes : List UInt8) :
    e.Heard (.received channel label bytes) (e.onResponse label bytes) := by
  unfold onResponse
  split
  · exact .ignored
  · rename_i route address data hread
    split
    · exact .ignored
    · rename_i r hroute
      split
      · exact .discarded r
      · rename_i c command hslot
        split
        · rename_i hfits
          obtain ⟨rfl, hseq⟩ := hfits
          exact .answered hn hh hread hroute hslot hseq
        · exact .discarded r

/-- **Every arrival comes to one of these things**, once it stands on the stack. -/
theorem heard_receive (e : Engine) (arrival : Arrival) :
    (e.push [.handled]).Heard arrival (e.receive arrival) := by
  unfold receive
  simp only
  split
  · unfold onSent
    split
    · split
      · exact .ignored
      · rename_i r hlinked
        split
        · exact .discarded r
        · rename_i c command hslot
          split
          · rename_i hfits
            obtain ⟨-, rfl⟩ := hfits
            exact .sent hslot ⟨_, hlinked⟩
          · exact .discarded r
    · exact .ignored
  · unfold onNotification
    split
    · exact .ignored
    · split
      · exact .ignored
      · rename_i event _
        split
        · exact .ignored
        · rename_i r hroute
          split
          · exact .ignored
          · rename_i hslot
            exact .interrupted event hslot hroute
  · unfold onHotplug
    split
    · exact .ignored
    · rename_i event _
      exact .plugged event
  · rename_i channel label bytes hn hh
    exact heard_onResponse hn hh label bytes

end RouterFabric.Engine
