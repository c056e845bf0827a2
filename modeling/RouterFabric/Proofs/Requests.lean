import RouterFabric.Proofs.Capacity
import RouterFabric.Proofs.Engine.Verdicts
import RouterFabric.Proofs.Enrolment
import RouterFabric.Proofs.Fates
import RouterFabric.Proofs.Packets
import RouterFabric.Proofs.Transfers

/-!
# What the transport is handed

A command lives from the request of a program until its last attempt is over, and its request frame
is encoded anew for each attempt. Whenever the transport is asked to take such a frame, first or
again, the router at the other end reads from it what the caller asked for, and the sequence number
of the attempt.

* `originOf` : the request of a program that a command comes from, and the call it belongs to
* `Engine.Traced`, `Run.traced` : every command is what its origin asked for
* `Run.seq` : a command carries the last two bits of the number of its attempt
* `Run.offered` : what is on offer is a command of the router it is offered for
* `Run.conveys` : what the transport is handed
-/

namespace RouterFabric

open Engine

/-! ## Requests that can be read again -/

theorem Address.of_make {space : Space} {adapter offset dwords : Nat} {address : Address}
    (h : Address.make space adapter offset dwords = .ok address) :
    address = ⟨space, adapter, offset, dwords, 0⟩ ∧ adapter ≤ 63 ∧ offset ≤ 0x1fff ∧
      dwords ≤ 60 := by
  unfold Address.make at h
  split at h
  · cases h
  · rename_i hadapter
    split at h
    · cases h
    · rename_i hoffset
      split at h
      · cases h
      · rename_i hdwords
        split at h
        · cases h
        · cases h
          refine ⟨rfl, Nat.le_of_not_lt hadapter, Nat.le_of_not_lt hoffset, ?_⟩
          exact Nat.le_of_not_lt fun hlt => hdwords (.inr hlt)

/-- Routes of six hops leave the marker alone. -/
theorem Route.unmarked_of_validate {r : Route} (h : r.validate = .ok ()) : r.Unmarked := by
  rw [Route.unmarked_iff]
  calc r.raw.toNat < 256 ^ r.depth := r.raw_lt
    _ ≤ 256 ^ 6 := Nat.pow_le_pow_right (by decide) (Route.validate_eq_ok.1 h).1
    _ < 2 ^ 63 := by decide

/-- The frame asks the router at the end of the route for the transfer, under a sequence number. -/
def Frame.AsksFor (frame : Frame) (route : Route) (seq : Nat) : Transfer → Prop
  | .read space adapter offset dwords => frame.packetType = .read ∧
      ReadRequest.decode frame.bytes = .ok ⟨route, ⟨space, adapter, offset, dwords, seq⟩⟩
  | .write space adapter offset data => frame.packetType = .write ∧
      WriteRequest.decode frame.bytes =
        .ok ⟨route, ⟨space, adapter, offset, data.length, seq⟩, data⟩

/-- A command that was made for a transfer asks for it. -/
theorem Command.MadeFor.asksFor {command : Command} {t : Transfer} (h : command.MadeFor t)
    (hpayload : command.payload = t.payload) (hroute : command.route.Unmarked)
    (hseq : command.seq < 4) : command.request.AsksFor command.route command.seq t := by
  obtain ⟨hkind, haddress⟩ := h
  have hmod : command.seq % 4 = command.seq := Nat.mod_eq_of_lt hseq
  have packable (space : Space) {adapter offset dwords : Nat} (hadapter : adapter ≤ 63)
      (hoffset : offset ≤ 0x1fff) (hdwords : dwords ≤ 60) :
      Address.Packable ⟨space, adapter, offset, dwords, command.seq⟩ :=
    ⟨hadapter, hoffset, Nat.le_trans hdwords (by decide), Nat.le_of_lt_succ hseq⟩
  cases t with
  | read space adapter offset dwords =>
    obtain ⟨heq, hadapter, hoffset, hdwords⟩ := Address.of_make haddress
    refine ⟨congrArg CommandKind.packetType hkind, ?_⟩
    show ReadRequest.decode command.requestBytes = _
    rw [Command.requestBytes, show command.kind = .read from hkind]
    simp only [heq, Address.withSeq, hmod]
    rw [ReadRequest.decode_encode, hroute.eq, (packable space hadapter hoffset hdwords).cut_eq]
  | write space adapter offset data =>
    have hmake : Address.make space adapter offset data.length = .ok command.address := by
      unfold Transfer.address at haddress
      simp only at haddress
      split at haddress
      · cases haddress
      · exact haddress
    obtain ⟨heq, hadapter, hoffset, hdwords⟩ := Address.of_make hmake
    have hcut := (packable space hadapter hoffset hdwords).cut_eq
    refine ⟨congrArg CommandKind.packetType hkind, ?_⟩
    show WriteRequest.decode command.requestBytes = _
    rw [Command.requestBytes, show command.kind = .write from hkind]
    simp only [heq, Address.withSeq, hmod]
    rw [show command.payload = data from hpayload, WriteRequest.decode_encode, hroute.eq, hcut]
    rw [hcut]

/-! ## Sequence numbers -/

namespace Engine

variable {e e' : Engine} {m : Move} {c c' : CommandRef} {old new : Command}

theorem Changed.attempt {left : Bool} (a : e.Changed e' c' old new left)
    (hgeneration : new.generation = old.generation) (hseq : new.seq = old.seq) (c : CommandRef) :
    e'.attempt c = e.attempt c := by
  by_cases hne : c = c'
  · rw [hne, attempt_of_command a.before, attempt_of_command a.after, hgeneration, hseq]
  · exact attempt_of_substance (a.others c hne).substance

/-- A command that has only been made counts like one that is not there. -/
theorem Added.attempt (a : e.Added e' new) (hgeneration : new.generation = 0) (hseq : new.seq = 0)
    (c : CommandRef) : e'.attempt c = e.attempt c := by
  cases hc : e'.command? c with
  | none =>
    have hnone : e.command? c = none := by
      cases hwas : e.command? c with
      | none => rfl
      | some was =>
        rw [a.command_kept hwas] at hc
        cases hc
    unfold Engine.attempt
    rw [hc, hnone]
  | some command =>
    rcases a.was hc with hwas | ⟨rfl, rfl⟩
    · rw [attempt_of_command hc, attempt_of_command hwas]
    · have hnone : e.command? ⟨e.commands.length⟩ = none := List.getElem?_eq_none (Nat.le_refl _)
      rw [attempt_of_command hc, hgeneration, hseq]
      unfold Engine.attempt
      rw [hnone]
      rfl

/-- A command that has just been made begins an attempt, or its caller does so. -/
def Prompted (e e' : Engine) (c : CommandRef) : Prop :=
  c.index = e.commands.length ∨
    ∃ w below, e.stack = .attempt w :: below ∧ w.command = c ∧ e'.Supplants (.attempt w) below

/-- A command is in the attempt it was in, or the next one has begun. -/
theorem Sound.attempt_inner (h : e.Sound) (k : Inner e m e') (c : CommandRef) :
    e'.attempt c = e.attempt c ∨ ∃ r, e.Commences e' r c ∧ e.Prompted e' c := by
  have of_commences {r : RouterRef} {c' : CommandRef} (commences : e.Commences e' r c')
      (prompted : e.Prompted e' c') :
      e'.attempt c = e.attempt c ∨ ∃ r, e.Commences e' r c ∧ e.Prompted e' c := by
    by_cases hne : c = c'
    · exact .inr ⟨r, hne ▸ commences, hne ▸ prompted⟩
    · exact .inl (attempt_of_substance (commences.others c hne))
  cases k with
  | quiet | returned | finished | asked | resumed | dropped | unframed | exhausted | watched
  | settled | unclaimed | unregistered =>
    rename_i a
    exact .inl (attempt_of_substance (a.commands c).substance)
  | expired | refused | noted | completed | interrupted =>
    rename_i a
    exact .inl (a.attempt rfl rfl c)
  | unlinked r next below he he' parted hm =>
    left
    unfold attempt command?
    rw [parted.commands]
  | rooted linked t below he he' joined ht =>
    left
    unfold attempt command?
    rw [joined.commands]
  | framed r command watching below he he' added =>
    obtain ⟨⟨-, -, hmade⟩, -⟩ :=
      h.tasks (.allocate r command (.waiting watching)) (he ▸ List.mem_cons_self)
    exact .inl (added.attempt (by rw [hmade]; rfl) (by rw [hmade]; rfl) c)
  | issued r command style t mid router below he he' issued added begun =>
    obtain ⟨⟨-, howns, hmade⟩, -⟩ := h.tasks (.allocate r command style) (he ▸ List.mem_cons_self)
    refine of_commences (added.commences begun ?_ h.toStored howns) (.inl rfl)
    rw [hmade]
    rfl
  | retried w watching left router old below he he' begun =>
    obtain ⟨⟨hattends, hfresh, -⟩, -⟩ := h.tasks (.attempt w) (he ▸ List.mem_cons_self)
    obtain ⟨-, command, hc, howns, -⟩ := hattends
    rw [begun.before] at hc
    cases hc
    refine of_commences (begun.commences hfresh howns) (.inr ⟨w, below, he, rfl, ?_⟩)
    split at he'
    · exact ⟨[], _, he', nofun⟩
    · exact ⟨[.drain w.router], _, he', nofun⟩
  | withdrawn w deadline mid old expired t tasks below he he' hquiet hfits ht hmem changed forced =>
    exact .inl ((forced.attempt c).trans (changed.attempt rfl rfl c))

theorem Called.attempt {call : Call} (k : Called e call e') (c : CommandRef) :
    e'.attempt c = e.attempt c := by
  cases k with
  | answered result hresult he' a => exact attempt_of_substance (a.commands c).substance
  | operated r operation router settings hr he' a =>
    exact attempt_of_substance (a.commands c).substance
  | attached parent route linked t he' joined ht =>
    unfold Engine.attempt command?
    rw [joined.commands]
  | detached r expired mid rs tasks result he' hquiet hfits forced cut hempty =>
    exact (attempt_of_substance cut.spared.substance).trans (forced.attempt c)

end Engine

section numbers

variable {settings : Settings} {turns : List Turn} {e : Engine} {c : CommandRef}

/-- **A command carries the last two bits of the number of its attempt**, in a queue or not. -/
theorem Run.seq (h : Run settings turns e) (c : CommandRef) :
    (e.attempt c).2 = numberOf turns c % 4 := by
  induction h with
  | start =>
    unfold Engine.attempt
    rw [command?_opening]
    rfl
  | @next turns e e' m prior ha hm ih =>
    have kept (hattempt : e'.attempt c = e.attempt c) :
        (e'.attempt c).2 = numberOf (⟨e, m, e'⟩ :: turns) c % 4 := by
      rw [numberOf_of_attempt hattempt, hattempt]
      exact ih
    cases prior.moved ha hm with
    | inner hcall hcollect k =>
      rcases prior.sound.attempt_inner k c with hattempt | ⟨r, commences, -⟩
      · exact kept hattempt
      · rw [commences.numberOf, commences.attempt]
    | called k => exact kept (k.attempt c)
    | collected result below he he' a => exact kept (attempt_of_substance (a.commands c).substance)

end numbers

/-! ## Where a command comes from -/

/-- The transfer that a program asks for in a turn, with the router and the style. -/
def Turn.asks? (turn : Turn) : Option (RouterRef × Transfer × Style) :=
  match turn.move, turn.before.stack with
  | .proceed, .perform r (.ask (.transfer t style) _) :: _ => some (r, t, style)
  | _, _ => none

/-- Whether the id of a command is given out in a turn. -/
def Turn.names (turn : Turn) (id : CommandId) : Bool :=
  turn.before.topology.nextCommand == id.number && turn.after.topology.nextCommand != id.number

/-- The request of a program, and the call that the program belongs to. -/
structure Origin where
  call : Call
  router : RouterRef
  transfer : Transfer
  style : Style
  deriving DecidableEq, Repr

/-- Where the command with this id comes from: the request that was met in the turn in which the id
was given out, and the innermost call in progress then. -/
def originOf (settings : Settings) : List Turn → CommandId → Option Origin
  | [], _ => none
  | turn :: earlier, id =>
    if turn.names id then
      match turn.asks?, openCalls settings earlier with
      | some (r, t, style), call :: _ => some ⟨call, r, t, style⟩
      | _, _ => none
    else
      originOf settings earlier id

/-- A call that is a transfer is the request itself. -/
def Origin.Own (origin : Origin) : Prop :=
  ∀ r t style, origin.call = .operate r (.transfer t style) →
    origin.router = r ∧ origin.transfer = t ∧ origin.style = style

/-- The command is what the request of its origin was made into. -/
structure Command.ComesFrom (command : Command) (origin : Origin) : Prop where
  node : command.node = ⟨origin.router.index⟩
  made : command.MadeFor origin.transfer
  payload : command.payload = origin.transfer.payload

/-- The command has an origin, and a route that can be read again. -/
structure Command.Traceable (settings : Settings) (turns : List Turn) (e : Engine)
    (command : Command) : Prop where
  named : command.id.number < e.topology.nextCommand
  unmarked : command.route.Unmarked
  origin : ∃ origin, originOf settings turns command.id = some origin ∧ origin.Own ∧
    command.ComesFrom origin

/-- Every command can be traced to its origin, and so can every one that waits for its frame. -/
structure Engine.Traced (settings : Settings) (turns : List Turn) (e : Engine) : Prop where
  commands : ∀ c command, e.command? c = some command → command.Traceable settings turns e
  waiting : ∀ r command style, .allocate r command style ∈ e.stack →
    command.Traceable settings turns e

section origins

variable {settings : Settings} {turns : List Turn} {e e' : Engine} {m : Move} {c : CommandRef}
  {command : Command}

theorem Command.Traceable.of_made {was : Command} (h : was.Traceable settings turns e)
    (hmade : command.made = was.made) : command.Traceable settings turns e := by
  have hid : command.id = was.id := congrArg (·.id) hmade
  have hnode : command.node = was.node := congrArg (·.node) hmade
  have hroute : command.route = was.route := congrArg (·.route) hmade
  have hpayload : command.payload = was.payload := congrArg (·.payload) hmade
  obtain ⟨hnamed, hunmarked, origin, horigin, hown, hcomes⟩ := h
  refine ⟨?_, ?_, origin, ?_, hown, ?_, hcomes.made.of_made hmade, ?_⟩
  · rw [hid]
    exact hnamed
  · rw [hroute]
    exact hunmarked
  · rw [hid]
    exact horigin
  · exact hnode.trans hcomes.node
  · exact hpayload.trans hcomes.payload

/-- Later turns give out other ids. -/
theorem Command.Traceable.later (h : command.Traceable settings turns e)
    (hle : e.topology.nextCommand ≤ e'.topology.nextCommand) :
    command.Traceable settings (⟨e, m, e'⟩ :: turns) e' := by
  obtain ⟨hnamed, hunmarked, origin, horigin, hown, hcomes⟩ := h
  refine ⟨Nat.lt_of_lt_of_le hnamed hle, hunmarked, origin, ?_, hown, hcomes⟩
  have hnot : Turn.names ⟨e, m, e'⟩ command.id = false := by
    unfold Turn.names
    rw [beq_eq_false_iff_ne.2 (Nat.ne_of_gt hnamed), Bool.false_and]
  rw [originOf, hnot]
  exact horigin

/-- The command that waits for its frame in a task. -/
def Task.commandWaiting? : Task → Option Command
  | .allocate _ command _ => some command
  | _ => none

/-- A command is made in a turn in which a program asks for a transfer on an attached router. -/
structure Engine.Issues (e : Engine) (m : Move) (e' : Engine) (r : RouterRef) (t : Transfer)
    (style : Style) (command : Command) : Prop where
  proceeds : m = .proceed
  named : e'.topology.nextCommand = e.topology.nextCommand + 1
  asks : ∃ next below, e.stack = .perform r (.ask (.transfer t style) next) :: below
  made : ∃ router address, e.router? r = some router ∧ router.detached = false ∧
    t.address = .ok address ∧ command = e.commandFor router t address

/-- A command that waits for its frame has waited before, or has just been made. -/
theorem Engine.Redrawn.waits (k : Redrawn e m e') :
    e.topology.nextCommand ≤ e'.topology.nextCommand ∧
      ∀ r command style, .allocate r command style ∈ e'.stack →
        .allocate r command style ∈ e.stack ∨ ∃ t, e.Issues m e' r t style command := by
  -- what is said of the outline is said of the number and of the tasks that wait
  have redrawn {o : Outline} (stack : List Task) (ho : e'.outline = o)
      (hscripts : o.scripts = stack.filter Task.isScript)
      (hnumber : e.topology.nextCommand ≤ o.nextCommand)
      (hwas : ∀ r command style, .allocate r command style ∈ stack →
        .allocate r command style ∈ e.stack ∨ ∃ t, e.Issues m e' r t style command) :
      e.topology.nextCommand ≤ e'.topology.nextCommand ∧
        ∀ r command style, .allocate r command style ∈ e'.stack →
          .allocate r command style ∈ e.stack ∨ ∃ t, e.Issues m e' r t style command := by
    refine ⟨?_, fun r command style hmem => hwas r command style ?_⟩
    · rw [show e'.topology.nextCommand = o.nextCommand from congrArg Outline.nextCommand ho]
      exact hnumber
    · have hscript : .allocate r command style ∈ e'.outline.scripts :=
        List.mem_filter.2 ⟨hmem, rfl⟩
      rw [ho, hscripts] at hscript
      exact (List.mem_filter.1 hscript).1
  have under {t : Task} {below : List Task} (hst : e.stack = t :: below) (r : RouterRef)
      (command : Command) (style : Style) (hmem : .allocate r command style ∈ below) :
      .allocate r command style ∈ e.stack ∨ ∃ t, e.Issues m e' r t style command :=
    .inl (hst ▸ List.mem_cons_of_mem _ hmem)
  have above {t : Task} {below : List Task} (ht : t.commandWaiting? = none)
      (hbelow : ∀ r command style, .allocate r command style ∈ below →
        .allocate r command style ∈ e.stack ∨ ∃ t, e.Issues m e' r t style command)
      (r : RouterRef) (command : Command) (style : Style)
      (hmem : .allocate r command style ∈ t :: below) :
      .allocate r command style ∈ e.stack ∨ ∃ t, e.Issues m e' r t style command := by
    rcases List.mem_cons.1 hmem with heq | hmem
    · rw [← heq] at ht
      cases ht
    · exact hbelow r command style hmem
  cases k with
  | kept ho | unplaced ho | pruned _ ho =>
    exact redrawn e.stack ho rfl (Nat.le_refl _) fun r command style hmem => .inl hmem
  | concluded hst ho | framed hst ho => exact redrawn _ ho rfl (Nat.le_refl _) (under hst)
  | asked hst _ _ hle ho => exact redrawn _ ho rfl hle (above rfl (under hst))
  | enrolled hst _ _ ho | unenrolled hst _ _ ho | unlinked hst _ _ ho | stuck hst _ _ ho =>
    exact redrawn _ ho rfl (Nat.le_refl _) (above rfl (under hst))
  | @issued _ r t style next below router address hst hr hattached haddress ho =>
    refine redrawn _ ho rfl (Nat.le_succ _) fun r' command style' hmem => ?_
    rcases List.mem_cons.1 hmem with heq | hmem
    · cases heq
      exact .inr ⟨t, rfl, congrArg Outline.nextCommand ho, ⟨next, below, hst⟩, router, address, hr,
        hattached, haddress, rfl⟩
    · exact above rfl (under hst) r' command style' hmem
  | resumed hst ho =>
    refine redrawn _ ho rfl (Nat.le_refl _) (above rfl fun r command style hmem => ?_)
    exact under hst r command style (List.mem_cons_of_mem _ hmem)
  | operated _ ho | placed _ ho =>
    exact redrawn _ ho rfl (Nat.le_refl _) (above rfl fun r command style hmem => .inl hmem)
  | rooted hst _ ho => exact redrawn _ ho rfl (Nat.le_refl _) (above rfl (under hst))

/-- The route of an attached router can be read again. -/
theorem Run.unmarked (h : Run settings turns e) {r : RouterRef} {router : Router}
    (hknown : e.Known r) (hr : e.router? r = some router) (hattached : router.detached = false) :
    router.route.Unmarked := by
  rcases hknown with ⟨id, hget⟩ | ⟨router', hr', hdetached⟩
  · rw [RouterTree.get?_eq_place] at hget
    obtain ⟨⟨value, route, parent⟩, hplace, rfl⟩ := Option.map_eq_some_iff.1 hget
    obtain ⟨-, router', hr', hroute⟩ := h.sound.places id value route parent hplace
    cases hr'.symm.trans hr
    have hlinked : e.topology.tree.route? id = some route := by
      rw [RouterTree.route?_eq_place, hplace]
      rfl
    rw [hroute]
    exact Route.unmarked_of_validate (h.explored.charted.routes id route hlinked)
  · cases hr'.symm.trans hr
    rw [hattached] at hdetached
    cases hdetached

/-- A command that has just been made can be traced. -/
theorem Run.traceable (h : Run settings turns e) {r : RouterRef} {t : Transfer} {style : Style}
    (k : e.Issues m e' r t style command) :
    command.Traceable settings (⟨e, m, e'⟩ :: turns) e' := by
  obtain ⟨rfl, hnamed, ⟨next, below, hst⟩, router, address, hr, hattached, haddress, rfl⟩ := k
  have htask := h.sound.tasks _ (hst ▸ List.mem_cons_self)
  obtain ⟨standing, hstacked, hcalls⟩ := h.stacked
  rw [hst] at hstacked
  obtain ⟨call, progress, outer, segment, rest, rfl, -, hstands, -⟩ := hstacked.head rfl
  rw [List.map_cons] at hcalls
  refine ⟨?_, h.unmarked htask.1 hr hattached, ⟨call, r, t, style⟩, ?_, ?_, ?_, ⟨rfl, haddress⟩,
    rfl⟩
  · rw [hnamed]
    exact Nat.lt_succ_self _
  · have hnames : Turn.names ⟨e, .proceed, e'⟩ ⟨e.topology.nextCommand⟩ = true := by
      unfold Turn.names
      rw [hnamed]
      simp
    have hasks : Turn.asks? ⟨e, .proceed, e'⟩ = some (r, t, style) := by
      unfold Turn.asks?
      rw [hst]
    show originOf settings (⟨e, .proceed, e'⟩ :: turns) ⟨e.topology.nextCommand⟩ = _
    rw [originOf, if_pos hnames, hasks, ← hcalls]
  · intro r' t' style' hcall
    cases hstands with
    | asking =>
      cases hcall
      exact ⟨rfl, rfl, rfl⟩
    | plain hplain _ => exact absurd hcall (hplain r' t' style')
    | waiting hw => cases hw
  · exact h.sound.ids r router hr

/-- Every command was there before, or is made of one that has waited for its frame. -/
theorem Run.command_was (h : Run settings turns e)
    (ha : ∀ call, m = .call call → e.Allows call) (hm : e.move? m = some e')
    (hc : e'.command? c = some command) :
    (∃ was, e.command? c = some was ∧ command.made = was.made) ∨
      ∃ r waiting style, .allocate r waiting style ∈ e.stack ∧ command.made = waiting.made := by
  have kept {was : Command} (hwas : e.command? c = some was) :
      ∃ was, e.command? c = some was ∧ command.made = was.made := by
    obtain ⟨command', hc', hmade, -⟩ := (h.sound.extends ha hm).commands c was hwas
    rw [hc, Option.some.injEq] at hc'
    exact ⟨was, hwas, hc' ▸ hmade⟩
  cases h.moved ha hm with
  | inner hcall hcollect k =>
    rcases k.command_was hc with ⟨was, hwas⟩ | hwaiting
    · exact .inl (kept hwas)
    · exact .inr hwaiting
  | called k =>
    obtain ⟨was, hwas⟩ := (mute_called k).command_was hc
    exact .inl (kept hwas)
  | collected result below he he' a =>
    obtain ⟨was, hwas⟩ := a.mute.command_was hc
    exact .inl (kept hwas)

/-- **Every command can be traced to the request that it was made for.** -/
theorem Run.traced (h : Run settings turns e) : e.Traced settings turns := by
  induction h with
  | start =>
    refine ⟨fun c command hc => ?_, fun r command style hwaits => ?_⟩
    · rw [command?_opening] at hc
      cases hc
    · rcases stack_opening settings with hs | ⟨failure, hs⟩ <;> simp [hs] at hwaits
  | @next turns e e' m prior ha hm ih =>
    obtain ⟨hle, hwaits⟩ := (prior.sound.redrawn ha hm).waits
    refine ⟨fun c command hc => ?_, fun r command style hmem => ?_⟩
    · rcases prior.command_was ha hm hc with ⟨was, hwas, hmade⟩ | ⟨r, waiting, style, hmem, hmade⟩
      · exact ((ih.commands c was hwas).later hle).of_made hmade
      · exact ((ih.waiting r waiting style hmem).later hle).of_made hmade
    · rcases hwaits r command style hmem with hmem | ⟨t, issues⟩
      · exact (ih.waiting r command style hmem).later hle
      · exact prior.traceable issues

end origins

/-! ## What is on offer -/

section offers

variable {settings : Settings} {turns : List Turn} {e : Engine} {r : RouterRef} {c : CommandRef}

/-- What is on offer is a command of the router that it is offered for, and its frame holds the
request of its current attempt. -/
theorem Run.offered (h : Run settings turns e) (hmem : .offer r c ∈ e.stack) :
    ∃ command, e.command? c = some command ∧ e.Owns r command ∧
      command.frame = command.request := by
  induction h with
  | start => rcases stack_opening settings with hs | ⟨failure, hs⟩ <;> simp [hs] at hmem
  | @next turns e e' m prior ha hm ih =>
    have kept (hmem : .offer r c ∈ e.stack) :
        ∃ command, e'.command? c = some command ∧ e'.Owns r command ∧
          command.frame = command.request := by
      obtain ⟨command, hc, howns, hframe⟩ := ih hmem
      obtain ⟨command', hc', hmade, -⟩ := (prior.sound.extends ha hm).commands c command hc
      have hfilled := prior.sound.filled ha hm ⟨command, hc, hframe⟩
      exact ⟨command', hc', (prior.sound.extends ha hm).owns howns hmade, hfilled.eq hc'⟩
    obtain ⟨gone, tasks, below, swapped, flow⟩ := prior.sound.flow ha hm
    rw [swapped.after] at hmem
    rcases List.mem_append.1 hmem with hmem | hmem
    · obtain ⟨-, -, -, hslot⟩ := flow.taken_of_offer hmem
      have hmember : c ∈ (e'.queue r).members := Queue.mem_members.2 (.inl hslot)
      obtain ⟨command, hc, howns, -⟩ := (prior.next ha hm).sound.members r c hmember
      exact ⟨command, hc, howns, ((prior.next ha hm).filled ⟨r, hmember⟩).eq hc⟩
    · apply kept
      rw [swapped.before]
      exact List.mem_append_right gone hmem

/-- A frame that the transport is asked to take is that of a command on offer, or it acknowledges an
event. -/
theorem offer_of_pause {frame : Frame} (hpause : e.pause = .submission frame) :
    (∃ r c below command, e.stack = .offer r c :: below ∧ e.command? c = some command ∧
      frame = command.frame) ∨ frame.packetType = .notify ∧ frame.context = .acknowledgment := by
  unfold pause at hpause
  split at hpause
  case h_7 r c below hst =>
    split at hpause
    · rename_i command hc
      cases hpause
      exact .inl ⟨r, c, below, command, hst, hc, rfl⟩
    · cases hpause
  case h_8 =>
    cases hpause
    exact .inr ⟨rfl, rfl⟩
  case h_10 | h_11 =>
    split at hpause <;> cases hpause
  all_goals cases hpause

end offers

/-! ## Frames -/

/-- A frame that the transport is asked to take is the request of a command's current attempt, and
the router it is for reads from it what the caller asked for. -/
structure Frame.Conveys (frame : Frame) (settings : Settings) (turns : List Turn) (e : Engine)
    (router : Router) (command : Command) (origin : Origin) : Prop where
  offered : ∃ r c below, e.stack = .offer r c :: below ∧ origin.router = r ∧
    e.router? r = some router ∧ e.command? c = some command ∧ command.seq = numberOf turns c % 4
  comes : originOf settings turns command.id = some origin
  own : origin.Own
  context : frame.context = .command router.id command.id command.generation
  asks : frame.AsksFor router.route command.seq origin.transfer

/-- **What the transport is handed.** Whenever it is asked to take a frame that is no
acknowledgment, the frame is read at the other end as the request that the caller made, with the
route of the caller's router and the sequence number of the command's current attempt, and its
context names the router, the command and the generation of that attempt. -/
theorem Run.conveys {settings : Settings} {turns : List Turn} {e : Engine} {frame : Frame}
    (h : Run settings turns e) (hpause : e.pause = .submission frame)
    (hrequest : frame.packetType ≠ .notify) :
    ∃ router command origin, frame.Conveys settings turns e router command origin := by
  obtain ⟨r, c, below, command, hst, hc, rfl⟩ :=
    (offer_of_pause hpause).resolve_right fun acknowledges => hrequest acknowledges.1
  obtain ⟨command', hc', ⟨hnode, router, hr, hroute⟩, hframe⟩ :=
    h.offered (hst ▸ List.mem_cons_self)
  cases hc'.symm.trans hc
  obtain ⟨-, hunmarked, origin, horigin, hown, hcomes⟩ := h.traced.commands c command hc
  have htarget : origin.router = r := by
    rw [Engine.ref_eq_iff]
    exact congrArg NodeId.number (hcomes.node.symm.trans hnode)
  have hid := h.sound.ids r router hr
  have hseq : command.seq = numberOf turns c % 4 := by
    rw [← h.seq c, attempt_of_command hc]
  refine ⟨router, command, origin, ⟨r, c, below, hst, htarget, hr, hc, hseq⟩, horigin, hown, ?_, ?_⟩
  · rw [hframe, hid, ← hnode]
    rfl
  · rw [hframe, ← hroute]
    refine hcomes.made.asksFor hcomes.payload hunmarked ?_
    rw [hseq]
    exact Nat.mod_lt _ (by decide)

/-- A write of three words that finds the transport busy and is given up, up to the offer of its
second attempt. -/
def rewriteMoves : List Move :=
  hostMoves hostWords ++
  ([.call (.operate ⟨0⟩ (.transfer (.write .router 0 64 [1, 2, 3]) (.waiting .woken))), .proceed,
    .grant (.ok ()), .proceed, .proceed, .grant (.error .busy), .proceed, .elapse 2000, .giveUp,
    .proceed, .proceed, .proceed, .proceed, .proceed, .proceed, .proceed] : List Move)

/-- The frame that the transport is asked to take. -/
def Pause.submitted? : Pause → Option Frame
  | .submission taken => some taken
  | _ => none

theorem Pause.eq_of_submitted? {pause : Pause} {taken : Frame} (h : pause.submitted? = some taken) :
    pause = .submission taken := by
  cases pause <;> cases h
  rfl

/-- The transport is asked to take the second attempt of a write. -/
theorem second_attempt_conveyed : ∃ turns e frame, Run {} turns e ∧
    e.pause = .submission frame ∧ frame.packetType = .write ∧
    frame.context = .command ⟨0⟩ ⟨2⟩ 2 ∧
    ∃ router command origin, frame.Conveys {} turns e router command origin := by
  have played : (replay? {} rewriteMoves.reverse).any (fun played =>
      played.2.pause.submitted?.any fun frame => decide (frame.packetType = .write) &&
        decide (frame.context = .command ⟨0⟩ ⟨2⟩ 2)) = true := by
    decide +kernel
  obtain ⟨turns, e, run, hcheck⟩ := exists_of_replay? played
  simp only [Option.any_eq_true, Bool.and_eq_true, decide_eq_true_eq] at hcheck
  obtain ⟨frame, hframe, hwrite, hcontext⟩ := hcheck
  have hpause := Pause.eq_of_submitted? hframe
  have hrequest : frame.packetType ≠ .notify := by
    rw [hwrite]
    decide
  exact ⟨turns, e, frame, run, hpause, hwrite, hcontext, run.conveys hpause hrequest⟩

end RouterFabric
