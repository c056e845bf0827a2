import RouterFabric.Proofs.Engine.Naps
import RouterFabric.Proofs.HeadOfLine
import RouterFabric.Proofs.Searches

/-!
# Routers that answer

A router serves its requests if each is answered with the words that stand at the address asked for.
As long as nobody calls or gives up and the transport takes what it is offered, an attempt on such
a router is under way until it has both of its signals, and then ends with these words.

* `Contents.response` : the answer to a command
* `Engine.Served` : nobody calls, everything is taken, and a router answers
* `Engine.Pending`, `Engine.Provided` : a read that is under way, and one that has its words
* `Engine.Serves` : what a served move does above the task of a caller
* `Served.serves` : every served move does so
-/

namespace RouterFabric

/-- The response to the current attempt of a command, from a router with these contents. -/
def Contents.response (words : Contents) (command : Command) : List UInt8 :=
  match command.kind with
  | .read => ReadResponse.encode
      ⟨command.route, command.address.withSeq command.seq, words.wordsAt command.address⟩
  | .write => WriteResponse.encode ⟨command.route, command.address.withSeq command.seq⟩

/-- The words after the address in that response. -/
def Contents.data (words : Contents) (command : Command) : List UInt32 :=
  match command.kind with
  | .read => words.wordsAt command.address
  | .write => []

namespace Engine

variable {settings : Settings} {turns : List Turn} {e e' : Engine} {m : Move} {words : Contents}
  {r r' : RouterRef} {router : Router} {c c' x : CommandRef} {command old : Command}
  {given : List UInt32} {arrival : Arrival} {t task : Task} {chores chores' rest below : List Task}

/-- The response to a command is read as one. -/
theorem response?_response (words : Contents) (hroute : command.route.Unmarked) :
    response? command.kind.packetType (words.response command) =
      some (command.route, (command.address.withSeq command.seq).cut,
        command.readable (command.address.withSeq command.seq).cut.dwords
          (words.data command)) := by
  have hwire : words.response command = Packet.toWire (command.route.markedHi ::
      command.route.lo :: (command.address.withSeq command.seq).word :: words.data command) := by
    unfold Contents.response Contents.data
    cases command.kind <;> rfl
  rw [hwire, response?_toWire, Route.ofWords_markedHi_lo, Address.ofWord_word, hroute.eq]

/-- The words kept of the response to a read are those at its address. -/
theorem kept_response (words : Contents) (hkind : command.kind = .read)
    (hmost : command.address.dwords ≤ Limit.maxDwords) :
    kept command (command.readable (command.address.withSeq command.seq).cut.dwords
      (words.data command)) = some (words.wordsAt command.address) := by
  have hlength := words.length_wordsAt command.address
  have hlt : command.address.dwords < 64 := Nat.lt_of_le_of_lt hmost (by decide)
  have hcut : (command.address.withSeq command.seq).cut.dwords = command.address.dwords :=
    Nat.mod_eq_of_lt hlt
  unfold kept Command.readable Contents.data
  simp only [hkind]
  rw [hcut, Nat.min_eq_left hmost, List.take_take, Nat.min_self,
    List.take_of_length_le (Nat.le_of_eq hlength)]

/-! ## Served moves -/

/-- Nobody calls or gives up, the transport takes whatever it is offered, and what arrives for the
attempt in the slot of the router is the report that its request was sent, or the response to it.
-/
def Served (e : Engine) (words : Contents) (r : RouterRef) : Move → Prop
  | .call _ => False
  | .giveUp => False
  | .grant answer => answer = .ok ()
  | .receive arrival => ∀ c, e.Concerns r c arrival → (∃ context, arrival = .sent context) ∨
      ∃ command, e.Holds r c command ∧ arrival =
        .received command.kind.packetType command.kind.packetType (words.response command)
  | .collect => ∀ result below, e.stack ≠ .answer result :: below
  | _ => True

/-- A command that reads these words from the router. -/
structure Fetches (words : Contents) (r : RouterRef) (given : List UInt32) (command : Command) :
    Prop where
  node : command.node = ⟨r.index⟩
  kind : command.kind = .read
  most : command.address.dwords ≤ Limit.maxDwords
  words : words.wordsAt command.address = given

/-- A read of these words with no attempt under way. -/
structure Prepared (e : Engine) (words : Contents) (r : RouterRef) (c : CommandRef)
    (given : List UInt32) : Prop where
  unqueued : c ∉ (e.queue r).members
  made : ∃ command, e.command? c = some command ∧ Fetches words r given command

/-- A read of these words whose attempt is under way. -/
structure Pending (e : Engine) (words : Contents) (r : RouterRef) (c : CommandRef)
    (given : List UInt32) : Prop where
  queued : c ∈ (e.queue r).members
  unended : ∃ command, e.command? c = some command ∧ Fetches words r given command ∧
    command.pollComplete = false ∧ (command.answered = true → command.response = some given)

/-- A read of these words that has ended with them. -/
structure Provided (e : Engine) (words : Contents) (r : RouterRef) (c : CommandRef)
    (given : List UInt32) : Prop where
  unqueued : c ∉ (e.queue r).members
  ended : ∃ command, e.command? c = some command ∧ Fetches words r given command ∧
    command.verdict = (true, some (.completed given))

/-- A free slot of the router has nobody in front of it, or a pass over the queue is still to come.
-/
def Minded (e : Engine) (r : RouterRef) (chores : List Task) : Prop :=
  ∀ front, e.front? r = some front → front.Tended r chores

/-- What a served move does above the task of a caller, and at the router meanwhile. -/
structure Serves (e e' : Engine) (words : Contents) (r : RouterRef) (chores chores' : List Task) :
    Prop where
  loose : ∀ t ∈ chores', t.isLoose = true
  outline : e'.outline = e.outline
  ready : e.Ready r → e'.Ready r
  minded : e.Minded r chores → e'.Minded r chores'
  shorter : (e'.queue r).members.length ≤ (e.queue r).members.length
  prepared : ∀ c given, e.Prepared words r c given → e'.Prepared words r c given
  pending : ∀ c given, e.Pending words r c given →
    e'.Pending words r c given ∨ e'.Provided words r c given
  provided : ∀ c given, e.Provided words r c given → e'.Provided words r c given

/-! ## What errands leave alone -/

theorem naps_receive (e : Engine) (arrival : Arrival) : (e.receive arrival).naps = e.naps :=
  (naps_heard (e.heard_receive arrival)).trans rfl

/-- An errand leaves the outline and what sleeps as they are. -/
theorem kept_of_loose (hm : e.move? m = some e') (hcall : ∀ call, m ≠ .call call)
    (hs : e.stack = t :: rest) (ht : t.isLoose = true) :
    e'.outline = e.outline ∧ e'.naps = e.naps := by
  -- the errand is taken from the stack, and the rest is that of a section
  have errand {t' : Task} {rest' : List Task} {last : Engine} (hs' : e.stack = t' :: rest')
      (houtline : last.outline = ({ e with stack := rest' } : Engine).outline)
      (hnaps : last.naps = e.naps) : last.outline = e.outline ∧ last.naps = e.naps := by
    obtain ⟨rfl, rfl⟩ := List.cons.inj (hs.symm.trans hs')
    exact ⟨houtline.trans (outline_pop hs (Task.isScript_of_loose ht)), hnaps⟩
  have other {t' : Task} {rest' : List Task} (hs' : e.stack = t' :: rest')
      (hnot : t'.isLoose = false) : False := by
    obtain ⟨rfl, -⟩ := List.cons.inj (hs.symm.trans hs')
    exact Bool.false_ne_true (hnot.symm.trans ht)
  cases acts_of_move? hm with
  | dropped hs' => exact errand hs' rfl rfl
  | concluded hs' | asked hs' | replied hs' | retried hs' | watched hs' | expired hs' | framed hs'
  | unframed hs' | registered hs' | unregistered hs' | gaveUp hs' | collected hs' =>
    exact (other hs' rfl).elim
  | settled hs' hw => exact (other hs' (by rcases hw with rfl | ⟨deadline, rfl⟩ <;> rfl)).elim
  | drained hs' => exact errand hs' (outline_drain _ _) (naps_drain _ _)
  | kicked hs' => exact errand hs' (outline_kick _) rfl
  | toured hs' => exact errand hs' (outline_drainFirst _ _) (naps_drainFirst _ _)
  | announced hs' => exact errand hs' rfl rfl
  | answered hs' => exact errand hs' (outline_answerOffer _ _ _ _) (naps_answerOffer _ _ _ _)
  | acknowledging hs' => exact errand hs' (outline_push _ (by simp [Task.isScript])) rfl
  | acknowledged hs' => exact errand hs' rfl rfl
  | called call => exact absurd rfl (hcall call)
  | received arrival =>
    exact ⟨outline_receive e arrival, naps_receive e arrival⟩
  | elapsed ms => exact ⟨rfl, rfl⟩

/-- A router that is attached and awake stays so where it is neither detached nor put to sleep. -/
theorem Ready.kept (h : e.Ready r) (hnaps : e'.naps = e.naps)
    (hdetached : (e'.router? r).map Router.detached = (e.router? r).map Router.detached) :
    e'.Ready r := by
  obtain ⟨router, hr, hattached, hawake⟩ := h
  rw [hr] at hdetached
  obtain ⟨router', hr', hsame⟩ := Option.map_eq_some_iff.1 hdetached
  refine ⟨router', hr', hsame.trans hattached, ?_⟩
  have hslept := congrArg (·[r.index]?) hnaps
  unfold naps at hslept
  have hr₁ : e.routers[r.index]? = some router := hr
  have hr₂ : e'.routers[r.index]? = some router' := hr'
  simp only [List.getElem?_map, hr₁, hr₂, Option.map_some, Option.some.injEq] at hslept
  exact hslept.trans hawake

/-- Where the front of the router stays as it is, or a free slot is taken, the queue keeps its
members. -/
theorem members_of_errand (hfront : e.Bypasses e' r ∨ e.Takes e' r) :
    (e'.queue r).members = (e.queue r).members ∧
      (e'.router? r).map Router.detached = (e.router? r).map Router.detached := by
  have read {e : Engine} {front : Front} (hf : e.front? r = some front) :
      (e.queue r).members = front.slot.toList ++ front.pending ∧
        (e.router? r).map Router.detached = some front.detached := by
    obtain ⟨router, hr, rfl⟩ := Option.map_eq_some_iff.1 hf
    rw [queue_of_router? hr, hr]
    exact ⟨rfl, rfl⟩
  rcases hfront with bypasses | takes
  · cases hf : e.front? r with
    | none =>
      have hr : e.router? r = none := Option.map_eq_none_iff.1 hf
      have hr' : e'.router? r = none := Option.map_eq_none_iff.1 (bypasses.front.trans hf)
      unfold queue
      rw [hr, hr']
      exact ⟨rfl, rfl⟩
    | some front =>
      obtain ⟨hmembers, hdetached⟩ := read hf
      obtain ⟨hmembers', hdetached'⟩ := read (bypasses.front.trans hf)
      exact ⟨hmembers'.trans hmembers.symm, hdetached'.trans hdetached.symm⟩
  · obtain ⟨x, rest, timeouts, detached, hf, hf'⟩ := takes.front
    obtain ⟨hmembers, hdetached⟩ := read hf
    obtain ⟨hmembers', hdetached'⟩ := read hf'
    exact ⟨hmembers'.trans hmembers.symm, hdetached'.trans hdetached.symm⟩

theorem Fetches.of_stance (h : Fetches words r given old) (hs : command.stance = old.stance) :
    Fetches words r given command := by
  have hnode : command.node = old.node := congrArg Stance.node hs
  have hkind : command.kind = old.kind := congrArg Stance.kind hs
  have haddress : command.address = old.address := congrArg Stance.address hs
  exact ⟨hnode.trans h.node, hkind.trans h.kind, haddress ▸ h.most, haddress ▸ h.words⟩

/-- An errand that touches nothing to be reckoned with at the router. -/
theorem Errand.serves (x : e.Errand e' r chores chores') (houtline : e'.outline = e.outline)
    (hnaps : e'.naps = e.naps) : e.Serves e' words r chores chores' := by
  obtain ⟨hmembers, hdetached⟩ := members_of_errand x.front
  have stays {c : CommandRef} {command : Command} (hc : e.command? c = some command)
      (hnode : command.node = ⟨r.index⟩) :
      ∃ command', e'.command? c = some command' ∧ command'.stance = command.stance :=
    Blockade.stance_next x hc hnode
  refine ⟨x.loose, houtline, fun h => h.kept hnaps hdetached, fun h front' hf' => ?_,
    Nat.le_of_eq (congrArg List.length hmembers), fun c given h => ?_, fun c given h => .inl ?_,
    fun c given h => ?_⟩
  · obtain ⟨front, hf⟩ : ∃ front, e.front? r = some front := by
      rcases x.front with bypasses | takes
      · exact ⟨front', bypasses.front.symm.trans hf'⟩
      · obtain ⟨_, _, _, _, hf, -⟩ := takes.front
        exact ⟨_, hf⟩
    exact x.tended front front' hf hf' (h front hf)
  · obtain ⟨hunqueued, command, hc, hfetches⟩ := h
    obtain ⟨command', hc', hstance⟩ := stays hc hfetches.node
    exact ⟨hmembers ▸ hunqueued, command', hc', hfetches.of_stance hstance⟩
  · obtain ⟨hqueued, command, hc, hfetches, hpoll, hnoted⟩ := h
    obtain ⟨command', hc', hstance⟩ := stays hc hfetches.node
    refine ⟨hmembers ▸ hqueued, command', hc', hfetches.of_stance hstance,
      (congrArg Stance.pollComplete hstance).trans hpoll, fun hanswered => ?_⟩
    exact (congrArg Stance.response hstance).trans
      (hnoted ((congrArg Stance.answered hstance).symm.trans hanswered))
  · obtain ⟨hunqueued, command, hc, hfetches, hverdict⟩ := h
    obtain ⟨command', hc', hstance⟩ := stays hc hfetches.node
    refine ⟨hmembers ▸ hunqueued, command', hc', hfetches.of_stance hstance, ?_⟩
    rw [← hverdict]
    exact Prod.ext (congrArg Stance.pollComplete hstance) (congrArg Stance.ending hstance)

/-! ## Signals -/

/-- A signal that comes from a router with these contents. -/
def Faithful (words : Contents) (r : RouterRef) (old : Command) (signal : Signal)
    (received : Option (List UInt32)) : Prop :=
  signal = .sent ∧ received = none ∨
    signal = .answered ∧ ∀ given, Fetches words r given old → received = some given

/-- What arrives for the attempt in the slot is a signal for it. -/
theorem Served.signal (h : Run settings turns e) (hq : e.Served words r (.receive arrival))
    (hconcerns : e.Concerns r x arrival) : ∃ old signal received, e.Holds r x old ∧
      e.receive arrival = (e.push [.handled]).signal r x old.generation signal received ∧
      Faithful words r old signal received := by
  have hwhat := hq x hconcerns
  obtain ⟨old, hc, ⟨fits, ha, hfits⟩ | ⟨event, ha⟩⟩ := hconcerns
  · cases ha with
    | sent hnode =>
      obtain ⟨rfl, rfl⟩ := hfits
      exact ⟨old, .sent, none, hc, receive_sent hnode hc, .inl ⟨rfl, rfl⟩⟩
    | @answered channel label bytes route address data hn hh hread hroute =>
      obtain ⟨rfl, hseq⟩ := hfits
      refine ⟨old, .answered, _, hc, receive_answer hn hh hread hroute hseq hc,
        .inr ⟨rfl, fun given hfetches => ?_⟩⟩
      rcases hwhat with ⟨context, heq⟩ | ⟨command, hholds, heq⟩
      · cases heq
      · obtain ⟨-, -, rfl⟩ := Arrival.received.inj heq
        obtain rfl : command = old := Option.some.inj (hholds.2.symm.trans hc.2)
        rw [response?_response words (h.traced.commands x command hc.2).unmarked] at hread
        cases hread
        rw [kept_response words hfetches.kind hfetches.most, hfetches.words]
  · cases ha with
    | mk hread hevent hroute =>
      rcases hwhat with ⟨context, heq⟩ | ⟨command, hholds, heq⟩
      · cases heq
      · obtain ⟨hlabel, -, -⟩ := Arrival.received.inj heq
        cases hkind : command.kind <;> rw [hkind] at hlabel <;> cases hlabel

theorem Fetches.noted (h : Fetches words r given old) (signal : Signal)
    (received : Option (List UInt32)) : Fetches words r given (old.noted signal received) :=
  ⟨h.node, h.kind, h.most, h.words⟩

/-- Once there is an answer to a read, its words are noted. -/
theorem Faithful.response {signal : Signal} {received : Option (List UInt32)}
    (h : Faithful words r old signal received) (hfetches : Fetches words r given old)
    (hnoted : old.answered = true → old.response = some given)
    (hanswered : (old.noted signal received).answered = true) :
    (old.noted signal received).response = some given := by
  rcases h with ⟨rfl, rfl⟩ | ⟨rfl, hreceived⟩
  · refine hnoted ?_
    simpa [Command.noted] using hanswered
  · rw [hreceived given hfetches]
    rfl

/-- **A signal for the attempt in the slot** is noted there, or ends the attempt with the words that
it reads. -/
theorem Stored.serves_signal {signal : Signal} {received : Option (List UInt32)} (h : e.Stored)
    (hc : e.Holds r x old) (hfaithful : Faithful words r old signal received)
    (he' : e' = (e.push [.handled]).signal r x old.generation signal received)
    (houtline : e'.outline = e.outline) (hnaps : e'.naps = e.naps)
    (hloose : ∀ t ∈ chores, t.isLoose = true) :
    ∃ added, e'.stack = added ++ e.stack ∧ e.Serves e' words r chores (added ++ chores) := by
  have h₁ : (e.push [.handled]).Stored := h.restack _
  have hs : (e.push [.handled]).slotOf? r = some (x, old) := hc.slotOf?
  have hmem : x ∈ (e.queue r).members := Queue.mem_members.2 (.inl hc.1)
  have same {c : CommandRef} (hne : c ≠ x) : e'.command? c = e.command? c := by
    rw [he', command?_signal_of_ne hne]
    rfl
  have apart {c : CommandRef} (hc' : c ∉ (e.queue r).members) : c ≠ x := by
    rintro rfl
    exact hc' hmem
  have detached (f : Framed (e.push [.handled]) e') :
      (e'.router? r).map Router.detached = (e.router? r).map Router.detached := by
    have hcore := congrArg (Option.map Router.detached) (f.routers r)
    simp only [Option.map_map] at hcore
    exact hcore
  rcases h₁.signal_spec hs signal received with
    ⟨hfirst, changed, hstack⟩ | ⟨hsecond, changed, hstack⟩
  · rw [← he'] at changed hstack
    have hmembers : (e'.queue r).members = (e.queue r).members := changed.members r
    refine ⟨[.handled], hstack, List.forall_mem_cons.2 ⟨rfl, hloose⟩, houtline,
      fun hready => hready.kept hnaps (detached changed.toFramed), fun hminded front hf => ?_,
      Nat.le_of_eq (congrArg List.length hmembers), fun c given hp => ?_, fun c given hp => .inl ?_,
      fun c given hp => ?_⟩
    · have hsame : e'.front? r = e.front? r := by
        rw [he', signal_noted hs (h₁.isComplete_of_slot hs) hfirst]
        rfl
      exact fun hfree => (hminded front (hsame ▸ hf) hfree).imp id (List.mem_cons_of_mem _)
    · obtain ⟨hunqueued, hmade⟩ := hp
      rw [← same (apart hunqueued)] at hmade
      exact ⟨hmembers ▸ hunqueued, hmade⟩
    · obtain ⟨hqueued, command, hcommand, hfetches, hpoll, hnoted⟩ := hp
      refine ⟨hmembers ▸ hqueued, ?_⟩
      by_cases hne : c = x
      · subst hne
        cases hc.2.symm.trans hcommand
        exact ⟨_, changed.after, hfetches.noted signal received, hpoll,
          hfaithful.response hfetches hnoted⟩
      · exact ⟨command, (same hne).trans hcommand, hfetches, hpoll, hnoted⟩
    · obtain ⟨hunqueued, hended⟩ := hp
      rw [← same (apart hunqueued)] at hended
      exact ⟨hmembers ▸ hunqueued, hended⟩
  · rw [← he'] at changed hstack
    have hmembers : (e'.queue r).members = (e.queue r).members.erase x := changed.members r
    have unqueued {c : CommandRef} (hc' : c ∉ (e.queue r).members) :
        c ∉ (e'.queue r).members := fun hmem' =>
      hc' (List.mem_of_mem_erase (hmembers ▸ hmem'))
    have hnotes := Task.isLoose_notes old
      (.completed ((old.noted signal received).response.getD []))
    have hstack' : e'.stack = (old.notes
        (.completed ((old.noted signal received).response.getD [])) ++
          [Task.drain r, Task.kick, Task.hold [r] [x], Task.handled]) ++ e.stack := by
      rw [hstack]
      simp [push]
    refine ⟨_, hstack', List.forall_mem_append.2 ⟨List.forall_mem_append.2 ⟨hnotes, ?_⟩, hloose⟩,
      houtline, fun hready => hready.kept hnaps (detached changed.toFramed),
      fun _ front _ _ => .inr ?_, ?_, fun c given hp => ?_, fun c given hp => ?_,
      fun c given hp => ?_⟩
    · simp [Task.isLoose, Task.isQuiet]
    · simp
    · rw [hmembers]
      exact List.length_erase_le
    · obtain ⟨hunqueued, hmade⟩ := hp
      rw [← same (apart hunqueued)] at hmade
      exact ⟨unqueued hunqueued, hmade⟩
    · obtain ⟨hqueued, command, hcommand, hfetches, hpoll, hnoted⟩ := hp
      by_cases hne : c = x
      · subst hne
        cases hc.2.symm.trans hcommand
        have hanswered : (old.noted signal received).answered = true :=
          (Bool.and_eq_true_iff.1 hsecond).2
        have hresponse := hfaithful.response hfetches hnoted hanswered
        refine .inr ⟨fun hmem' => ?_, _, changed.after, ⟨hfetches.node, hfetches.kind,
          hfetches.most, hfetches.words⟩, ?_⟩
        · rw [hmembers] at hmem'
          exact ((h.orderly r).nodup.mem_erase_iff.1 hmem').1 rfl
        · rw [hresponse]
          rfl
      · refine .inl ⟨?_, command, (same hne).trans hcommand, hfetches, hpoll, hnoted⟩
        rw [hmembers]
        exact (List.mem_erase_of_ne hne).2 hqueued
    · obtain ⟨hunqueued, hended⟩ := hp
      rw [← same (apart hunqueued)] at hended
      exact ⟨unqueued hunqueued, hended⟩

/-! ## Every served move -/

/-- **A served move above the task of a caller** only adds to what is to be done before that task,
or does some of it; and an attempt on the router that ends meanwhile ends with the words that it
reads. -/
theorem Served.serves (h : Run settings turns e) (hq : e.Served words r m)
    (hm : e.move? m = some e') (hs : e.stack = chores ++ task :: below)
    (hloose : ∀ t ∈ chores, t.isLoose = true) :
    (∃ chores', e'.stack = chores' ++ task :: below ∧ e.Serves e' words r chores chores') ∨
      chores = [] ∧ (∀ arrival, m ≠ .receive arrival) ∧ ∀ ms, m ≠ .elapse ms := by
  have hstored := h.sound.toStored
  have hcall : ∀ call, m ≠ .call call := by
    rintro call rfl
    exact hq
  have hgrant : ∀ answer, m = .grant answer → answer = .ok () := by
    rintro answer rfl
    exact hq
  -- a move that is for no attempt on the router
  have errand (hkept : e'.outline = e.outline ∧ e'.naps = e.naps)
      (hreceive : ∀ arrival, m = .receive arrival → e.Bypasses (e.receive arrival) r)
      (hnot : ¬ (chores = [] ∧ (∀ arrival, m ≠ .receive arrival) ∧ ∀ ms, m ≠ .elapse ms)) :
      ∃ chores', e'.stack = chores' ++ task :: below ∧ e.Serves e' words r chores chores' := by
    obtain ⟨chores', hs', x⟩ :=
      (hstored.errand_of_receive hcall hgrant hreceive hm hs hloose).resolve_right hnot
    exact ⟨chores', hs', x.serves hkept.1 hkept.2⟩
  cases m with
  | receive arrival =>
    obtain rfl := receive_of_receive hm
    have houtline := outline_receive e arrival
    have hnaps := naps_receive e arrival
    by_cases hno : ∀ c, ¬ e.Concerns r c arrival
    · refine .inl (errand ⟨houtline, hnaps⟩ ?_ fun ⟨_, hreceive, _⟩ => hreceive arrival rfl)
      rintro _ ⟨⟩
      exact hstored.bypasses_unconcerned hno
    · simp only [not_forall, not_not] at hno
      obtain ⟨x, hconcerns⟩ := hno
      obtain ⟨old, signal, received, hc, he', hfaithful⟩ := hq.signal h hconcerns
      obtain ⟨added, hstack, serves⟩ :=
        hstored.serves_signal hc hfaithful he' houtline hnaps hloose
      exact .inl ⟨added ++ chores, by rw [hstack, hs, List.append_assoc], serves⟩
  | elapse ms =>
    cases hm
    exact .inl (errand ⟨rfl, rfl⟩ nofun fun ⟨_, _, helapse⟩ => helapse ms rfl)
  | proceed | grant | back | giveUp | collect | call =>
    cases chores with
    | nil => exact .inr ⟨rfl, nofun, nofun⟩
    | cons t rest =>
      have ht : t.isLoose = true := hloose t List.mem_cons_self
      exact .inl (errand (kept_of_loose hm hcall hs ht) nofun fun ⟨hnil, _⟩ => by cases hnil)

end Engine

end RouterFabric
