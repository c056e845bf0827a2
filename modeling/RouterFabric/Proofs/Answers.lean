import Mathlib.Data.List.Perm.Subperm
import RouterFabric.Proofs.Attempts
import RouterFabric.Proofs.Engine.Endings

/-!
# What is taken for an answer

A response tells only the route, the type and two bits of the number of the request it answers, and
is taken for the answer to whatever holds the slot. As long as an attempt lasts, the words noted for
it are those of the response that was taken last.

* `Honest` : every response answers a request of its own
* `answerOf` : the response that stands for the answer to a command's current attempt
* `Run.ended_by` : the words that an attempt ends with are those of that response
-/

namespace RouterFabric

open Engine

variable {settings : Settings} {turns : List Turn} {e e' : Engine} {m : Move} {r : RouterRef}
  {c : CommandRef} {command old : Command} {words : List UInt32}

/-! ## Responses -/

/-- A response as it is delivered. -/
structure Response where
  echo : Echo
  data : List UInt32
  deriving DecidableEq, Repr

/-- The words that a response has for a command. -/
def Response.wordsFor (response : Response) (command : Command) : List UInt32 :=
  match command.kind with
  | .read => response.data.take command.address.dwords
  | .write => []

/-- The response that is delivered in a turn. -/
def Turn.delivers? (turn : Turn) : Option Response :=
  match turn.move with
  | .receive (.received .notify _ _) => none
  | .receive (.received .hotplug _ _) => none
  | .receive (.received _ label bytes) =>
    (response? label bytes).map fun (route, address, data) => ⟨⟨label, route, address⟩, data⟩
  | _ => none

/-- The responses delivered, the latest first. -/
def responses (turns : List Turn) : List Response :=
  turns.filterMap Turn.delivers?

/-- The far end answers what has been handed to it, and each request at most once; an answer repeats
the route and the address of its request. -/
def Honest : List Turn → Prop
  | [] => True
  | turn :: earlier =>
    ((responses (turn :: earlier)).map (·.echo)).Subperm ((handed earlier).map (·.echo)) ∧
      Honest earlier

instance decidableHonest : (turns : List Turn) → Decidable (Honest turns)
  | [] => isTrue trivial
  | _ :: earlier =>
    have := decidableHonest earlier
    inferInstanceAs (Decidable (List.Subperm _ _ ∧ _))

/-- The command in whose slot a response is taken for the answer, and that response. -/
def Turn.takes? (turn : Turn) : Option (CommandRef × Response) :=
  match turn.delivers? with
  | none => none
  | some response =>
    match turn.before.topology.lookup response.echo.route with
    | .error _ => none
    | .ok r =>
      match turn.before.slotOf? r with
      | none => none
      | some (c, command) =>
        if command.kind.packetType = response.echo.label ∧
            command.seq = response.echo.address.seq then
          some (c, response)
        else
          none

/-- The response that was taken last for the answer to a command's current attempt. -/
def answerOf : List Turn → CommandRef → Option Response
  | [], _ => none
  | turn :: earlier, c =>
    if turn.begins c then
      none
    else
      match turn.takes? with
      | some (c', response) => if c' = c then some response else answerOf earlier c
      | none => answerOf earlier c

/-- The attempt in the slot of a router ends with these words. -/
def Turn.Completes (turn : Turn) (r : RouterRef) (c : CommandRef) (words : List UInt32) : Prop :=
  (turn.before.queue r).slot = some c ∧ ∃ command, turn.after.command? c = some command ∧
    command.pollComplete = true ∧ command.ending = some (.completed words)

/-! ## Responses in slots -/

section

variable {turn : Turn} {response : Response}

theorem delivers?_spec (h : turn.delivers? = some response) :
    ∃ channel bytes, turn.move = .receive (.received channel response.echo.label bytes) ∧
      channel ≠ .notify ∧ channel ≠ .hotplug ∧
      response? response.echo.label bytes =
        some (response.echo.route, response.echo.address, response.data) := by
  unfold Turn.delivers? at h
  split at h
  · cases h
  · cases h
  · rename_i channel label bytes hn hh hmove
    obtain ⟨⟨route, address, data⟩, hresponse, rfl⟩ := Option.map_eq_some_iff.1 h
    exact ⟨channel, bytes, hmove, hn, hh, hresponse⟩
  · cases h

theorem takes?_eq_some (h : turn.takes? = some (c, response)) :
    turn.delivers? = some response ∧ ∃ r command,
      turn.before.topology.lookup response.echo.route = .ok r ∧
      turn.before.slotOf? r = some (c, command) ∧
      command.kind.packetType = response.echo.label ∧ command.seq = response.echo.address.seq := by
  unfold Turn.takes? at h
  split at h
  · cases h
  · rename_i delivered hdelivered
    split at h
    · cases h
    · rename_i r hl
      split at h
      · cases h
      · rename_i c' command hs
        split at h
        · rename_i hmatch
          cases h
          exact ⟨hdelivered, r, command, hl, hs, hmatch⟩
        · cases h

/-- The words of a response as they are noted for a command. -/
def Response.received (response : Response) (command : Command) : Option (List UInt32) :=
  match command.kind with
  | .read => some (response.data.take command.address.dwords)
  | .write => none

/-- A signal that the attempt in a slot was answered is a response that is taken for the answer. -/
theorem takes?_of_signalled (e' : Engine) {received : Option (List UInt32)}
    (s : Signalled e r old m .answered received) (hslot : (e.queue r).slot = some c)
    (hc : e.command? c = some old) : ∃ response, Turn.takes? ⟨e, m, e'⟩ = some (c, response) ∧
      received = response.received old := by
  cases s with
  | @answered channel bytes route address data hn hh hresponse hl hseq =>
    refine ⟨⟨⟨old.kind.packetType, route, address⟩, data⟩, ?_, rfl⟩
    have hdelivers :
        Turn.delivers? ⟨e, .receive (.received channel old.kind.packetType bytes), e'⟩ =
          some ⟨⟨old.kind.packetType, route, address⟩, data⟩ := by
      cases channel with
      | notify => exact absurd rfl hn
      | hotplug => exact absurd rfl hh
      | read | write => simp [Turn.delivers?, hresponse]
    unfold Turn.takes?
    simp [hdelivers, hl, slotOf?_of_slot hslot hc, hseq]

theorem takes?_of_sent (e' : Engine) {received : Option (List UInt32)}
    (s : Signalled e r old m .sent received) :
    Turn.takes? ⟨e, m, e'⟩ = none ∧ received = none := by
  cases s with
  | sent context => exact ⟨rfl, rfl⟩

/-- A look-up finds a router of the route asked for. -/
theorem route_of_lookup {route : Route} (h : e.Stored) (hl : e.topology.lookup route = .ok r) :
    ∃ router, e.router? r = some router ∧ router.route = route := by
  unfold Topology.lookup at hl
  split at hl
  · cases hl
  · rename_i id hid
    obtain ⟨node, hn, hroute⟩ := RouterTree.lookup_route h.tree hid
    split at hl
    · rename_i r' hget
      cases hl
      have hplace : e.topology.tree.place? id = some (node.value, node.route, node.parent) := by
        unfold RouterTree.place?
        rw [hn]
        rfl
      obtain ⟨-, router, hr, hsame⟩ := h.places id _ _ _ hplace
      rw [RouterTree.get?_eq_place, hplace] at hget
      cases hget
      exact ⟨router, hr, hsame.trans hroute⟩
    · cases hl

/-- A response that is taken for the answer to the attempt in a slot is noted there, or ends the
attempt. -/
theorem Run.takes?_spec (h : Run settings turns e) (hm : e.move? m = some e')
    (ht : Turn.takes? ⟨e, m, e'⟩ = some (c, response)) :
    ∃ r old, (e.queue r).slot = some c ∧ e.command? c = some old ∧
      response.echo.label = old.kind.packetType ∧ response.echo.route = old.route ∧
      response.echo.address.seq = old.seq ∧
      (e.Changed e' c old (old.noted .answered (response.received old)) false ∨
        ∃ new, e.Changed e' c old new true) := by
  obtain ⟨hdelivers, r, old, hl, hs, hlabel, hseq⟩ := takes?_eq_some ht
  obtain ⟨channel, bytes, hmove, hn, hh, hresponse⟩ := delivers?_spec hdelivers
  obtain ⟨router, hr, hslot, hc⟩ := slotOf?_eq_some hs
  have hstored := h.sound.toStored
  have hslot : (e.queue r).slot = some c := slot_of_slotOf? hs
  refine ⟨r, old, hslot, hc, hlabel.symm, ?_, hseq.symm, ?_⟩
  · obtain ⟨router', hr', hroute⟩ := route_of_lookup hstored hl
    obtain ⟨old', hc', ⟨-, router'', hr'', hsame⟩, -⟩ :=
      hstored.members r c (Queue.mem_members.2 (.inl hslot))
    have hold : old = old' := Option.some.inj (hc.symm.trans hc')
    have hrouter : router' = router'' := Option.some.inj (hr'.symm.trans hr'')
    rw [hold, hsame, ← hrouter, hroute]
  · have hpush := hstored.of_alike (hstored.alike_push [.handled])
    have hs' : (e.push [.handled]).slotOf? r = some (c, old) := hs
    have hl' : (e.push [.handled]).topology.lookup response.echo.route = .ok r := hl
    have hreceive : e' =
        (e.push [.handled]).signal r c old.generation .answered (response.received old) := by
      simp only at hmove
      subst hmove
      rw [receive_of_receive hm]
      have hon : e.receive (.received channel response.echo.label bytes) =
          (e.push [.handled]).onResponse response.echo.label bytes := by
        cases channel with
        | notify => exact absurd rfl hn
        | hotplug => exact absurd rfl hh
        | read | write => rfl
      rw [hon]
      unfold onResponse
      simp only [hresponse, hl', hs']
      rw [if_pos ⟨hlabel, hseq⟩]
      rfl
    rcases hpush.signal_spec hs' .answered (response.received old) with
      ⟨-, changed, -⟩ | ⟨-, changed, -⟩
    · rw [hreceive]
      exact .inl changed.restacked
    · rw [hreceive]
      exact .inr ⟨_, changed.restacked⟩

end

/-! ## The answer to an attempt -/

/-- The response stands for the answer to a command's current attempt. -/
structure Backs (turns : List Turn) (c : CommandRef) (command : Command) (response : Response) :
    Prop where
  latest : answerOf turns c = some response
  label : response.echo.label = command.kind.packetType
  route : response.echo.route = command.route
  seq : response.echo.address.seq = command.seq
  asked : ∃ q ∈ handed turns, q.echo = response.echo

/-- As long as an attempt is not answered there are no words; then they are those of a response that
stands for the answer. -/
def Grounded (turns : List Turn) (c : CommandRef) (command : Command) : Prop :=
  command.answered = false ∧ command.response = none ∨
    command.answered = true ∧ ∃ response, Backs turns c command response ∧
      command.response.getD [] = response.wordsFor command

section

variable {turn : Turn} {response : Response}

theorem Grounded.words_noted (h : Grounded turns c old) (response : Response) :
    (old.noted .answered (response.received old)).response.getD [] = response.wordsFor old := by
  cases hkind : old.kind with
  | read => simp [Command.noted, Response.received, Response.wordsFor, hkind]
  | write =>
    have hnone : old.response.getD [] = [] := by
      rcases h with ⟨-, hnone⟩ | ⟨-, earlier, -, hwords⟩
      · rw [hnone]
        rfl
      · rw [hwords]
        simp [Response.wordsFor, hkind]
    simp [Command.noted, Response.received, Response.wordsFor, hkind, hnone]

theorem mem_handed {q : Handing} (hq : q ∈ handed turns) : q ∈ handed (turn :: turns) := by
  unfold handed
  split
  · exact List.mem_cons_of_mem _ hq
  · exact hq

theorem answerOf_of_kept (hattempt : e'.attempt c = e.attempt c)
    (ht : ∀ response, Turn.takes? ⟨e, m, e'⟩ ≠ some (c, response)) :
    answerOf (⟨e, m, e'⟩ :: turns) c = answerOf turns c := by
  have hbegins : Turn.begins ⟨e, m, e'⟩ c = false := by simp [Turn.begins, hattempt]
  rw [answerOf, hbegins, if_neg Bool.false_ne_true]
  split
  · rename_i c' response htakes
    refine if_neg ?_
    rintro rfl
    exact ht response htakes
  · rfl

theorem answerOf_of_taken (hattempt : e'.attempt c = e.attempt c)
    (ht : Turn.takes? ⟨e, m, e'⟩ = some (c, response)) :
    answerOf (⟨e, m, e'⟩ :: turns) c = some response := by
  have hbegins : Turn.begins ⟨e, m, e'⟩ c = false := by simp [Turn.begins, hattempt]
  rw [answerOf, hbegins, if_neg Bool.false_ne_true, ht]
  exact if_pos rfl

theorem Backs.of_kept (h : Backs turns c old response) (hmade : command.made = old.made)
    (hseq : command.seq = old.seq) (ha : answerOf (turn :: turns) c = answerOf turns c) :
    Backs (turn :: turns) c command response where
  latest := ha.trans h.latest
  label := h.label.trans (congrArg (·.kind.packetType) hmade).symm
  route := h.route.trans (congrArg (·.route) hmade).symm
  seq := h.seq.trans hseq.symm
  asked := h.asked.imp fun _ hq => ⟨mem_handed hq.1, hq.2⟩

theorem Grounded.of_kept (h : Grounded turns c old) (hs : command.substance = old.substance)
    (ha : answerOf (turn :: turns) c = answerOf turns c) : Grounded (turn :: turns) c command := by
  have hanswered : command.answered = old.answered := congrArg (·.answered) hs
  have hresponse : command.response = old.response := congrArg (·.response) hs
  have hkind : command.kind = old.kind := congrArg (·.kind) hs
  have haddress : command.address = old.address := congrArg (·.address) hs
  unfold Grounded Response.wordsFor
  rw [hanswered, hresponse, hkind, haddress]
  rcases h with hwaits | ⟨hdone, response, backs, hwords⟩
  · exact .inl hwaits
  · exact .inr ⟨hdone, response,
      backs.of_kept (Command.made_of_substance hs) (congrArg (·.seq) hs) ha, hwords⟩

/-- That the transfer is over says nothing about the answer. -/
theorem Grounded.of_sent (h : Grounded turns c old)
    (ha : answerOf (turn :: turns) c = answerOf turns c) :
    Grounded (turn :: turns) c (old.noted .sent none) := by
  rcases h with ⟨hanswered, hresponse⟩ | ⟨hanswered, response, backs, hwords⟩
  · exact .inl ⟨by simp [Command.noted, hanswered], hresponse⟩
  · exact .inr ⟨by simp [Command.noted, hanswered], response, backs.of_kept rfl rfl ha, hwords⟩

theorem Grounded.of_answered (h : Grounded turns c old)
    (backs : Backs (turn :: turns) c old response) :
    Grounded (turn :: turns) c (old.noted .answered (response.received old)) :=
  .inr ⟨Bool.or_true _, response,
    ⟨backs.latest, backs.label, backs.route, backs.seq, backs.asked⟩, h.words_noted response⟩

theorem Honest.asked (h : Honest (turn :: turns)) (hd : turn.delivers? = some response) :
    ∃ q ∈ handed turns, q.echo = response.echo := by
  have hmem : response ∈ responses (turn :: turns) :=
    List.mem_filterMap.2 ⟨turn, List.mem_cons_self, hd⟩
  exact List.mem_map.1 (h.1.subset (List.mem_map_of_mem hmem))

end

/-- The words that are noted for the attempts in the queues are those of responses. -/
theorem Run.grounded (h : Run settings turns e) (honest : Honest turns) :
    ∀ c command, e.Queued c → e.command? c = some command → Grounded turns c command := by
  induction h with
  | start =>
    intro c command _ hc
    rw [command?_opening] at hc
    cases hc
  | @next turns e e' m prior ha hm ih =>
    intro c command hq hc
    have hstored := prior.sound.toStored
    have ih := ih honest.2
    -- a command that nothing is taken for, as it was before
    have kept (hbefore : e.Queued c)
        (hs : (e'.command? c).map Command.substance = (e.command? c).map Command.substance)
        (ht : ∀ response, Turn.takes? ⟨e, m, e'⟩ ≠ some (c, response)) :
        Grounded (⟨e, m, e'⟩ :: turns) c command := by
      obtain ⟨old, hold, hsub⟩ := exists_of_map_eq hs.symm hc
      exact (ih c old hbefore hold).of_kept hsub.symm
        (answerOf_of_kept (attempt_of_substance hs) ht)
    by_cases htakes : ∃ response, Turn.takes? ⟨e, m, e'⟩ = some (c, response)
    · obtain ⟨response, ht⟩ := htakes
      obtain ⟨r, old, hslot, hold, hlabel, hroute, hseq, changed | ⟨new, changed⟩⟩ :=
        prior.takes?_spec hm ht
      · rw [changed.after] at hc
        cases hc
        have hbacks : Backs (⟨e, m, e'⟩ :: turns) c old response :=
          ⟨answerOf_of_taken (attempt_of_noted changed c) ht, hlabel, hroute, hseq,
            (honest.asked (takes?_eq_some ht).1).imp fun q hq => ⟨mem_handed hq.1, hq.2⟩⟩
        exact (ih c old (changed.queued hq) hold).of_answered hbacks
      · exact absurd hq (changed.not_queued hstored)
    · have hnone : ∀ response, Turn.takes? ⟨e, m, e'⟩ ≠ some (c, response) :=
        fun response ht => htakes ⟨response, ht⟩
      rcases prior.sound.attempts ha hm with
        s | ⟨r, c', k⟩ | ⟨r, c', old, signal, received, hslot, s, a⟩
      · exact kept (s.queued hq) (s.commands c hq) hnone
      · by_cases hne : c = c'
        · subst hne
          obtain ⟨hanswered, hresponse, -⟩ := k.current command hc
          exact .inl ⟨hanswered, hresponse⟩
        · exact kept (k.queued hq hne) (k.others c hne) hnone
      · by_cases hne : c = c'
        · subst hne
          cases signal with
          | answered =>
            obtain ⟨response, htakes, -⟩ := takes?_of_signalled e' s hslot a.before
            exact absurd htakes (hnone response)
          | sent =>
            obtain ⟨-, rfl⟩ := takes?_of_sent e' s
            rw [a.after] at hc
            cases hc
            exact (ih c old (a.queued hq) a.before).of_sent
              (answerOf_of_kept (attempt_of_noted a c) hnone)
        · exact kept (a.queued hq) (a.others c hne).substance hnone

/-! ## The response that ends an attempt -/

theorem Run.closes (h : Run settings turns e) (ha : ∀ call, m = .call call → e.Allows call)
    (hm : e.move? m = some e') (hc : e'.command? c = some command) : Closes e m e' c command := by
  cases h.moved ha hm with
  | inner hcall hcollect k => exact h.sound.closes_inner k hc
  | called k => exact (mute_called k).closes hc
  | collected result below he he' a => exact a.mute.closes hc

/-- An attempt that ends with words ends with those of the response that stands for its answer. -/
theorem Run.ended_by (h : Run settings turns e) (honest : Honest (⟨e, m, e'⟩ :: turns))
    (ha : ∀ call, m = .call call → e.Allows call) (hm : e.move? m = some e')
    (hdone : Turn.Completes ⟨e, m, e'⟩ r c words) :
    ∃ old command response, e.command? c = some old ∧ e'.command? c = some command ∧
      command.made = old.made ∧ Backs (⟨e, m, e'⟩ :: turns) c old response ∧
      words = response.wordsFor old ∧ ∃ q ∈ handed turns, q.echo = response.echo := by
  obtain ⟨hslot, command, hc, hpoll, hending⟩ := hdone
  obtain ⟨old, finishes⟩ := (h.closes ha hm hc).finishes h.sound.toStored hslot hpoll hending
  obtain ⟨signal, received, s, hcomplete, hwords⟩ := finishes.signalled
  obtain ⟨new, hnew, hmade, hgeneration, hseq, -⟩ := finishes.after
  have hattempt : e'.attempt c = e.attempt c := by
    rw [attempt_of_command hnew, attempt_of_command finishes.before, hgeneration, hseq]
  have hgrounded := h.grounded honest.2 c old ⟨r, Queue.mem_members.2 (.inl hslot)⟩ finishes.before
  refine ⟨old, new, ?_⟩
  cases signal with
  | sent =>
    obtain ⟨hnone, rfl⟩ := takes?_of_sent e' s
    have hanswered : old.answered = true := by
      have hboth : (true && (old.answered || false)) = true := by
        simpa [Command.isComplete, Command.noted] using hcomplete
      simpa using hboth
    rcases hgrounded with ⟨hwaits, -⟩ | ⟨-, response, backs, hresponse⟩
    · rw [hwaits] at hanswered
      cases hanswered
    · obtain ⟨q, hq, hecho⟩ := backs.asked
      refine ⟨response, finishes.before, hnew, hmade, ⟨?_, backs.label, backs.route, backs.seq, q,
        mem_handed hq, hecho⟩, hwords.trans hresponse, q, hq, hecho⟩
      rw [answerOf_of_kept hattempt fun response heq => ?_]
      · exact backs.latest
      · rw [hnone] at heq
        cases heq
  | answered =>
    obtain ⟨response, htakes, rfl⟩ := takes?_of_signalled e' s hslot finishes.before
    obtain ⟨r', old', -, hold', hlabel, hroute, hseq', -⟩ := h.takes?_spec hm htakes
    rw [finishes.before] at hold'
    cases hold'
    obtain ⟨q, hq, hecho⟩ := honest.asked (takes?_eq_some htakes).1
    have hbacks : Backs (⟨e, m, e'⟩ :: turns) c old response :=
      ⟨answerOf_of_taken hattempt htakes, hlabel, hroute, hseq', q, mem_handed hq, hecho⟩
    exact ⟨response, finishes.before, hnew, hmade, hbacks,
      hwords.trans (hgrounded.words_noted response), q, hq, hecho⟩

end RouterFabric
