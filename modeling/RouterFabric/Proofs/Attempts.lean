import RouterFabric.Proofs.Run

/-!
# The numbers of attempts

The attempts on a router are numbered in the order in which they begin. A request carries only the
last two bits of its number, but along a queue the numbers themselves increase, and an attempt that
has been handed to the transport has a smaller number than every attempt that waits behind it. So
whatever holds the slot after an attempt of another command, with the same two bits, is at least
four attempts younger.

* `numberOf` : the number of a command's current attempt
* `handed` : the attempts that have been handed to the transport
* `Run.numbered`, `Run.outrun` : how numbers lie along a queue, and how they follow what was handed
-/

namespace RouterFabric

/-- A command with the frame of another, and with the same request, has its request in its frame if
the other has. -/
theorem Command.frame_of_substance (command : Command) {old : Command}
    (h : command.substance = old.substance) (hframe : old.frame = old.request) :
    command.frame = command.request := by
  calc command.frame = old.frame := congrArg (·.frame) h
    _ = old.request := hframe
    _ = command.request := (congrArg Command.request h).symm

namespace Engine

variable {e e' mid : Engine} {m : Move} {r : RouterRef} {router : Router} {c c' : CommandRef}
  {old new : Command}

/-- The generation and the sequence number of a command's current attempt. -/
def attempt (e : Engine) (c : CommandRef) : Nat × Nat :=
  ((e.command? c).map fun command => (command.generation, command.seq)).getD (0, 0)

/-- The router that a command was made for. -/
def home (e : Engine) (c : CommandRef) : RouterRef :=
  ((e.command? c).map fun command => ⟨command.node.number⟩).getD ⟨0⟩

theorem attempt_of_command (h : e.command? c = some old) :
    e.attempt c = (old.generation, old.seq) := by
  unfold attempt
  rw [h]
  rfl

theorem attempt_of_substance
    (h : (e'.command? c).map Command.substance = (e.command? c).map Command.substance) :
    e'.attempt c = e.attempt c := by
  have read (command? : Option Command) :
      command?.map (fun command => (command.generation, command.seq)) =
        (command?.map Command.substance).map fun command => (command.generation, command.seq) := by
    cases command? <;> rfl
  unfold attempt
  rw [read (e'.command? c), h, ← read]

/-- The frame of a command holds the request of its current attempt. -/
def Filled (e : Engine) (c : CommandRef) : Prop :=
  ∃ command, e.command? c = some command ∧ command.frame = command.request

theorem Filled.eq (h : e.Filled c) (hc : e.command? c = some old) : old.frame = old.request := by
  obtain ⟨command, hc', hframe⟩ := h
  cases hc'.symm.trans hc
  exact hframe

theorem Filled.of_substance (h : e.Filled c)
    (hs : (e'.command? c).map Command.substance = (e.command? c).map Command.substance) :
    e'.Filled c := by
  obtain ⟨command, hc, hframe⟩ := h
  obtain ⟨command', hc', hsub⟩ := exists_of_map_eq hs hc
  exact ⟨command', hc', command'.frame_of_substance hsub hframe⟩

theorem Filled.of_kept (h : e.Filled c) (hc : e'.command? c = e.command? c) : e'.Filled c := by
  unfold Filled
  rw [hc]
  exact h

theorem home_of_owns (h : e.command? c = some old) (ho : e.Owns r old) : e.home c = r := by
  unfold home
  rw [h, Engine.ref_eq_iff]
  exact congrArg (·.number) ho.1

/-! ## What becomes of an attempt in a turn -/

/-- No attempt has begun, what is in a queue is in the midst of the attempt it was in, and every
frame has kept its request. -/
structure Steady (e e' : Engine) : Prop where
  begun : ∀ r, e'.begunOn r = e.begunOn r
  members : ∀ r, (e'.queue r).members.Sublist (e.queue r).members
  commands : ∀ c, e'.Queued c →
    (e'.command? c).map Command.substance = (e.command? c).map Command.substance
  filled : ∀ c, e.Filled c → e'.Filled c

/-- An attempt of a command has begun on a router. -/
structure Commences (e e' : Engine) (r : RouterRef) (c : CommandRef) : Prop where
  fresh : ¬ e.Queued c
  begun : ∀ r', e'.begunOn r' = if r = r' then e.begunOn r + 1 else e.begunOn r'
  members : ∀ r', (e'.queue r').members = (e.queue r').members ∨
    r = r' ∧ (e'.queue r').members = (e.queue r').members ++ [c]
  attempt : e'.attempt c = ((e.attempt c).1 + 1, e.begunOn r % 4)
  home : e'.home c = r
  current : ∀ command, e'.command? c = some command →
    command.answered = false ∧ command.response = none ∧ command.frame = command.request
  others : ∀ c', c' ≠ c →
    (e'.command? c').map Command.substance = (e.command? c').map Command.substance

theorem Alike.steady (a : e.Alike e') : e.Steady e' where
  begun := a.begun
  members r := by rw [a.members]
  commands c _ := (a.commands c).substance
  filled c h := h.of_substance (a.commands c).substance

theorem Steady.queued (s : e.Steady e') (hq : e'.Queued c) : e.Queued c := by
  obtain ⟨r, hm⟩ := hq
  exact ⟨r, (s.members r).subset hm⟩

theorem Steady.trans {e'' : Engine} (s : e.Steady e') (s' : e'.Steady e'') : e.Steady e'' where
  begun r := (s'.begun r).trans (s.begun r)
  members r := (s'.members r).trans (s.members r)
  commands c hq := (s'.commands c hq).trans (s.commands c (s'.queued hq))
  filled c h := s'.filled c (s.filled c h)

theorem Commences.queued (k : e.Commences e' r c) (hq : e'.Queued c') (hne : c' ≠ c) :
    e.Queued c' := by
  obtain ⟨r', hm'⟩ := hq
  rcases k.members r' with hm | ⟨rfl, hm⟩ <;> rw [hm] at hm'
  · exact ⟨r', hm'⟩
  · rcases List.mem_append.1 hm' with hm' | hm'
    · exact ⟨r, hm'⟩
    · exact absurd (List.mem_singleton.1 hm') hne

theorem Changed.filled {left : Bool} (a : e.Changed e' c old new left)
    (hframe : new.frame = old.frame) (hrequest : new.request = old.request) (h : e.Filled c') :
    e'.Filled c' := by
  by_cases hne : c' = c
  · subst hne
    exact ⟨new, a.after, by rw [hframe, hrequest, h.eq a.before]⟩
  · exact h.of_substance (a.others c' hne).substance

theorem Changed.steady (a : e.Changed e' c old new true) (h : e.Stored)
    (hframe : new.frame = old.frame) (hrequest : new.request = old.request) : e.Steady e' where
  begun := a.begun
  members r := by
    rw [a.members, if_pos rfl]
    exact List.erase_sublist
  commands c' hq := by
    refine (a.others c' ?_).substance
    rintro rfl
    exact a.not_queued h hq
  filled c' := a.filled hframe hrequest

theorem Forced.steady {cs : List (RouterRef × CommandRef)} (f : Forced e cs e') (h : e.Stored) :
    e.Steady e' := by
  induction f with
  | none a => exact a.steady
  | skip a _ ih => exact a.steady.trans (ih (h.of_alike a))
  | next _ hc _ ih => exact (hc.steady h rfl rfl).trans (ih (hc.passes_forced h).stored)

theorem Parted.steady (p : e.Parted e' r) : e.Steady e' where
  begun := p.begun
  members r := by rw [p.queues]
  commands c _ := by
    unfold command?
    rw [p.commands]
  filled c h := h.of_kept (congrArg (Commands.get? · c) p.commands)

theorem Cut.steady {rs : List RouterRef} (k : Cut e rs e') : e.Steady e' := by
  induction k with
  | none a => exact a.steady
  | next p _ ih => exact p.steady.trans ih

theorem Joined.steady {route : Route} {linked : Bool} (a : e.Joined e' route linked) :
    e.Steady e' where
  begun r := by
    unfold begunOn
    cases hr' : e'.router? r with
    | none =>
      cases hr : e.router? r with
      | none => rfl
      | some router =>
        rw [a.router_kept hr] at hr'
        cases hr'
    | some router =>
      rcases a.router_was hr' with hr | ⟨rfl, rfl⟩
      · rw [hr]
      · unfold router?
        simp
  members r := by rw [a.queue]
  commands c _ := by
    unfold command?
    rw [a.commands]
  filled c h := h.of_kept (congrArg (Commands.get? · c) a.commands)

theorem Added.steady (a : e.Added e' new) (h : e.Stored) : e.Steady e' where
  begun := a.begun
  members r := by rw [a.members]
  commands c hq := by
    have before : e.Queued c := by
      obtain ⟨r, hm⟩ := hq
      exact ⟨r, a.members r ▸ hm⟩
    have hsome : (e.command? c).isSome := Commands.get?_isSome_iff.2 (h.lt_of_queued before)
    obtain ⟨command, hc⟩ := Option.isSome_iff_exists.1 hsome
    rw [hc, a.command_kept hc]
  filled c h := by
    obtain ⟨command, hc, hframe⟩ := h
    exact ⟨command, a.command_kept hc, hframe⟩

theorem Commences.filled (k : e.Commences e' r c) (hc : (e'.command? c).isSome) : e'.Filled c := by
  obtain ⟨command, hc'⟩ := Option.isSome_iff_exists.1 hc
  exact ⟨command, hc', (k.current command hc').2.2⟩

/-- Every frame has kept its request, or has got that of the next attempt. -/
theorem Commences.keeps (k : e.Commences e' r c) (x : e.Extends e') (h : e.Filled c') :
    e'.Filled c' := by
  by_cases hne : c' = c
  · subst hne
    obtain ⟨command, hc, -⟩ := h
    obtain ⟨command', hc', -⟩ := x.commands c' command hc
    exact k.filled (Option.isSome_iff_exists.2 ⟨command', hc'⟩)
  · exact h.of_substance (k.others c' hne)

theorem Begun.commences (a : e.Begun e' r c router old) (hq : ¬ e.Queued c) (ho : e.Owns r old) :
    e.Commences e' r c := by
  obtain ⟨new, hnew, hsub, hending⟩ := a.after
  have hbegun : e.begunOn r = router.begun := by
    unfold begunOn
    rw [a.on]
    rfl
  have hgeneration : new.generation = old.generation + 1 := congrArg (·.generation) hsub
  have hseq : new.seq = router.begun % 4 := congrArg (·.seq) hsub
  have hmade : new.made = old.made := (Command.made_of_substance hsub).trans rfl
  refine ⟨hq, fun r' => ?_, fun r' => ?_, ?_, ?_, fun command hc => ?_, fun c' hne =>
    (a.others c' hne).substance⟩
  · rw [a.begun, hbegun]
  · rw [a.members]
    split
    · rename_i hnew
      exact .inr ⟨hnew.1, rfl⟩
    · exact .inl rfl
  · rw [attempt_of_command hnew, attempt_of_command a.before, hgeneration, hseq, hbegun]
  · exact home_of_owns hnew (a.extends.owns ho hmade)
  · rw [hnew] at hc
    cases hc
    exact ⟨congrArg (·.answered) hsub, congrArg (·.response) hsub,
      new.frame_of_substance hsub rfl⟩

/-- A new command whose first attempt begins at once. -/
theorem Added.commences (a : e.Added mid new) (b : mid.Begun e' r ⟨e.commands.length⟩ router new)
    (hgeneration : new.generation = 0) (h : e.Stored) (ho : e.Owns r new) :
    e.Commences e' r ⟨e.commands.length⟩ := by
  have hfresh := h.not_queued_next a
  have step := b.commences hfresh (a.extends.owns ho rfl)
  have hnone : e.command? ⟨e.commands.length⟩ = none := by
    unfold command? Commands.get?
    simp
  refine ⟨fun ⟨r', hm⟩ => hfresh ⟨r', a.members r' ▸ hm⟩, fun r' => ?_, fun r' => ?_, ?_, step.home,
    step.current, fun c' hne => (step.others c' hne).trans ?_⟩
  · rw [step.begun, a.begun, a.begun]
  · rw [← a.members]
    exact step.members r'
  · rw [step.attempt, a.begun, attempt_of_command a.command_new, hgeneration]
    unfold attempt
    rw [hnone]
    rfl
  · by_cases hlt : c'.index < e.commands.length
    · have hsome : (e.command? c').isSome := Commands.get?_isSome_iff.2 hlt
      obtain ⟨command, hc⟩ := Option.isSome_iff_exists.1 hsome
      rw [hc, a.command_kept hc]
    · have hlt' : ¬ c'.index < mid.commands.length := by
        intro hmid
        rw [a.commands, List.length_append, List.length_singleton] at hmid
        refine hne (Commands.ref_eq_iff.2 ?_)
        show c'.index = e.commands.length
        omega
      unfold command? Commands.get?
      rw [List.getElem?_eq_none (Nat.le_of_not_lt hlt),
        List.getElem?_eq_none (Nat.le_of_not_lt hlt')]

/-- What a move does to the attempts in the queues: nothing but that some may leave, or one begins,
or a first signal is noted for one. -/
theorem Sound.attempts_inner (h : e.Sound) (k : Inner e m e') :
    e.Steady e' ∨ (∃ r c, e.Commences e' r c) ∨
      ∃ r c old signal words, (e.queue r).slot = some c ∧ Signalled e r old m signal words ∧
        e.Changed e' c old (old.noted signal words) false := by
  have hstored := h.toStored
  cases k with
  | quiet | returned | finished | asked | resumed | dropped | unframed | exhausted | watched
  | settled | unclaimed | unregistered =>
    rename_i a
    exact .inl a.steady
  | expired | refused | completed | interrupted =>
    rename_i a
    exact .inl (a.steady hstored rfl rfl)
  | noted r c old signal words he' hslot signalled hdone a =>
    exact .inr (.inr ⟨r, c, old, signal, words, hslot, signalled, a⟩)
  | unlinked r next below he he' parted hm => exact .inl parted.steady
  | framed r command watching below he he' added => exact .inl (added.steady hstored)
  | issued r command style t mid router below he he' issued added begun =>
    obtain ⟨⟨-, howns, hmade⟩, -⟩ := h.tasks (.allocate r command style) (he ▸ List.mem_cons_self)
    refine .inr (.inl ⟨r, _, added.commences begun ?_ hstored howns⟩)
    rw [hmade]
    rfl
  | retried w watching left router old below he he' begun =>
    obtain ⟨⟨hattends, hfresh, -⟩, -⟩ := h.tasks (.attempt w) (he ▸ List.mem_cons_self)
    obtain ⟨-, command, hc, howns, -⟩ := hattends
    rw [begun.before] at hc
    cases hc
    exact .inr (.inl ⟨w.router, w.command, begun.commences hfresh howns⟩)
  | withdrawn w deadline mid old expired t tasks below he he' hquiet hfits ht hmem changed forced =>
    have hmid := (changed.passes hstored rfl (fun _ => id) nofun).stored
    exact .inl ((changed.steady hstored rfl rfl).trans (forced.steady hmid))
  | rooted linked t below he he' joined ht => exact .inl joined.steady

theorem Sound.steady_called {call : Call} (h : e.Sound) (k : Called e call e') : e.Steady e' := by
  cases k with
  | answered result hresult he' a => exact a.steady
  | operated r operation router settings hr he' a => exact a.steady
  | attached parent route linked t he' joined ht => exact joined.steady
  | detached r expired mid rs tasks result he' hquiet hfits forced cut hempty =>
    exact (forced.steady h.toStored).trans cut.steady

/-- What a move does to the attempts in the queues. -/
theorem Sound.attempts (h : e.Sound) (ha : ∀ call, m = .call call → e.Allows call)
    (hm : e.move? m = some e') : e.Steady e' ∨ (∃ r c, e.Commences e' r c) ∨
      ∃ r c old signal words, (e.queue r).slot = some c ∧ Signalled e r old m signal words ∧
        e.Changed e' c old (old.noted signal words) false := by
  cases h.moved ha hm with
  | inner hcall hcollect k => exact h.attempts_inner k
  | called k => exact .inl (h.steady_called k)
  | collected result below he he' a => exact .inl a.steady

end Engine

open Engine

variable {settings : Settings} {turns : List Turn} {e e' : Engine} {m : Move} {r : RouterRef}
  {c c' : CommandRef} {command : Command}

/-! ## Numbers -/

/-- Whether an attempt of the command begins in a turn. -/
def Turn.begins (turn : Turn) (c : CommandRef) : Bool :=
  (turn.before.attempt c).1 != (turn.after.attempt c).1

/-- The number of a command's current attempt: how many had begun on its router before. -/
def numberOf : List Turn → CommandRef → Nat
  | [], _ => 0
  | turn :: earlier, c =>
    if turn.begins c then turn.before.begunOn (turn.after.home c) else numberOf earlier c

theorem numberOf_of_attempt (h : e'.attempt c = e.attempt c) :
    numberOf (⟨e, m, e'⟩ :: turns) c = numberOf turns c := by
  simp [numberOf, Turn.begins, h]

theorem Engine.Commences.numberOf (k : e.Commences e' r c) :
    numberOf (⟨e, m, e'⟩ :: turns) c = e.begunOn r := by
  have hbegins : Turn.begins ⟨e, m, e'⟩ c = true := by
    simp [Turn.begins, k.attempt]
  rw [RouterFabric.numberOf, if_pos hbegins, k.home]

/-- In every queue the numbers increase from the slot on, below the number of the next attempt, and
each command carries the last two bits of its own. -/
structure Numbered (turns : List Turn) (e : Engine) : Prop where
  below : ∀ r, ∀ c ∈ (e.queue r).members, numberOf turns c < e.begunOn r
  rising : ∀ r, (e.queue r).members.Pairwise fun c c' => numberOf turns c < numberOf turns c'
  seq : ∀ c, e.Queued c → (e.attempt c).2 = numberOf turns c % 4

theorem Numbered.of_kept (h : Numbered turns e) (hbegun : ∀ r, e'.begunOn r = e.begunOn r)
    (hmembers : ∀ r, (e'.queue r).members.Sublist (e.queue r).members)
    (hattempt : ∀ c, e'.Queued c → e'.attempt c = e.attempt c) :
    Numbered (⟨e, m, e'⟩ :: turns) e' := by
  have same (r : RouterRef) : ∀ c ∈ (e'.queue r).members,
      numberOf (⟨e, m, e'⟩ :: turns) c = numberOf turns c :=
    fun c hc => numberOf_of_attempt (hattempt c ⟨r, hc⟩)
  refine ⟨fun r c hc => ?_, fun r => ?_, fun c hq => ?_⟩
  · rw [same r c hc, hbegun]
    exact h.below r c ((hmembers r).subset hc)
  · refine ((h.rising r).sublist (hmembers r)).imp_of_mem fun hc hc' hlt => ?_
    rw [same r _ hc, same r _ hc']
    exact hlt
  · obtain ⟨r, hc⟩ := hq
    rw [same r c hc, hattempt c ⟨r, hc⟩]
    exact h.seq c ⟨r, (hmembers r).subset hc⟩

theorem Numbered.of_commences (h : Numbered turns e) (k : e.Commences e' r c) :
    Numbered (⟨e, m, e'⟩ :: turns) e' := by
  have hnew : numberOf (⟨e, m, e'⟩ :: turns) c = e.begunOn r := k.numberOf
  have same (r' : RouterRef) : ∀ c' ∈ (e.queue r').members,
      e'.attempt c' = e.attempt c' ∧ numberOf (⟨e, m, e'⟩ :: turns) c' = numberOf turns c' := by
    intro c' hc'
    have hne : c' ≠ c := by
      rintro rfl
      exact k.fresh ⟨r', hc'⟩
    have hkept := attempt_of_substance (k.others c' hne)
    exact ⟨hkept, numberOf_of_attempt hkept⟩
  have bound (r' : RouterRef) : ∀ c' ∈ (e.queue r').members,
      numberOf (⟨e, m, e'⟩ :: turns) c' < e.begunOn r' := by
    intro c' hc'
    rw [(same r' c' hc').2]
    exact h.below r' c' hc'
  have rising (r' : RouterRef) : (e.queue r').members.Pairwise fun c₁ c₂ =>
      numberOf (⟨e, m, e'⟩ :: turns) c₁ < numberOf (⟨e, m, e'⟩ :: turns) c₂ := by
    refine (h.rising r').imp_of_mem fun hc₁ hc₂ hlt => ?_
    rw [(same r' _ hc₁).2, (same r' _ hc₂).2]
    exact hlt
  refine ⟨fun r' c' hc' => ?_, fun r' => ?_, fun c' hq => ?_⟩
  · rw [k.begun]
    rcases k.members r' with hm | ⟨rfl, hm⟩ <;> rw [hm] at hc'
    · have hlt := bound r' c' hc'
      split
      · rename_i hr
        subst hr
        omega
      · exact hlt
    · rw [if_pos rfl]
      rcases List.mem_append.1 hc' with hc' | hc'
      · have hlt := bound r c' hc'
        omega
      · rw [List.mem_singleton.1 hc', hnew]
        omega
  · rcases k.members r' with hm | ⟨rfl, hm⟩ <;> rw [hm]
    · exact rising r'
    · refine List.pairwise_append.2 ⟨rising r, List.pairwise_singleton _ c, fun c₁ hc₁ c₂ hc₂ => ?_⟩
      rw [List.mem_singleton.1 hc₂, hnew]
      exact bound r c₁ hc₁
  · by_cases hne : c' = c
    · rw [hne, hnew, k.attempt]
    · obtain ⟨r', hc'⟩ := k.queued hq hne
      obtain ⟨hattempt, hnumber⟩ := same r' c' hc'
      rw [hattempt, hnumber]
      exact h.seq c' ⟨r', hc'⟩

/-- A signal leaves a command in the midst of its attempt. -/
theorem attempt_of_noted {old : Command} {signal : Signal} {words : Option (List UInt32)}
    (a : e.Changed e' c old (old.noted signal words) false) (c' : CommandRef) :
    e'.attempt c' = e.attempt c' := by
  by_cases hne : c' = c
  · rw [hne, attempt_of_command a.before, attempt_of_command a.after]
    rfl
  · exact attempt_of_substance (a.others c' hne).substance

theorem Run.numbered (h : Run settings turns e) : Numbered turns e := by
  induction h with
  | start =>
    have hempty (r : RouterRef) : ((opening settings).queue r).members = [] := by
      rw [queue_opening]
      rfl
    refine ⟨fun r c hc => ?_, fun r => ?_, fun c hq => ?_⟩
    · rw [hempty] at hc
      cases hc
    · rw [hempty]
      exact .nil
    · obtain ⟨r, hc⟩ := hq
      rw [hempty] at hc
      cases hc
  | next prior ha hm ih =>
    rcases prior.sound.attempts ha hm with s | ⟨r, c, k⟩ | ⟨r, c, old, signal, words, -, -, a⟩
    · exact ih.of_kept s.begun s.members fun c hq => attempt_of_substance (s.commands c hq)
    · exact ih.of_commences k
    · refine ih.of_kept a.begun (fun r => ?_) fun c _ => attempt_of_noted a c
      rw [a.members, if_neg Bool.false_ne_true]

/-! ## The frames of attempts -/

/-- Whatever is done, every frame keeps the request of its command's attempt, be it a later one. -/
theorem Engine.Sound.filled (h : e.Sound) (ha : ∀ call, m = .call call → e.Allows call)
    (hm : e.move? m = some e') (hf : e.Filled c) : e'.Filled c := by
  rcases h.attempts ha hm with s | ⟨r, c', k⟩ | ⟨r, c', old, signal, words, -, -, a⟩
  · exact s.filled c hf
  · exact k.keeps (h.extends ha hm) hf
  · exact a.filled rfl rfl hf

/-- The frame of what is in a queue holds the request of its current attempt. -/
theorem Run.filled (h : Run settings turns e) (hq : e.Queued c) : e.Filled c := by
  induction h with
  | start =>
    obtain ⟨r, hc⟩ := hq
    rw [queue_opening] at hc
    cases hc
  | @next turns e e' m prior ha hm ih =>
    have sound' := (prior.next ha hm).sound
    by_cases before : e.Queued c
    · exact prior.sound.filled ha hm (ih before)
    · rcases prior.sound.attempts ha hm with s | ⟨r, c', k⟩ | ⟨r, c', old, signal, words, -, -, a⟩
      · exact absurd (s.queued hq) before
      · by_cases hne : c = c'
        · subst hne
          exact k.filled (Commands.get?_isSome_iff.2 (sound'.lt_of_queued hq))
        · exact absurd (k.queued hq hne) before
      · obtain ⟨r', hc⟩ := hq
        rw [a.members, if_neg Bool.false_ne_true] at hc
        exact absurd ⟨r', hc⟩ before

/-! ## What has been handed to the transport -/

/-- Two addresses differ at most in the number of words and the sequence number. -/
def Address.SamePlace (a b : Address) : Prop :=
  a.space = b.space ∧ a.adapter = b.adapter ∧ a.offset = b.offset

instance (a b : Address) : Decidable (a.SamePlace b) :=
  inferInstanceAs (Decidable (_ ∧ _ ∧ _))

/-- What an answer repeats of its request. -/
structure Echo where
  label : PacketType
  route : Route
  address : Address
  deriving DecidableEq, Repr

/-- What an answer to the current attempt repeats. -/
def Command.echo (command : Command) : Echo where
  label := command.kind.packetType
  route := command.route
  address := command.address.withSeq command.seq

/-- It is the answer to some attempt of such a command. -/
def Echo.Fits (echo : Echo) (command : Command) : Prop :=
  echo.label = command.kind.packetType ∧ echo.route = command.route ∧
    echo.address.SamePlace command.address

theorem Echo.Fits.of_made {echo : Echo} {command command' : Command} (h : echo.Fits command)
    (hm : command'.made = command.made) : echo.Fits command' := by
  have hkind : command'.kind = command.kind := congrArg (·.kind) hm
  have hroute : command'.route = command.route := congrArg (·.route) hm
  have haddress : command'.address = command.address := congrArg (·.address) hm
  unfold Echo.Fits
  rw [hkind, hroute, haddress]
  exact h

/-- The command whose request the transport is asked to take in a turn, and its router. -/
def Turn.offers? (turn : Turn) : Option (RouterRef × CommandRef × Command) :=
  match turn.move, turn.before.stack, turn.after.stack with
  | .proceed, .drain _ :: below, .offer r c :: rest =>
    if rest.length = below.length then (turn.after.command? c).map (r, c, ·) else none
  | _, _, _ => none

/-- A request as it was handed to the transport. -/
structure Handing where
  router : RouterRef
  command : CommandRef
  /-- the number of the attempt -/
  number : Nat
  echo : Echo
  deriving DecidableEq, Repr

/-- The requests that have been handed to the transport, the latest first. -/
def handed : List Turn → List Handing
  | [] => []
  | turn :: earlier =>
    match turn.offers? with
    | some (r, c, command) => ⟨r, c, numberOf earlier c, command.echo⟩ :: handed earlier
    | none => handed earlier

/-- What is handed to the transport holds the slot of its router. -/
theorem Engine.Sound.offers?_spec (h : e.Sound) (hm : e.move? m = some e')
    (ho : Turn.offers? ⟨e, m, e'⟩ = some (r, c, command)) :
    e.Alike e' ∧ (e'.queue r).slot = some c ∧ e'.command? c = some command := by
  unfold Turn.offers? at ho
  split at ho
  · rename_i r' below r'' c' rest hmove hbefore hafter
    simp only at hmove hbefore hafter
    split at ho
    · rename_i hlength
      obtain ⟨command', hc, heq⟩ := Option.map_eq_some_iff.1 ho
      cases heq
      have hpop : e.stack = [Task.drain r'] ++ below := hbefore
      have hrest := (h.pop hpop).toStored
      have hstep : e' = ({ e with stack := below } : Engine).drain r' := by
        subst hmove
        rw [step_of_proceed hm]
        unfold step
        rw [hbefore]
      obtain ⟨a, hstack⟩ := hrest.drain_spec r'
      rw [← hstep] at a hstack
      rcases hstack with hstack | ⟨c', hstack, hslot⟩
      · -- an offer that was there before is not counted again
        rw [hafter] at hstack
        have hsame := congrArg List.length hstack
        rw [List.length_cons] at hsame
        simp only at hsame
        omega
      · rw [hafter] at hstack
        cases hstack
        exact ⟨a.restacked, hslot, hc⟩
    · cases ho
  · cases ho

/-- What is known of an attempt that has been handed to the transport: those that wait behind it, or
have come after it, have greater numbers. -/
structure Outrun (turns : List Turn) (e : Engine) (q : Handing) : Prop where
  begun : q.number < e.begunOn q.router
  ahead : ∀ c ∈ (e.queue q.router).members, q.command = c ∨ q.number < numberOf turns c
  seq : q.echo.address.seq = q.number % 4
  asked : ∃ command, e.command? q.command = some command ∧ q.echo.Fits command

variable {q : Handing}

theorem Outrun.of_kept (h : Outrun turns e q) (x : e.Extends e')
    (hbegun : ∀ r, e'.begunOn r = e.begunOn r)
    (hmembers : ∀ r, (e'.queue r).members.Sublist (e.queue r).members)
    (hattempt : ∀ c, e'.Queued c → e'.attempt c = e.attempt c) :
    Outrun (⟨e, m, e'⟩ :: turns) e' q := by
  refine ⟨?_, fun c hc => ?_, h.seq, ?_⟩
  · rw [hbegun]
    exact h.begun
  · rw [numberOf_of_attempt (hattempt c ⟨_, hc⟩)]
    exact h.ahead c ((hmembers _).subset hc)
  · obtain ⟨command, hc, hfits⟩ := h.asked
    obtain ⟨command', hc', hm, -⟩ := x.commands _ _ hc
    exact ⟨command', hc', hfits.of_made hm⟩

theorem Outrun.of_commences (h : Outrun turns e q) (x : e.Extends e') (k : e.Commences e' r c) :
    Outrun (⟨e, m, e'⟩ :: turns) e' q := by
  have hbegun := h.begun
  refine ⟨?_, fun c' hc' => ?_, h.seq, ?_⟩
  · rw [k.begun]
    split
    · rename_i hr
      rw [hr]
      omega
    · exact hbegun
  · have before (hc' : c' ∈ (e.queue q.router).members) :
        q.command = c' ∨ q.number < numberOf (⟨e, m, e'⟩ :: turns) c' := by
      have hne : c' ≠ c := by
        rintro rfl
        exact k.fresh ⟨_, hc'⟩
      rw [numberOf_of_attempt (attempt_of_substance (k.others c' hne))]
      exact h.ahead c' hc'
    rcases k.members q.router with hm | ⟨hr, hm⟩ <;> rw [hm] at hc'
    · exact before hc'
    · rcases List.mem_append.1 hc' with hc' | hc'
      · exact before hc'
      · right
        rw [List.mem_singleton.1 hc', k.numberOf, hr]
        exact hbegun
  · obtain ⟨command, hc, hfits⟩ := h.asked
    obtain ⟨command', hc', hm, -⟩ := x.commands _ _ hc
    exact ⟨command', hc', hfits.of_made hm⟩

theorem Run.outrun (h : Run settings turns e) : ∀ q ∈ handed turns, Outrun turns e q := by
  induction h with
  | start => exact fun q hq => absurd hq List.not_mem_nil
  | @next turns e e' m prior ha hm ih =>
    have x := prior.sound.extends ha hm
    have kept : ∀ q ∈ handed turns, Outrun (⟨e, m, e'⟩ :: turns) e' q := by
      intro q hq
      rcases prior.sound.attempts ha hm with s | ⟨r, c, k⟩ | ⟨r, c, old, signal, words, -, -, a⟩
      · exact (ih q hq).of_kept x s.begun s.members fun c hc =>
          attempt_of_substance (s.commands c hc)
      · exact (ih q hq).of_commences x k
      · refine (ih q hq).of_kept x a.begun (fun r => ?_) fun c _ => attempt_of_noted a c
        rw [a.members, if_neg Bool.false_ne_true]
    intro q hq
    cases ho : Turn.offers? ⟨e, m, e'⟩ with
    | none =>
      rw [handed, ho] at hq
      exact kept q hq
    | some offered =>
      obtain ⟨r, c, command⟩ := offered
      rw [handed, ho] at hq
      rcases List.mem_cons.1 hq with rfl | hq
      · obtain ⟨a, hslot, hc⟩ := prior.sound.offers?_spec hm ho
        have hnumbered := prior.numbered.of_kept (m := m) a.begun
          (fun r => (a.steady.members r)) fun c _ => attempt_of_substance (a.commands c).substance
        have hsame : numberOf (⟨e, m, e'⟩ :: turns) c = numberOf turns c :=
          numberOf_of_attempt (attempt_of_substance (a.commands c).substance)
        have hmembers := Queue.members_of_slot hslot
        have hmem : c ∈ (e'.queue r).members := hmembers ▸ List.mem_cons_self
        have hseq := hnumbered.seq c ⟨r, hmem⟩
        rw [attempt_of_command hc, hsame] at hseq
        refine ⟨?_, fun c' hc' => ?_, ?_, command, hc, rfl, rfl, rfl, rfl, rfl⟩
        · show numberOf turns c < _
          rw [← hsame]
          exact hnumbered.below r c hmem
        · rw [hmembers] at hc'
          rcases List.mem_cons.1 hc' with rfl | hc'
          · exact .inl rfl
          · right
            have hrising := hnumbered.rising r
            rw [hmembers, List.pairwise_cons, hsame] at hrising
            exact hrising.1 c' hc'
        · show command.seq % 4 = numberOf turns c % 4
          simp only at hseq
          omega
      · exact kept q hq

/-- A command with the sequence number of an earlier request of another command has begun its
attempt at least four attempts later. -/
theorem Outrun.late (h : Outrun turns e q) (hnumbered : Numbered turns e)
    (hc : c ∈ (e.queue q.router).members) (hne : q.command ≠ c)
    (hseq : (e.attempt c).2 = q.echo.address.seq) :
    q.number + 4 ≤ numberOf turns c := by
  have hlt := (h.ahead c hc).resolve_left hne
  have hmod := hnumbered.seq c ⟨_, hc⟩
  rw [hseq, h.seq] at hmod
  omega

end RouterFabric
