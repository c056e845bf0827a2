import RouterFabric.Proofs.Engine.Sound

/-!
# How commands end with words

The words of an answer reach a caller in one of three ways: as the note of how an attempt ended, as
the reply that a future keeps, or as what a callback is told. All three come from the one move that
completes the attempt in a slot; nothing else makes any of them.

* `Finishes` : a signal ends the attempt in a slot with these words
* `Sound.closes_inner` : where the note of an ending comes from
* `Arises` : where the tasks on the stack come from, a callback that is told words among them
-/

namespace RouterFabric

/-- Whether a task neither runs a callback nor ends a command, and no command waits in it for its
frame. -/
def Task.isPlain : Task → Bool
  | .notify _ _ => false
  | .expire _ _ => false
  | .allocate _ _ _ => false
  | _ => true

theorem Task.isPlain_of_quiet {t : Task} (h : t.isQuiet = true) : t.isPlain = true := by
  cases t <;> first | rfl | cases h

/-- Whoever asks the command how it ended is given these words. -/
def Command.Reports (command : Command) (words : List UInt32) : Prop :=
  command.ending = some (.completed words) ∨ command.listener = .future (some (.ok words))

theorem Ending.reply_ok {ending : Ending} {words : List UInt32} (h : ending.reply = .ok words) :
    ending = .completed words := by
  cases ending with
  | completed data =>
    cases h
    rfl
  | interrupted | refused | expired => cases h

theorem Command.mem_notes {command : Command} {ending : Ending} {tag : Nat} {reply : Reply}
    (h : .notify tag reply ∈ command.notes ending) :
    command.listener = .callback tag ∧ reply = ending.reply := by
  unfold notes callback? at h
  obtain ⟨tag', htag, heq⟩ := List.mem_map.1 h
  cases heq
  split at htag
  · rename_i hl
    rw [Option.toList_some, List.mem_singleton] at htag
    rw [htag]
    exact ⟨hl, rfl⟩
  · cases htag

/-- The command says of its end no more than the other one. -/
structure Command.Mutes (command old : Command) : Prop where
  poll : command.pollComplete = true → old.pollComplete = true
  ending : ∀ ending, command.ending = some ending → old.ending = some ending
  future : ∀ reply, command.listener = .future (some reply) → old.listener = .future (some reply)

theorem Command.Mutes.refl (command : Command) : command.Mutes command :=
  ⟨fun h => h, fun _ h => h, fun _ h => h⟩

theorem Command.Mutes.trans {command middle old : Command} (h : command.Mutes middle)
    (h' : middle.Mutes old) : command.Mutes old where
  poll := h'.poll ∘ h.poll
  ending ending := h'.ending ending ∘ h.ending ending
  future reply := h'.future reply ∘ h.future reply

theorem Command.future_finish {marked : Command} {ending : Ending} {reply : Reply}
    (h : (marked.finish ending).listener = .future (some reply)) :
    marked.listener = .future (some reply) ∨ reply = ending.reply := by
  unfold Command.finish at h
  simp only at h
  split at h
  · cases h
    exact .inr rfl
  · rename_i hl
    cases h
    exact .inl hl
  · cases h

namespace Engine

variable {e e' mid : Engine} {m : Move} {r : RouterRef} {router : Router} {c c' : CommandRef}
  {command old new : Command} {words : List UInt32} {tag : Nat} {below gone tasks : List Task}

/-- A signal ends the attempt in the slot of a router with these words. -/
structure Finishes (e : Engine) (m : Move) (e' : Engine) (r : RouterRef) (c : CommandRef)
    (old : Command) (words : List UInt32) : Prop where
  slot : (e.queue r).slot = some c
  before : e.command? c = some old
  signalled : ∃ signal received, Signalled e r old m signal received ∧
    (old.noted signal received).isComplete = true ∧
    words = (old.noted signal received).response.getD []
  after : ∃ new, e'.command? c = some new ∧ new.made = old.made ∧
    new.generation = old.generation ∧ new.seq = old.seq ∧ new.pollComplete = true ∧
    new.ending = some (.completed words)

/-- All commands say of their ends no more than before. -/
def Mute (e e' : Engine) : Prop :=
  ∀ c command, e'.command? c = some command → ∃ old, e.command? c = some old ∧ command.Mutes old

/-- What a turn makes of a command's note of its end. -/
inductive Closes (e : Engine) (m : Move) (e' : Engine) (c : CommandRef) (command : Command) : Prop
  /-- it says no more than before -/
  | kept (old : Command) : e.command? c = some old → command.Mutes old → Closes e m e' c command
  /-- the command is new -/
  | fresh : command.pollComplete = false → (∀ words, ¬ command.Reports words) →
      Closes e m e' c command
  /-- the attempt has ended without an answer -/
  | failed (old : Command) (ending : Ending) : e.command? c = some old →
      (∀ words, ending ≠ .completed words) → command.ending = some ending →
      (∀ reply, command.listener = .future (some reply) →
        old.listener = .future (some reply) ∨ reply = ending.reply) → Closes e m e' c command
  | finished (r : RouterRef) (old : Command) (words : List UInt32) :
      e.Finishes m e' r c old words → command.ending = some (.completed words) →
      (∀ reply, command.listener = .future (some reply) →
        old.listener = .future (some reply) ∨ reply = .ok words) → Closes e m e' c command

/-! ## What is noted of an ending -/

theorem Mute.trans (h : e.Mute mid) (h' : mid.Mute e') : e.Mute e' := by
  intro c command hc
  obtain ⟨middle, hmid, hmutes'⟩ := h' c command hc
  obtain ⟨old, hold, hmutes⟩ := h c middle hmid
  exact ⟨old, hold, hmutes'.trans hmutes⟩

theorem mute_of_commands (h : e'.commands = e.commands) : e.Mute e' := by
  intro c command hc
  unfold command? at hc
  rw [h] at hc
  exact ⟨command, hc, .refl command⟩

theorem Spared.mutes (s : e.Spared e' c) (hc : e'.command? c = some command) :
    ∃ old, e.command? c = some old ∧ command.Mutes old := by
  obtain ⟨old, hold, hsub⟩ := s.was hc
  have hpoll : command.pollComplete = old.pollComplete := (congrArg (·.pollComplete) hsub).symm
  have hlistener : command.listener = old.listener := (congrArg (·.listener) hsub).symm
  refine ⟨old, hold, fun h => hpoll ▸ h, fun ending he => ?_, fun reply h => hlistener ▸ h⟩
  obtain ⟨old', hold', hending⟩ := s.ending command ending hc he
  rw [hold] at hold'
  cases hold'
  exact hending

theorem Alike.mute (a : e.Alike e') : e.Mute e' :=
  fun c _ hc => (a.commands c).mutes hc

/-- A command that is in the midst of its attempt, or begins one. -/
theorem mute_of_others (before : e.command? c = some old) (after : e'.command? c = some new)
    (hmutes : new.Mutes old) (others : ∀ c', c' ≠ c → e.Spared e' c') : e.Mute e' := by
  intro c' command hc
  by_cases hcc : c' = c
  · subst hcc
    rw [after] at hc
    cases hc
    exact ⟨old, before, hmutes⟩
  · exact (others c' hcc).mutes hc

theorem Forced.mute {cs : List (RouterRef × CommandRef)} (f : Forced e cs e') : e.Mute e' := by
  induction f with
  | none a => exact a.mute
  | skip a _ ih => exact a.mute.trans ih
  | next _ hc _ ih =>
    exact (mute_of_others hc.before hc.after ⟨id, fun _ => id, fun _ => id⟩ hc.others).trans ih

theorem Cut.mute {rs : List RouterRef} (k : Cut e rs e') : e.Mute e' := by
  induction k with
  | none a => exact a.mute
  | next p _ ih => exact (mute_of_commands p.commands).trans ih

theorem Begun.mute (a : e.Begun e' r c router old) : e.Mute e' := by
  obtain ⟨new, hnew, hsub, hending⟩ := a.after
  have hpoll : new.pollComplete = false := congrArg (·.pollComplete) hsub
  have hlistener : new.listener = old.listener := congrArg (·.listener) hsub
  refine mute_of_others a.before hnew ⟨fun h => ?_, fun ending h => ?_, fun reply h => ?_⟩ a.others
  · rw [hpoll] at h
    cases h
  · rw [hending] at h
    cases h
  · exact hlistener ▸ h

theorem Added.was (a : e.Added e' new) (hc : e'.command? c = some command) :
    e.command? c = some command ∨ c = ⟨e.commands.length⟩ ∧ command = new := by
  unfold command? Commands.get? at hc ⊢
  rw [a.commands, List.getElem?_append] at hc
  split at hc
  · exact .inl hc
  · rename_i hge
    rw [List.getElem?_singleton] at hc
    split at hc
    · rename_i hzero
      cases hc
      refine .inr ⟨Commands.ref_eq_iff.2 ?_, rfl⟩
      show c.index = e.commands.length
      omega
    · cases hc

theorem Mute.closes (h : e.Mute e') (hc : e'.command? c = some command) :
    Closes e m e' c command := by
  obtain ⟨old, hold, hmutes⟩ := h c command hc
  exact .kept old hold hmutes

/-- An attempt that has ended without an answer. -/
theorem Changed.closes {marked : Command} {ending : Ending}
    (a : e.Changed e' c old (marked.finish ending) true) (hl : marked.listener = old.listener)
    (hne : ∀ words, ending ≠ .completed words) (hc : e'.command? c' = some command) :
    Closes e m e' c' command := by
  by_cases hcc : c' = c
  · subst hcc
    rw [a.after] at hc
    cases hc
    exact .failed old ending a.before hne rfl fun reply h => hl ▸ Command.future_finish h
  · obtain ⟨old, hold, hmutes⟩ := (a.others c' hcc).mutes hc
    exact .kept old hold hmutes

/-- Where the note of an ending comes from. -/
theorem Sound.closes_inner (h : e.Sound) (k : Inner e m e') (hc : e'.command? c = some command) :
    Closes e m e' c command := by
  cases k with
  | quiet | returned | finished | asked | resumed | dropped | unframed | exhausted | watched
  | settled | unclaimed | unregistered =>
    rename_i a
    exact a.mute.closes hc
  | expired r c' old tasks below he he' hquiet hfits a => exact a.closes rfl nofun hc
  | refused r c' old fault tasks below he he' hquiet hfits hslot a => exact a.closes rfl nofun hc
  | interrupted r c' old event tasks he' hquiet hfits hslot a => exact a.closes rfl nofun hc
  | noted r c' old signal words he' hslot signalled hdone a =>
    exact (mute_of_others a.before a.after ⟨id, fun _ => id, fun _ => id⟩ a.others).closes hc
  | completed r c' old signal words tasks he' hquiet hfits hslot signalled hdone a =>
    by_cases hcc : c = c'
    · subst hcc
      have finishes : e.Finishes m e' r c old ((old.noted signal words).response.getD []) :=
        ⟨hslot, a.before, ⟨signal, words, signalled, hdone, rfl⟩, _, a.after, rfl, rfl, rfl, rfl,
          rfl⟩
      rw [a.after] at hc
      cases hc
      exact .finished r old _ finishes rfl fun reply h => Command.future_finish h
    · obtain ⟨old, hold, hmutes⟩ := (a.others c hcc).mutes hc
      exact .kept old hold hmutes
  | unlinked r next below he he' parted hm => exact (mute_of_commands parted.commands).closes hc
  | framed r command' watching below he he' added =>
    obtain ⟨⟨-, -, hmade⟩, -⟩ := h.tasks (.allocate r command' _) (he ▸ List.mem_cons_self)
    rcases added.was hc with hold | ⟨-, rfl⟩
    · exact .kept command hold (.refl command)
    · rw [hmade]
      exact .fresh rfl (by rintro words (hr | hr) <;> cases hr)
  | issued r command' style t mid router below he he' issued added begun =>
    obtain ⟨⟨-, -, hmade⟩, -⟩ := h.tasks (.allocate r command' style) (he ▸ List.mem_cons_self)
    obtain ⟨old, hold, hmutes⟩ := begun.mute c command hc
    rcases added.was hold with hold | ⟨-, rfl⟩
    · exact .kept old hold hmutes
    · rw [hmade] at hmutes
      refine .fresh ?_ ?_
      · refine Bool.eq_false_iff.2 fun hpoll => ?_
        cases hmutes.poll hpoll
      · rintro words (hr | hr)
        · cases hmutes.ending _ hr
        · have hl : listenerFor style = .future (some (.ok words)) := hmutes.future _ hr
          cases style <;> cases hl
  | retried w watching left router old below he he' begun => exact begun.mute.closes hc
  | withdrawn w deadline mid old expired t tasks below he he' hquiet hfits ht hmem changed forced =>
    have first := mute_of_others changed.before changed.after (.refl old) changed.others
    exact (first.trans forced.mute).closes hc
  | rooted linked t below he he' joined ht => exact (mute_of_commands joined.commands).closes hc

theorem mute_called {call : Call} (k : Called e call e') : e.Mute e' := by
  cases k with
  | answered result hresult he' a => exact a.mute
  | operated r operation router settings hr he' a => exact a.mute
  | attached parent route linked t he' joined ht => exact mute_of_commands joined.commands
  | detached r expired mid rs tasks result he' hquiet hfits forced cut hempty =>
    exact forced.mute.trans cut.mute

/-- A command reports words that it has reported before, or that its attempt has just ended with. -/
theorem Closes.reports (k : Closes e m e' c command) (h : command.Reports words) :
    (∃ old, e.command? c = some old ∧ old.Reports words) ∨
      ∃ r old, e.Finishes m e' r c old words := by
  cases k with
  | kept old hold hmutes => exact .inl ⟨old, hold, h.imp (hmutes.ending _) (hmutes.future _)⟩
  | fresh hpoll hnone => exact absurd h (hnone words)
  | failed old ending hold hne hending hfuture =>
    rcases h with hr | hr
    · rw [hending] at hr
      cases hr
      exact absurd rfl (hne words)
    · rcases hfuture _ hr with hr | hr
      · exact .inl ⟨old, hold, .inr hr⟩
      · exact absurd (Ending.reply_ok hr.symm) (hne words)
  | finished r old words' finishes hending hfuture =>
    rcases h with hr | hr
    · rw [hending] at hr
      cases hr
      exact .inr ⟨r, old, finishes⟩
    · rcases hfuture _ hr with hr | hr
      · exact .inl ⟨old, finishes.before, .inr hr⟩
      · cases hr
        exact .inr ⟨r, old, finishes⟩

/-- An attempt in a slot that ends with words is ended by a signal. -/
theorem Closes.finishes (k : Closes e m e' c command) (h : e.Stored)
    (hslot : (e.queue r).slot = some c) (hpoll : command.pollComplete = true)
    (hending : command.ending = some (.completed words)) :
    ∃ old, e.Finishes m e' r c old words := by
  have hmem : c ∈ (e.queue r).members := Queue.mem_members.2 (.inl hslot)
  obtain ⟨waiting, hwaiting, -, -, hwaits⟩ := h.members r c hmem
  cases k with
  | kept old hold hmutes =>
    rw [hwaiting] at hold
    cases hold
    have hdone := hmutes.poll hpoll
    rw [hwaits] at hdone
    cases hdone
  | fresh hnone =>
    rw [hnone] at hpoll
    cases hpoll
  | failed old ending hold hne hother =>
    rw [hother] at hending
    cases hending
    exact absurd rfl (hne words)
  | finished r' old words' finishes hother =>
    rw [hother] at hending
    cases hending
    have hr : r' = r := h.eq_of_mem (Queue.mem_members.2 (.inl finishes.slot)) hmem
    exact ⟨old, hr ▸ finishes⟩

/-! ## Where tasks come from -/

/-- Where a task on the stack comes from. The tasks that run a callback, that end a command, or in
which a command waits for its frame, are the ones of which there is more to say. -/
inductive Arises (e : Engine) (m : Move) (e' : Engine) (t : Task) : Prop
  /-- it has been there before -/
  | kept : t ∈ e.stack → Arises e m e' t
  | plain : t.isPlain = true → Arises e m e' t
  /-- a program has just asked for something -/
  | asked (r : RouterRef) (request : Request) : Asked e r request t → Arises e m e' t
  /-- a command has just ended, and if it has ended with words, a signal has ended it -/
  | told (old : Command) (ending : Ending) : t ∈ old.notes ending →
      (∀ words, ending = .completed words → ∃ r c, e.Finishes m e' r c old words) →
      Arises e m e' t
  /-- a command has just been taken out of its slot -/
  | forced (r : RouterRef) (c : CommandRef) : t = .expire r c → e.Queued c → Arises e m e' t

theorem arises_of_stack {t : Task} (gone tasks : List Task) (he : e.stack = gone ++ below)
    (he' : e'.stack = tasks ++ below) (hnew : ∀ t ∈ tasks, Arises e m e' t) (ht : t ∈ e'.stack) :
    Arises e m e' t := by
  rw [he'] at ht
  rcases List.mem_append.1 ht with ht | ht
  · exact hnew t ht
  · exact .kept (he ▸ List.mem_append_right gone ht)

/-- Nothing is new but plain tasks. -/
theorem arises_of_plain {t : Task} (gone tasks : List Task) (he : e.stack = gone ++ below)
    (he' : e'.stack = tasks ++ below) (hplain : ∀ t ∈ tasks, t.isPlain = true)
    (ht : t ∈ e'.stack) : Arises e m e' t :=
  arises_of_stack gone tasks he he' (fun t ht => .plain (hplain t ht)) ht

/-- A command has ended, and chores are left. -/
theorem arises_of_ended {t : Task} {ending : Ending} (gone : List Task)
    (he : e.stack = gone ++ below) (he' : e'.stack = old.notes ending ++ tasks ++ below)
    (hquiet : ∀ t ∈ tasks, t.isQuiet = true)
    (hends : ∀ words, ending = .completed words → ∃ r c, e.Finishes m e' r c old words)
    (ht : t ∈ e'.stack) : Arises e m e' t := by
  refine arises_of_stack gone _ he he' (fun t ht => ?_) ht
  rcases List.mem_append.1 ht with ht | ht
  · exact .told old ending ht hends
  · exact .plain (Task.isPlain_of_quiet (hquiet t ht))

/-- Commands that are taken out of their slots were in a queue. -/
theorem Forced.was_queued {cs : List (RouterRef × CommandRef)} (f : Forced e cs e')
    (h : e.Stored) : ∀ p ∈ cs, e.Queued p.2 := by
  induction f with
  | none _ => nofun
  | skip a _ ih => exact fun p hp => (a.passes h).queued p.2 (ih (h.of_alike a) p hp)
  | next hs hc _ ih =>
    intro p hp
    rcases List.mem_cons.1 hp with rfl | hp
    · exact ⟨_, Queue.mem_members.2 (.inl hs)⟩
    · exact hc.queued (ih (hc.passes_forced h).stored p hp)

theorem Inner.arises {t : Task} (k : Inner e m e') (h : e.Stored) (ht : t ∈ e'.stack) :
    Arises e m e' t := by
  have nothing : e.stack = [] ++ e.stack := rfl
  cases k with
  | quiet gone tasks below he he' hgone hquiet hfits a =>
    exact arises_of_plain gone tasks he he' (fun t ht => Task.isPlain_of_quiet (hquiet t ht)) ht
  | returned tag reply below he he' hm a =>
    exact arises_of_plain [_] [] he he' (by simp) ht
  | expired r c old tasks below he he' hquiet hfits a =>
    exact arises_of_ended [.expire r c] he he' hquiet nofun ht
  | refused r c old fault tasks below he he' hquiet hfits hslot a =>
    exact arises_of_ended [.offer r c] he he' hquiet nofun ht
  | interrupted r c old event tasks he' hquiet hfits hslot a =>
    exact arises_of_ended [] nothing he' hquiet nofun ht
  | noted r c old signal words he' hslot signalled hdone a =>
    exact arises_of_plain [] [.handled] nothing he' (by simp [Task.isPlain]) ht
  | completed r c old signal received tasks he' hquiet hfits hslot signalled hdone a =>
    refine arises_of_ended [] nothing he' hquiet (fun words hwords => ?_) ht
    cases hwords
    exact ⟨r, c, hslot, a.before, ⟨signal, received, signalled, hdone, rfl⟩, _, a.after, rfl, rfl,
      rfl, rfl, rfl⟩
  | finished r result below he he' a =>
    exact arises_of_plain [_] [.answer result] he he' (by simp [Task.isPlain]) ht
  | asked r request next new tasks below he he' hquiet hfits asked a =>
    have top' : e'.stack = (tasks ++ [new, .resume r next]) ++ below := by simp [he']
    refine arises_of_stack [.perform r (.ask request next)] _ he top' (fun t ht => ?_) ht
    rcases List.mem_append.1 ht with ht | ht
    · exact .plain (Task.isPlain_of_quiet (hquiet t ht))
    · rcases List.mem_cons.1 ht with rfl | ht
      · exact .asked r request asked
      · exact .plain (List.mem_singleton.1 ht ▸ rfl)
  | unlinked r next below he he' parted hm =>
    exact arises_of_plain [_] [.reply (.ok []), .resume r next] he he' (by simp [Task.isPlain]) ht
  | resumed r next reply below he he' a =>
    exact arises_of_plain [.reply reply, .resume r next] [_] he he' (by simp [Task.isPlain]) ht
  | dropped reply below he hbelow he' a =>
    exact arises_of_plain [.reply reply] [] he he' (by simp) ht
  | unframed r command style failure below he he' a =>
    exact arises_of_plain [_] [.reply (.error failure)] he he' (by simp [Task.isPlain]) ht
  | framed r command watching below he he' added =>
    exact arises_of_plain [_] [.attempt _] he he' (by simp [Task.isPlain]) ht
  | issued r command style new mid router below he he' issued added begun =>
    refine arises_of_plain [.allocate r command style] _ he he' (fun t ht => ?_) ht
    have hnew : new.isPlain = true := by cases issued <;> rfl
    split at ht
    · exact List.mem_singleton.1 ht ▸ rfl
    · rcases List.mem_cons.1 ht with rfl | ht
      · rfl
      · exact List.mem_singleton.1 ht ▸ hnew
  | retried w watching left router old below he he' begun =>
    refine arises_of_plain [.attempt w] _ he he' (fun t ht => ?_) ht
    split at ht
    · exact List.mem_singleton.1 ht ▸ rfl
    · rcases List.mem_cons.1 ht with rfl | ht
      · rfl
      · exact List.mem_singleton.1 ht ▸ rfl
  | exhausted w below he he' a =>
    exact arises_of_plain [.attempt w] [_] he he' (by simp [Task.isPlain]) ht
  | watched w deadline below he he' a =>
    exact arises_of_plain [.watch w] [.await w deadline] he he' (by simp [Task.isPlain]) ht
  | settled w gone new command below he hold he' hc hsettled a =>
    have hnew : new.isPlain = true := by
      rcases hsettled with ⟨reply, rfl, -⟩ | ⟨rfl, -⟩ <;> rfl
    exact arises_of_plain [gone] [new] he he' (by simp [hnew]) ht
  | unclaimed w deadline below he he' a =>
    exact arises_of_plain [_] [.claimed w] he he' (by simp [Task.isPlain]) ht
  | withdrawn w deadline mid old expired last tasks below he he' hquiet hfits hlast hmem changed
      forced =>
    have top' : e'.stack = (expired.toList.map (.expire w.router) ++ tasks ++ [last]) ++ below := by
      simp [he']
    have hmid := (changed.passes h rfl (fun _ => id) nofun).stored
    refine arises_of_stack [.await w deadline] _ he top' (fun t ht => ?_) ht
    rcases List.mem_append.1 ht with ht | ht
    · rcases List.mem_append.1 ht with ht | ht
      · obtain ⟨c, hc, rfl⟩ := List.mem_map.1 ht
        have hq := forced.was_queued hmid (w.router, c) (List.mem_map.2 ⟨c, hc, rfl⟩)
        exact .forced w.router c rfl (changed.queued hq)
      · exact .plain (Task.isPlain_of_quiet (hquiet t ht))
    · rw [List.mem_singleton.1 ht]
      rcases hlast with rfl | ⟨rfl, -⟩ <;> exact .plain rfl
  | unregistered failure below he he' a =>
    exact arises_of_plain [.register] [_] he he' (by simp [Task.isPlain]) ht
  | rooted linked new below he he' joined hnew =>
    have hplain : new.isPlain = true := by
      rcases hnew with ⟨-, failure, rfl⟩ | ⟨-, settings, rfl⟩ <;> rfl
    exact arises_of_plain [.register] [new] he he' (by simp [hplain]) ht

/-- A call begins with plain tasks, and with the ends of the commands that it takes out of their
slots. -/
theorem Called.arises {call : Call} {t : Task} (k : Called e call e') (h : e.Stored)
    (ht : t ∈ e'.stack) : Arises e (.call call) e' t := by
  have nothing : e.stack = [] ++ e.stack := rfl
  cases k with
  | answered result hresult he' a =>
    exact arises_of_plain [] [.answer result] nothing he' (by simp [Task.isPlain]) ht
  | operated r operation router settings hr he' a =>
    exact arises_of_plain [] [.perform r _] nothing he' (by simp [Task.isPlain]) ht
  | attached parent route linked new he' joined hnew =>
    have hplain : new.isPlain = true := by
      rcases hnew with ⟨-, failure, rfl⟩ | ⟨-, settings, rfl⟩ <;> rfl
    exact arises_of_plain [] [new] nothing he' (by simp [hplain]) ht
  | detached r expired mid rs tasks result he' hquiet hfits forced cut hempty =>
    have top := he'.trans (List.append_assoc _ [.answer result] e.stack).symm
    refine arises_of_stack [] _ nothing top (fun t ht => ?_) ht
    rcases List.mem_append.1 ht with ht | ht
    · rcases List.mem_append.1 ht with ht | ht
      · obtain ⟨p, hp, rfl⟩ := List.mem_map.1 ht
        exact .forced p.1 p.2 rfl (forced.was_queued h p hp)
      · exact .plain (Task.isPlain_of_quiet (hquiet t ht))
    · exact .plain (List.mem_singleton.1 ht ▸ rfl)

/-! ## What callbacks are told -/

/-- A callback is told words when a signal ends the attempt of a command that it listens to. -/
theorem Arises.finishes (a : Arises e m e' (.notify tag (.ok words))) :
    .notify tag (.ok words) ∈ e.stack ∨
      ∃ r c old, e.Finishes m e' r c old words ∧ old.listener = .callback tag := by
  cases a with
  | kept ht => exact .inl ht
  | plain hplain => cases hplain
  | asked r request asked => cases asked
  | told old ending ht hends =>
    obtain ⟨hl, hreply⟩ := Command.mem_notes ht
    obtain ⟨r, c, finishes⟩ := hends words (Ending.reply_ok hreply.symm)
    exact .inr ⟨r, c, old, finishes, hl⟩
  | forced r c heq => cases heq

theorem Called.notes {call : Call} (k : Called e call e') (h : e.Stored)
    (hn : .notify tag (.ok words) ∈ e'.stack) : .notify tag (.ok words) ∈ e.stack := by
  rcases (k.arises h hn).finishes with hn | ⟨r, c, old, finishes, -⟩
  · exact hn
  · obtain ⟨signal, received, signalled, -⟩ := finishes.signalled
    cases signalled

end Engine

end RouterFabric
