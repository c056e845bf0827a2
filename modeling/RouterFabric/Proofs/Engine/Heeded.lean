import RouterFabric.Proofs.Fates

/-!
# Queued commands are heeded

A command waits in a queue for somebody: for the callback that is told how it ends, or for a caller
that stands on the stack and will take it out again if it gives up. So a command that no callback
listens to leaves its queue before its caller goes on.

* `Engine.Heeded` : the invariant
* `Engine.Retains` : a change after which nothing is queued that was not
* `Run.heeded` : it holds throughout a run
-/

namespace RouterFabric

open Engine

theorem Command.finish_nobody {marked : Command} {ending : Ending} (h : marked.listener = .nobody) :
    (marked.finish ending).listener = .nobody := by
  unfold Command.finish
  rw [h]

namespace Engine

variable {e e' mid : Engine} {m : Move} {r : RouterRef} {router : Router} {c c' : CommandRef}
  {command old new : Command} {t t' : Task} {w w' : Waiter} {below gone tasks : List Task}

/-- Nobody is told how the command ends, unless by asking. -/
def Unheard (e : Engine) (c : CommandRef) : Prop :=
  ∃ command, e.command? c = some command ∧ command.listener = .nobody

/-- Somebody waits for the command in one of these tasks. -/
def Awaited (tasks : List Task) (c : CommandRef) : Prop :=
  ∃ t ∈ tasks, ∃ w, t.waiter? = some w ∧ w.command = c

/-- Commands in queues have not ended, and somebody is going to learn how they end. -/
structure Heeded (e : Engine) : Prop where
  unended : ∀ c command, e.Queued c → e.command? c = some command →
    command.ending = none ∧ ∀ reply, command.listener ≠ .future (some reply)
  awaited : ∀ c, e.Queued c → (∃ tag, e.Listens tag c) ∨ Awaited e.stack c
  /-- who watches a command is the only one to learn how it ends -/
  watched : ∀ t ∈ e.stack, ∀ w, t.waiter? = some w → w.patience = .future ∨ e.Unheard w.command

/-! ## Changes -/

/-- What is in a queue has been in it before, and has not ended in between. -/
structure Retains (e e' : Engine) : Prop where
  unheard : ∀ c, e.Unheard c → e'.Unheard c
  queued : ∀ c command, e'.Queued c → e'.command? c = some command → e.Queued c ∧
    ∃ old, e.command? c = some old ∧ command.listener = old.listener ∧
      (old.ending = none → command.ending = none)

theorem Retains.trans (k : e.Retains mid) (k' : mid.Retains e') : e.Retains e' where
  unheard c := k'.unheard c ∘ k.unheard c
  queued c command hq hc := by
    obtain ⟨hq, middle, hmid, hlistener, hending⟩ := k'.queued c command hq hc
    obtain ⟨hq, old, hold, hlistener', hending'⟩ := k.queued c middle hq hmid
    exact ⟨hq, old, hold, hlistener.trans hlistener', hending ∘ hending'⟩

theorem Spared.unheard (s : e.Spared e' c) (h : e.Unheard c) : e'.Unheard c := by
  obtain ⟨command, hc, hl⟩ := h
  obtain ⟨command', hc', hs⟩ := s.kept hc
  exact ⟨command', hc', (congrArg (·.listener) hs).trans hl⟩

theorem Spared.retained (s : e.Spared e' c) (hc : e'.command? c = some command) :
    ∃ old, e.command? c = some old ∧ command.listener = old.listener ∧
      (old.ending = none → command.ending = none) := by
  obtain ⟨old, hold, hs⟩ := s.was hc
  refine ⟨old, hold, (congrArg (·.listener) hs).symm, fun hnone => ?_⟩
  cases hending : command.ending with
  | none => rfl
  | some ending =>
    obtain ⟨old', hold', hended⟩ := s.ending command ending hc hending
    rw [hold] at hold'
    cases hold'
    rw [hnone] at hended
    cases hended

theorem Alike.retains (a : e.Alike e') : e.Retains e' where
  unheard c := (a.commands c).unheard
  queued c _ hq hc := ⟨(queued_iff_of_members a.members c).1 hq, (a.commands c).retained hc⟩

theorem Added.retains (a : e.Added e' new) (h : e.Stored) : e.Retains e' where
  unheard := by
    rintro c ⟨command, hc, hl⟩
    exact ⟨command, a.command_kept hc, hl⟩
  queued c command hq hc := by
    have hq := (queued_iff_of_members a.members c).1 hq
    rcases a.was hc with hold | ⟨rfl, -⟩
    · exact ⟨hq, command, hold, rfl, id⟩
    · exact absurd (h.lt_of_queued hq) (Nat.lt_irrefl _)

theorem retains_of_commands (hc : e'.commands = e.commands)
    (hq : ∀ c, e'.Queued c → e.Queued c) : e.Retains e' := by
  have same (c : CommandRef) : e'.command? c = e.command? c := congrArg (Commands.get? · c) hc
  refine ⟨fun c h => ?_, fun c command hqueued hcommand => ?_⟩
  · unfold Unheard
    rw [same]
    exact h
  · rw [same] at hcommand
    exact ⟨hq c hqueued, command, hcommand, rfl, id⟩

theorem Parted.retains (p : e.Parted e' r) : e.Retains e' :=
  retains_of_commands p.commands fun c => (queued_iff_of_members (fun r => by rw [p.queues]) c).1

theorem Cut.retains {rs : List RouterRef} (k : Cut e rs e') : e.Retains e' := by
  induction k with
  | none a => exact a.retains
  | next p _ ih => exact p.retains.trans ih

theorem Joined.retains {route : Route} {linked : Bool} (a : e.Joined e' route linked) :
    e.Retains e' :=
  retains_of_commands a.commands fun _ hq => a.steady.queued hq

/-- A change to one command, which leaves its queue or has not ended. -/
theorem Changed.retains {left : Bool} (a : e.Changed e' c old new left) (h : e.Stored)
    (hnobody : old.listener = .nobody → new.listener = .nobody)
    (hstays : left = true ∨ new.listener = old.listener ∧ new.ending = old.ending) :
    e.Retains e' where
  unheard c' hunheard := by
    by_cases hne : c' = c
    · subst hne
      obtain ⟨command, hc, hl⟩ := hunheard
      rw [a.before] at hc
      cases hc
      exact ⟨new, a.after, hnobody hl⟩
    · exact (a.others c' hne).unheard hunheard
  queued c' command hq hc := by
    refine ⟨a.queued hq, ?_⟩
    by_cases hne : c' = c
    · subst hne
      rcases hstays with rfl | ⟨hlistener, hending⟩
      · exact absurd hq (a.not_queued h)
      · rw [a.after] at hc
        cases hc
        exact ⟨old, a.before, hlistener, fun hnone => hending.trans hnone⟩
    · exact (a.others c' hne).retained hc

theorem Forced.retains {cs : List (RouterRef × CommandRef)} (f : Forced e cs e') (h : e.Stored) :
    e.Retains e' := by
  induction f with
  | none a => exact a.retains
  | skip a _ ih => exact a.retains.trans (ih (h.of_alike a))
  | next _ hc _ ih => exact (hc.retains h id (.inl rfl)).trans (ih (hc.passes_forced h).stored)

/-- A detached router queues nothing. -/
theorem Begun.queued_detached (a : e.Begun e' r c router old) (hd : router.detached = true)
    (hq : e'.Queued c') : e.Queued c' := by
  obtain ⟨r', hmem⟩ := hq
  rw [a.members, hd, if_neg (by simp)] at hmem
  exact ⟨r', hmem⟩

/-! ## Moves -/

/-- The tasks on top of the stack are replaced by others. Whoever goes away leaves nothing queued,
and what is newly queued is heeded. -/
theorem Heeded.swap (h : e.Heeded) (he : e.stack = gone ++ below) (he' : e'.stack = tasks ++ below)
    (unheard : ∀ c, e.Unheard c → e'.Unheard c)
    (queued : ∀ c command, e'.Queued c → e'.command? c = some command →
      (e.Queued c ∧ ∃ old, e.command? c = some old ∧ command.listener = old.listener ∧
        (old.ending = none → command.ending = none)) ∨
      (command.ending = none ∧ ∀ reply, command.listener ≠ .future (some reply)) ∧
        ((∃ tag, command.listener = .callback tag) ∨ Awaited tasks c))
    (hgone : ∀ t ∈ gone, ∀ w, t.waiter? = some w → e'.Queued w.command → Awaited tasks w.command)
    (htasks : ∀ t ∈ tasks, ∀ w, t.waiter? = some w → w.patience = .future ∨ e'.Unheard w.command)
    (hstored : e'.Stored) : e'.Heeded where
  unended c command hq hc := by
    rcases queued c command hq hc with ⟨hwas, old, hold, hlistener, hending⟩ | ⟨hnone, -⟩
    · obtain ⟨hnone, hfuture⟩ := h.unended c old hwas hold
      refine ⟨hending hnone, fun reply heq => hfuture reply (hlistener.symm.trans heq)⟩
    · exact hnone
  awaited c hq := by
    have above {ts : List Task} (hts : Awaited ts c) (hsub : ts ⊆ e'.stack) :
        Awaited e'.stack c := by
      obtain ⟨t, ht, hw⟩ := hts
      exact ⟨t, hsub ht, hw⟩
    have htop : tasks ⊆ e'.stack := by
      rw [he']
      exact List.subset_append_left _ _
    obtain ⟨r, hmem⟩ := hq
    obtain ⟨command, hc, -⟩ := hstored.members r c hmem
    rcases queued c command ⟨r, hmem⟩ hc with ⟨hwas, old, hold, hlistener, -⟩ | ⟨-, hnew⟩
    · rcases h.awaited c hwas with ⟨tag, command', hc', hl⟩ | ⟨t, ht, w, hw, rfl⟩
      · rw [hold] at hc'
        cases hc'
        exact .inl ⟨tag, command, hc, hlistener.trans hl⟩
      · right
        rw [he] at ht
        rcases List.mem_append.1 ht with ht | ht
        · exact above (hgone t ht w hw ⟨r, hmem⟩) htop
        · refine ⟨t, ?_, w, hw, rfl⟩
          rw [he']
          exact List.mem_append_right tasks ht
    · rcases hnew with ⟨tag, hl⟩ | hawaited
      · exact .inl ⟨tag, command, hc, hl⟩
      · exact .inr (above hawaited htop)
  watched t ht w hw := by
    rw [he'] at ht
    rcases List.mem_append.1 ht with ht | ht
    · exact htasks t ht w hw
    · exact (h.watched t (he ▸ List.mem_append_right gone ht) w hw).imp_right (unheard w.command)

/-- Nothing is queued, and callers neither come nor go. -/
theorem Heeded.retained (h : e.Heeded) (gone tasks : List Task) (he : e.stack = gone ++ below)
    (he' : e'.stack = tasks ++ below) (k : e.Retains e') (hgone : ∀ t ∈ gone, t.waiter? = none)
    (htasks : ∀ t ∈ tasks, t.waiter? = none) (hs : e'.Stored) : e'.Heeded := by
  refine h.swap he he' k.unheard (fun c command hq hc => .inl (k.queued c command hq hc)) ?_ ?_ hs
  · intro t ht w hw
    rw [hgone t ht] at hw
    cases hw
  · intro t ht w hw
    rw [htasks t ht] at hw
    cases hw

/-- A caller goes on waiting for its command. -/
theorem Heeded.waits (h : e.Heeded) (tasks : List Task) (he : e.stack = t :: below)
    (he' : e'.stack = tasks ++ t' :: below) (k : e.Retains e') (hw : t.waiter? = some w)
    (hw' : t'.waiter? = some w) (htasks : ∀ t ∈ tasks, t.waiter? = none) (hs : e'.Stored) :
    e'.Heeded := by
  have top : e.stack = [t] ++ below := he
  have split : e'.stack = (tasks ++ [t']) ++ below := by
    rw [he', List.append_assoc]
    rfl
  refine h.swap top split k.unheard
    (fun c command hq hc => .inl (k.queued c command hq hc)) ?_ ?_ hs
  · intro t₀ ht₀ w₀ hw₀ _
    rw [List.mem_singleton.1 ht₀, hw] at hw₀
    cases hw₀
    exact ⟨t', List.mem_append_right tasks List.mem_cons_self, w, hw', rfl⟩
  · intro t₀ ht₀ w₀ hw₀
    rcases List.mem_append.1 ht₀ with ht₀ | ht₀
    · rw [htasks t₀ ht₀] at hw₀
      cases hw₀
    · rw [List.mem_singleton.1 ht₀, hw'] at hw₀
      cases hw₀
      exact (h.watched t (he ▸ List.mem_cons_self) w hw).imp_right (k.unheard w.command)

/-- A caller goes away whose command is in no queue any more. -/
theorem Heeded.leaves (h : e.Heeded) (tasks : List Task) (he : e.stack = t :: below)
    (he' : e'.stack = tasks ++ below) (k : e.Retains e') (hw : t.waiter? = some w)
    (hq : ¬ e'.Queued w.command) (htasks : ∀ t ∈ tasks, t.waiter? = none) (hs : e'.Stored) :
    e'.Heeded := by
  have top : e.stack = [t] ++ below := he
  refine h.swap top he' k.unheard (fun c command hq hc => .inl (k.queued c command hq hc)) ?_ ?_ hs
  · intro t₀ ht₀ w₀ hw₀ hqueued
    rw [List.mem_singleton.1 ht₀, hw] at hw₀
    cases hw₀
    exact absurd hqueued hq
  · intro t₀ ht₀ w₀ hw₀
    rw [htasks t₀ ht₀] at hw₀
    cases hw₀

/-- A caller comes to wait for a command that nobody else is told of. -/
theorem Heeded.comes (h : e.Heeded) (he : e.stack = t :: below) (he' : e'.stack = t' :: below)
    (k : e.Retains e') (hw : t.waiter? = none) (hw' : t'.waiter? = some w)
    (hunheard : e'.Unheard w.command) (hs : e'.Stored) : e'.Heeded := by
  have top : e.stack = [t] ++ below := he
  have top' : e'.stack = [t'] ++ below := he'
  refine h.swap top top' k.unheard (fun c command hq hc => .inl (k.queued c command hq hc)) ?_ ?_ hs
  · intro t₀ ht₀ w₀ hw₀
    rw [List.mem_singleton.1 ht₀, hw] at hw₀
    cases hw₀
  · intro t₀ ht₀ w₀ hw₀
    rw [List.mem_singleton.1 ht₀, hw'] at hw₀
    cases hw₀
    exact .inr hunheard

/-- An attempt has ended, and its command is in no queue. -/
theorem Heeded.ended {marked : Command} {ending : Ending} (h : e.Heeded) (hs : e.Stored)
    (hs' : e'.Stored) (gone : List Task) (he : e.stack = gone ++ below)
    (he' : e'.stack = old.notes ending ++ tasks ++ below) (hgone : ∀ t ∈ gone, t.waiter? = none)
    (hquiet : ∀ t ∈ tasks, t.isQuiet = true) (a : e.Changed e' c old (marked.finish ending) true)
    (hl : marked.listener = old.listener) : e'.Heeded := by
  have k : e.Retains e' :=
    a.retains hs (fun hn => Command.finish_nobody (hl.trans hn)) (.inl rfl)
  exact h.retained gone _ he he' k hgone
    (fun t ht => Task.waiter?_of_chore (Task.isChore_ended hquiet old ending t ht)) hs'

/-- An attempt has begun, and if it is queued, somebody waits for it. -/
theorem Heeded.begins (h : e.Heeded) (hs : e'.Stored) (tasks : List Task)
    (he : e.stack = t :: below) (he' : e'.stack = tasks ++ below) (retains : e.Retains mid)
    (begun : mid.Begun e' r c router old) (hfuture : ∀ reply, old.listener ≠ .future (some reply))
    (hheard : e'.Queued c → (∃ tag, old.listener = .callback tag) ∨ Awaited tasks c)
    (hleft : ∀ w, t.waiter? = some w → e'.Queued w.command → Awaited tasks w.command)
    (htasks : ∀ t ∈ tasks, ∀ w, t.waiter? = some w → w.patience = .future ∨ mid.Unheard w.command) :
    e'.Heeded := by
  obtain ⟨new, hnew, hsub, hending⟩ := begun.after
  have hlistener : new.listener = old.listener := congrArg (·.listener) hsub
  have unheard (c' : CommandRef) (hc' : mid.Unheard c') : e'.Unheard c' := by
    by_cases hne : c' = c
    · subst hne
      obtain ⟨command, hc, hl⟩ := hc'
      rw [begun.before] at hc
      cases hc
      exact ⟨new, hnew, hlistener.trans hl⟩
    · exact (begun.others c' hne).unheard hc'
  have top : e.stack = [t] ++ below := he
  refine h.swap top he' (fun c' hc' => unheard c' (retains.unheard c' hc'))
    (fun c' command hq hc => ?_) (fun t₀ ht₀ w₀ hw₀ hq => ?_)
    (fun t₀ ht₀ w₀ hw₀ => (htasks t₀ ht₀ w₀ hw₀).imp_right (unheard _)) hs
  · by_cases hne : c' = c
    · subst hne
      rw [hnew] at hc
      cases hc
      refine .inr ⟨⟨hending, fun reply heq => hfuture reply (hlistener.symm.trans heq)⟩, ?_⟩
      rw [hlistener]
      exact hheard hq
    · obtain ⟨middle, hmid, hlistener', hending'⟩ := (begun.others c' hne).retained hc
      obtain ⟨hwas, old', hold, hl, he⟩ :=
        retains.queued c' middle ((begun.queued_of_ne hne).1 hq) hmid
      exact .inl ⟨hwas, old', hold, hlistener'.trans hl, hending' ∘ he⟩
  · rw [List.mem_singleton.1 ht₀] at hw₀
    exact hleft w₀ hw₀ hq

/-- A transfer that is not waited for by watching: its callback or its future is going to learn how
it ends. -/
theorem Sound.heeded_issued {style : Style} (s : e.Sound) (h : e.Heeded) (hs' : e'.Stored)
    (he : e.stack = .allocate r command style :: below)
    (he' : e'.stack =
      (if router.detached then [Task.reply (.error .notFound)] else [Task.drain r, t]) ++ below)
    (issued : Issued r ⟨e.commands.length⟩ style t)
    (added : e.Added mid { command with listener := listenerFor style })
    (begun : mid.Begun e' r ⟨e.commands.length⟩ router
      { command with listener := listenerFor style }) : e'.Heeded := by
  have hs := s.toStored
  refine h.begins hs' _ he he' (added.retains hs) begun (fun reply => ?_) (fun hq => ?_)
    (fun w hw => ?_) (fun t₀ ht₀ w hw => ?_)
  · cases style <;> nofun
  · cases hd : router.detached with
    | true => exact absurd (begun.queued_detached hd hq) (hs.not_queued_next added)
    | false =>
      cases issued with
      | callback tag => exact .inl ⟨tag, rfl⟩
      | future => exact .inr ⟨_, List.mem_cons_of_mem _ List.mem_cons_self, _, rfl, rfl⟩
  · cases hw
  · left
    cases hd : router.detached <;> rw [hd] at ht₀
    · rcases List.mem_pair.1 ht₀ with rfl | rfl
      · cases hw
      · cases issued <;> cases hw
        rfl
    · rw [List.mem_singleton.1 ht₀] at hw
      cases hw

/-- A caller that watches its command makes another attempt, and goes on watching. -/
theorem Sound.heeded_retried {watching : Watching} {left : Nat} (s : e.Sound) (h : e.Heeded)
    (hs' : e'.Stored) (he : e.stack = .attempt w :: below)
    (he' : e'.stack = (if router.detached then [Task.reply (.error .notFound)] else
      [Task.drain w.router, Task.watch { w with patience := .retrying watching left }]) ++ below)
    (begun : e.Begun e' w.router w.command router old) : e'.Heeded := by
  have hmem : .attempt w ∈ e.stack := he ▸ List.mem_cons_self
  obtain ⟨⟨-, hfresh, watching', left', hpatience⟩, -⟩ := s.tasks _ hmem
  have hunheard : e.Unheard w.command := by
    rcases h.watched _ hmem w rfl with hfuture | hunheard
    · rw [hpatience] at hfuture
      cases hfuture
    · exact hunheard
  have hnobody : old.listener = .nobody := by
    obtain ⟨command, hc, hl⟩ := hunheard
    rw [begun.before] at hc
    cases hc
    exact hl
  have hheard (hq : e'.Queued w.command) : Awaited (if router.detached then
      [.reply (.error .notFound)] else
      [.drain w.router, .watch { w with patience := .retrying watching left }]) w.command := by
    cases hd : router.detached with
    | true => exact absurd (begun.queued_detached hd hq) hfresh
    | false => exact ⟨_, List.mem_cons_of_mem _ List.mem_cons_self, _, rfl, rfl⟩
  refine h.begins hs' _ he he' (s.alike_refl).retains begun (fun reply => ?_)
    (fun hq => .inr (hheard hq)) (fun w' hw hq => ?_) (fun t₀ ht₀ w' hw => .inr ?_)
  · rw [hnobody]
    nofun
  · cases hw
    exact hheard hq
  · cases hd : router.detached <;> rw [hd] at ht₀
    · rcases List.mem_pair.1 ht₀ with rfl | rfl
      · cases hw
      · cases hw
        exact hunheard
    · rw [List.mem_singleton.1 ht₀] at hw
      cases hw

theorem Sound.heeded_inner (s : e.Sound) (h : e.Heeded) (k : Inner e m e') : e'.Heeded := by
  have hs := s.toStored
  have hs' := (s.of_inner k).toStored
  have nothing : ∀ t ∈ ([] : List Task), t.waiter? = none := List.forall_mem_nil _
  have plain {t : Task} (ht : t.waiter? = none) : ∀ t' ∈ [t], t'.waiter? = none :=
    List.forall_mem_singleton.2 ht
  have pair {t t' : Task} (ht : t.waiter? = none) (ht' : t'.waiter? = none) :
      ∀ t₀ ∈ [t, t'], t₀.waiter? = none := List.forall_mem_cons.2 ⟨ht, plain ht'⟩
  cases k with
  | quiet gone tasks below he he' hgone hquiet hfits a =>
    exact h.retained gone tasks he he' a.retains (fun t ht => Task.waiter?_of_quiet (hgone t ht))
      (fun t ht => Task.waiter?_of_quiet (hquiet t ht)) hs'
  | returned tag reply below he he' hm a =>
    exact h.retained [.notify tag reply] [] he he' a.retains (plain rfl) nothing hs'
  | expired r c old tasks below he he' hquiet hfits a =>
    exact h.ended hs hs' [.expire r c] he he' (plain rfl) hquiet a rfl
  | refused r c old fault tasks below he he' hquiet hfits hslot a =>
    exact h.ended hs hs' [.offer r c] he he' (plain rfl) hquiet a rfl
  | noted r c old signal words he' hslot signalled hdone a =>
    exact h.retained [] [.handled] rfl he' (a.retains hs id (.inr ⟨rfl, rfl⟩)) nothing (plain rfl)
      hs'
  | completed r c old signal words tasks he' hquiet hfits hslot signalled hdone a =>
    exact h.ended hs hs' [] rfl he' nothing hquiet a rfl
  | interrupted r c old event tasks he' hquiet hfits hslot a =>
    exact h.ended hs hs' [] rfl he' nothing hquiet a rfl
  | finished r result below he he' a =>
    exact h.retained [.perform r (.done result)] [.answer result] he he' a.retains (plain rfl)
      (plain rfl) hs'
  | asked r request next t tasks below he he' hquiet hfits asked a =>
    have split : e'.stack = (tasks ++ [t, .resume r next]) ++ below := by
      rw [he', List.append_assoc]
      rfl
    have ht : t.waiter? = none := by cases asked <;> rfl
    exact h.retained [.perform r (.ask request next)] _ he split a.retains (plain rfl)
      (List.forall_mem_append.2 ⟨fun t ht => Task.waiter?_of_quiet (hquiet t ht), pair ht rfl⟩) hs'
  | unlinked r next below he he' parted hm =>
    exact h.retained [.perform r (.ask .unlink next)] [.reply (.ok []), .resume r next] he he'
      parted.retains (plain rfl) (pair rfl rfl) hs'
  | resumed r next reply below he he' a =>
    exact h.retained [.reply reply, .resume r next] [.perform r (next reply)] he he' a.retains
      (pair rfl rfl) (plain rfl) hs'
  | dropped reply below he hbelow he' a =>
    exact h.retained [.reply reply] [] he he' a.retains (plain rfl) nothing hs'
  | unframed r command style failure below he he' a =>
    exact h.retained [.allocate r command style] [.reply (.error failure)] he he' a.retains
      (plain rfl) (plain rfl) hs'
  | framed r command watching below he he' added =>
    obtain ⟨⟨-, -, hmade⟩, -⟩ := s.tasks (.allocate r command _) (he ▸ List.mem_cons_self)
    have hnobody : command.listener = .nobody := by
      rw [hmade]
      rfl
    exact h.comes he he' (added.retains hs) rfl rfl ⟨command, added.command_new, hnobody⟩ hs'
  | issued r command style t mid router below he he' issued added begun =>
    exact s.heeded_issued h hs' he he' issued added begun
  | retried w watching left router old below he he' begun =>
    exact s.heeded_retried h hs' he he' begun
  | exhausted w below he he' a =>
    obtain ⟨⟨-, hfresh, -⟩, -⟩ := s.tasks (.attempt w) (he ▸ List.mem_cons_self)
    exact h.leaves [.reply (.error .timeout)] he he' a.retains rfl
      (fun hq => hfresh ((queued_iff_of_members a.members _).1 hq)) (plain rfl) hs'
  | watched w deadline below he he' a => exact h.waits [] he he' a.retains rfl rfl nothing hs'
  | settled w t t' command below he ht he' hcommand hsettled a =>
    have hw : t.waiter? = some w := by
      rcases ht with rfl | ⟨deadline, rfl⟩ <;> rfl
    rcases hsettled with ⟨reply, rfl, hreply⟩ | ⟨rfl, -⟩
    · refine h.leaves [.reply reply] he he' a.retains hw (fun hq => ?_) (plain rfl) hs'
      have hq := (queued_iff_of_members a.members _).1 hq
      obtain ⟨hnone, hfuture⟩ := h.unended _ command hq hcommand
      rcases hreply with hl | ⟨ending, hending, -⟩
      · exact hfuture reply hl
      · rw [hnone] at hending
        cases hending
    · exact h.waits [] he he' a.retains hw rfl nothing hs'
  | unclaimed w deadline below he he' a => exact h.waits [] he he' a.retains rfl rfl nothing hs'
  | withdrawn w deadline mid old expired t tasks below he he' hquiet hfits ht hmem changed forced =>
    have hmid := (changed.passes hs rfl (fun _ => id) nofun).stored
    have k : e.Retains e' := (changed.retains hs id (.inl rfl)).trans (forced.retains hmid)
    have htasks : ∀ t ∈ expired.toList.map (Task.expire w.router) ++ tasks, t.waiter? = none :=
      fun t ht => Task.waiter?_of_chore (Task.isChore_withdrawn hquiet w.router expired t ht)
    rcases ht with rfl | ⟨rfl, -⟩
    · have split : e'.stack = (expired.toList.map (Task.expire w.router) ++ tasks ++
          [Task.reply (.error .timeout)]) ++ below := by
        rw [he', List.append_assoc _ [_]]
        rfl
      exact h.leaves _ he split k rfl
        (fun hq => changed.not_queued hs ((forced.passes hmid).1.queued _ hq))
        (List.forall_mem_append.2 ⟨htasks, plain rfl⟩) hs'
    · exact h.waits _ he he' k rfl rfl htasks hs'
  | unregistered failure below he he' a =>
    exact h.retained [.register] [.answer (.error failure)] he he' a.retains (plain rfl) (plain rfl)
      hs'
  | rooted linked t below he he' joined ht =>
    have hw : t.waiter? = none := by
      rcases ht with ⟨-, failure, rfl⟩ | ⟨-, settings, rfl⟩ <;> rfl
    exact h.retained [.register] [t] he he' joined.retains (plain rfl) (plain hw) hs'

theorem Sound.heeded_called {call : Call} (s : e.Sound) (h : e.Heeded) (k : Called e call e')
    (hs' : e'.Stored) : e'.Heeded := by
  have hs := s.toStored
  have nothing : ∀ t ∈ ([] : List Task), t.waiter? = none := List.forall_mem_nil _
  have plain {t : Task} (ht : t.waiter? = none) : ∀ t' ∈ [t], t'.waiter? = none :=
    List.forall_mem_singleton.2 ht
  cases k with
  | answered result hresult he' a =>
    exact h.retained [] [.answer result] rfl he' a.retains nothing (plain rfl) hs'
  | operated r operation router settings hr he' a =>
    exact h.retained [] [.perform r (operation.program settings router)] rfl he' a.retains nothing
      (plain rfl) hs'
  | attached parent route linked t he' joined ht =>
    have hw : t.waiter? = none := by
      rcases ht with ⟨-, failure, rfl⟩ | ⟨-, settings, rfl⟩ <;> rfl
    exact h.retained [] [t] rfl he' joined.retains nothing (plain hw) hs'
  | detached r expired mid rs tasks result he' hquiet hfits forced cut hempty =>
    have split := he'.trans (List.append_assoc _ [.answer result] e.stack).symm
    have htasks := fun t ht =>
      Task.waiter?_of_chore (Task.isChore_detached hquiet expired t ht)
    exact h.retained [] _ rfl split ((forced.retains hs).trans cut.retains) nothing
      (List.forall_mem_append.2 ⟨htasks, plain rfl⟩) hs'

end Engine

variable {settings : Settings} {turns : List Turn} {e : Engine}

theorem heeded_opening (settings : Settings) : (opening settings).Heeded := by
  have empty (c : CommandRef) : ¬ (opening settings).Queued c := by
    rintro ⟨r, hmem⟩
    rw [queue_opening] at hmem
    cases hmem
  refine ⟨fun c _ hq => absurd hq (empty c), fun c hq => absurd hq (empty c), fun t ht w hw => ?_⟩
  rcases stack_opening settings with hs | ⟨failure, hs⟩
  all_goals
    rw [hs, List.mem_singleton] at ht
    rw [ht] at hw
    cases hw

/-- **In every state of a run, somebody waits for each command in a queue.** -/
theorem Run.heeded (h : Run settings turns e) : e.Heeded := by
  induction h with
  | start => exact heeded_opening settings
  | next prior ha hm ih =>
    have hs' := (prior.sound.of_moved ha (prior.moved ha hm)).toStored
    cases prior.moved ha hm with
    | inner _ _ k => exact prior.sound.heeded_inner ih k
    | called k => exact prior.sound.heeded_called ih k hs'
    | collected result below he he' a =>
      exact ih.retained [.answer result] [] he he' a.retains (List.forall_mem_singleton.2 rfl)
        (List.forall_mem_nil _) hs'

end RouterFabric
