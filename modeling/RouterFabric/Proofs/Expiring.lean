import RouterFabric.Proofs.Engine.Armed
import RouterFabric.Proofs.Engine.Endings
import RouterFabric.Proofs.Engine.Verdicts
import RouterFabric.Proofs.Run

/-!
# Commands that are about to end

A command that has held its slot for too long is taken out of it first and ended afterwards, by a
task of its own. In between it is in no queue, so nobody takes it out a second time, and what is
kept of its end is kept once.

* `Engine.Lines` : what a move does to the commands that are about to end
* `Run.expiring_nodup` : none of them is about to end twice
* `Run.clear` : whoever looks at a command sees the same
* `Run.reported` : what becomes of what a command keeps, as long as its caller takes no part
-/

namespace RouterFabric

namespace Engine

variable {e e' : Engine} {m : Move} {c : CommandRef} {w : Waiter} {t : Task}
  {gone tasks below : List Task}

theorem mem_expiring : c ∈ e.expiring ↔ ∃ r, .expire r c ∈ e.stack := by
  unfold expiring
  rw [List.mem_filterMap]
  constructor
  · rintro ⟨t, ht, heq⟩
    cases t with
    | expire r c' =>
      cases heq
      exact ⟨r, ht⟩
    | _ => cases heq
  · rintro ⟨r, ht⟩
    exact ⟨_, ht, rfl⟩

theorem expires?_of_loose (h : t.isLoose = true) : t.expires? = none := by
  cases t <;> first | rfl | cases h

theorem expires?_of_quiet (h : t.isQuiet = true) : t.expires? = none :=
  expires?_of_loose (Task.isLoose_of_quiet h)

/-- Tasks that end no command come and go. -/
theorem expiring_swap (gone tasks : List Task) (he : e.stack = gone ++ below)
    (he' : e'.stack = tasks ++ below) (hgone : ∀ t ∈ gone, t.expires? = none)
    (htasks : ∀ t ∈ tasks, t.expires? = none) :
    e'.expiring = e.expiring := by
  unfold expiring
  rw [he, he', List.filterMap_append, List.filterMap_append, List.filterMap_eq_nil_iff.2 hgone,
    List.filterMap_eq_nil_iff.2 htasks]

/-- The commands that have been taken out of their slots are different ones. -/
theorem Forced.nodup {cs : List (RouterRef × CommandRef)} (f : Forced e cs e') (h : e.Stored) :
    (cs.map Prod.snd).Nodup := by
  induction f with
  | none => exact List.nodup_nil
  | skip a _ ih => exact ih (h.of_alike a)
  | next hs hc f ih =>
    have hmid := (hc.passes_forced h).stored
    refine List.nodup_cons.2 ⟨fun hmem => ?_, ih hmid⟩
    obtain ⟨p, hp, rfl⟩ := List.mem_map.1 hmem
    exact hc.not_queued h (f.was_queued hmid p hp)

/-- What a move does to the commands that are about to end: one of them ends, or some come in that
have just been in their slots. -/
inductive Lines (e e' : Engine) : Prop
  | popped (c : CommandRef) : e.expiring = c :: e'.expiring →
      (∃ command, e'.command? c = some command ∧ command.verdict = (true, some .expired)) →
      Lines e e'
  | pushed (new : List CommandRef) : e'.expiring = new ++ e.expiring → new.Nodup →
      (∀ c ∈ new, e.Queued c) → Lines e e'

theorem lines_same (h : e'.expiring = e.expiring) : e.Lines e' :=
  .pushed [] h List.nodup_nil (List.forall_mem_nil _)

/-- Giving up an attempt lines up the one that it waited behind. -/
theorem withdrawn_expiring {deadline : Nat} {expired : Option CommandRef}
    (he : e.stack = .await w deadline :: below)
    (he' : e'.stack = expired.toList.map (.expire w.router) ++ tasks ++ t :: below)
    (hquiet : ∀ t ∈ tasks, t.isQuiet = true)
    (ht : t = .reply (.error .timeout) ∨ t = .attempt w ∧ ∃ watching left,
      w.patience = .retrying watching left) : e'.expiring = expired.toList ++ e.expiring := by
  have hnone : t.expires? = none := by
    rcases ht with rfl | ⟨rfl, -⟩ <;> rfl
  have hlined : (expired.toList.map (Task.expire w.router)).filterMap Task.expires? =
      expired.toList := by
    cases expired <;> rfl
  unfold expiring
  rw [he, he', List.append_assoc, List.filterMap_append, hlined, List.filterMap_append,
    List.filterMap_eq_nil_iff.2 fun t ht => expires?_of_quiet (hquiet t ht), List.nil_append,
    List.filterMap_cons_none hnone]
  rfl

theorem Inner.lines (k : Inner e m e') (h : e.Stored) : e.Lines e' := by
  have quiets {l : List Task} (hl : ∀ t ∈ l, t.isQuiet = true) : ∀ t ∈ l, t.expires? = none :=
    fun t ht => expires?_of_quiet (hl t ht)
  have notes (old : Command) (ending : Ending) {l : List Task} (hl : ∀ t ∈ l, t.isQuiet = true) :
      ∀ t ∈ old.notes ending ++ l, t.expires? = none :=
    fun t ht => expires?_of_loose (Task.isLoose_ended hl old ending t ht)
  have one {t : Task} (ht : t.expires? = none) : ∀ t' ∈ [t], t'.expires? = none :=
    List.forall_mem_singleton.2 ht
  have empty : ∀ t ∈ ([] : List Task), t.expires? = none := List.forall_mem_nil _
  have nothing : e.stack = [] ++ e.stack := rfl
  cases k with
  | quiet gone tasks below he he' hgone hquiet hfits a =>
    exact lines_same (expiring_swap _ _ he he' (quiets hgone) (quiets hquiet))
  | returned tag reply below he he' hm a =>
    exact lines_same (expiring_swap [.notify tag reply] [] he he' (one rfl)
      empty)
  | expired r c old tasks below he he' hquiet hfits a =>
    refine .popped c ?_ ⟨_, a.after, rfl⟩
    unfold expiring
    rw [he, he', List.filterMap_append, List.filterMap_eq_nil_iff.2 (notes old .expired hquiet)]
    rfl
  | refused r c old fault tasks below he he' hquiet hfits hslot a =>
    exact lines_same (expiring_swap [.offer r c] _ he he' (one rfl) (notes old _ hquiet))
  | noted r c old signal words he' hslot signalled hdone a =>
    exact lines_same (expiring_swap _ [.handled] nothing he' empty (one rfl))
  | completed r c old signal words tasks he' hquiet hfits hslot signalled hdone a =>
    exact lines_same (expiring_swap _ _ nothing he' empty (notes old _ hquiet))
  | interrupted r c old event tasks he' hquiet hfits hslot a =>
    exact lines_same (expiring_swap _ _ nothing he' empty (notes old _ hquiet))
  | finished r result below he he' a =>
    exact lines_same (expiring_swap [_] [.answer result] he he' (one rfl)
      (one rfl))
  | asked r request next t tasks below he he' hquiet hfits asked a =>
    have ht : t.expires? = none := by cases asked <;> rfl
    exact lines_same (expiring_swap [_] (tasks ++ [t, .resume r next]) he (by simp [he']) (one rfl)
      (List.forall_mem_append.2 ⟨quiets hquiet, List.forall_mem_cons.2 ⟨ht, one rfl⟩⟩))
  | unlinked r next below he he' parted hm =>
    exact lines_same (expiring_swap [_] [.reply (.ok []), .resume r next] he
      he' (one rfl) (by simp [Task.expires?]))
  | resumed r next reply below he he' a =>
    exact lines_same (expiring_swap [.reply reply, .resume r next] [_] he he'
      (by simp [Task.expires?]) (one rfl))
  | dropped reply below he hbelow he' a =>
    exact lines_same (expiring_swap [.reply reply] [] he he' (one rfl) empty)
  | unframed r command style failure below he he' a =>
    exact lines_same (expiring_swap [_] [.reply (.error failure)] he he'
      (one rfl) (one rfl))
  | framed r command watching below he he' added =>
    exact lines_same (expiring_swap [_] [.attempt _] he he' (one rfl)
      (one rfl))
  | issued r command style t mid router below he he' issued added begun =>
    have ht : t.expires? = none := by cases issued <;> rfl
    refine lines_same (expiring_swap [_] _ he he' (one rfl) ?_)
    split
    · exact one rfl
    · exact List.forall_mem_cons.2 ⟨rfl, one ht⟩
  | retried w watching left router old below he he' begun =>
    refine lines_same (expiring_swap [.attempt w] _ he he' (one rfl) ?_)
    split
    · exact one rfl
    · exact List.forall_mem_cons.2 ⟨rfl, one rfl⟩
  | exhausted w below he he' a =>
    exact lines_same (expiring_swap [.attempt w] [_] he he' (one rfl)
      (one rfl))
  | watched w deadline below he he' a =>
    exact lines_same (expiring_swap [.watch w] [_] he he' (one rfl) (one rfl))
  | settled w t t' command below he ht he' hcommand hsettled a =>
    have hgone : t.expires? = none := by
      rcases ht with rfl | ⟨deadline, rfl⟩ <;> rfl
    have hnew : t'.expires? = none := by
      rcases hsettled with ⟨reply, rfl, -⟩ | ⟨rfl, -⟩ <;> rfl
    exact lines_same (expiring_swap [t] [t'] he he' (one hgone) (one hnew))
  | unclaimed w deadline below he he' a =>
    exact lines_same (expiring_swap [_] [.claimed w] he he' (one rfl)
      (one rfl))
  | withdrawn w deadline mid old expired t tasks below he he' hquiet hfits ht hmem changed forced =>
    have hmid := (changed.passes h rfl (fun _ => id) (fun hleft => Bool.noConfusion hleft)).stored
    refine .pushed expired.toList (withdrawn_expiring he he' hquiet ht) ?_ fun c hc => ?_
    · cases expired <;> simp
    · have hq := forced.was_queued hmid (w.router, c) (List.mem_map.2 ⟨c, hc, rfl⟩)
      exact changed.queued hq
  | unregistered failure below he he' a =>
    exact lines_same (expiring_swap [.register] [_] he he' (one rfl) (one rfl))
  | rooted linked t below he he' joined ht =>
    have hnew : t.expires? = none := by
      rcases ht with ⟨-, failure, rfl⟩ | ⟨-, settings, rfl⟩ <;> rfl
    exact lines_same (expiring_swap [.register] [t] he he' (one rfl)
      (one hnew))

theorem Called.lines {call : Call} (k : Called e call e') (h : e.Stored) : e.Lines e' := by
  have one {t : Task} (ht : t.expires? = none) : ∀ t' ∈ [t], t'.expires? = none :=
    List.forall_mem_singleton.2 ht
  have begun {t : Task} (he' : e'.stack = t :: e.stack) (ht : t.expires? = none) : e.Lines e' :=
    lines_same (expiring_swap [] [t] rfl he' (List.forall_mem_nil _) (one ht))
  cases k with
  | answered result hresult he' a => exact begun he' rfl
  | operated r operation router settings hr he' a => exact begun he' rfl
  | attached parent route linked t he' joined ht =>
    refine begun he' ?_
    rcases ht with ⟨-, failure, rfl⟩ | ⟨-, settings, rfl⟩ <;> rfl
  | detached r expired mid rs tasks result he' hquiet hfits forced cut hempty =>
    refine .pushed (expired.map Prod.snd) ?_ (forced.nodup h) fun c hc => ?_
    · unfold expiring
      rw [he', List.append_assoc, List.filterMap_append, List.filterMap_map, List.filterMap_append,
        List.filterMap_eq_nil_iff.2 fun t ht => expires?_of_quiet (hquiet t ht),
        ← List.filterMap_eq_map]
      rfl
    · obtain ⟨p, hp, rfl⟩ := List.mem_map.1 hc
      exact forced.was_queued h p hp

/-! ## Commands whose attempts are under way -/

/-- The current attempt of the command is under way. -/
structure Open (e : Engine) (c : CommandRef) : Prop where
  lives : e.Lives c
  unended : ∃ command, e.command? c = some command ∧ command.pollComplete = false

/-- The current attempt of the command has ended, and nobody has taken note. -/
structure Shut (e : Engine) (c : CommandRef) (ending : Ending) : Prop where
  closed : ¬ e.Lives c
  ended : ∃ command, e.command? c = some command ∧ command.verdict = (true, some ending)

/-- Whoever waits for the command takes no part in a move. -/
def Unattended (e e' : Engine) (c : CommandRef) : Prop :=
  ∀ t below w, e.stack = t :: below → t.waiter? = some w → w.command = c →
    ∃ tasks, e'.stack = tasks ++ e.stack

/-- Where another task stands in the place of a caller's, the caller has taken part. -/
theorem Unattended.ne (hc : e.Unattended e' c) (hs : e.stack = t :: below)
    (hw : t.waiter? = some w) (h : e'.Supplants t below) : w.command ≠ c := by
  rintro rfl
  obtain ⟨tasks, hkept⟩ := hc t below w hs hw rfl
  exact h.stirs hs tasks hkept

theorem lives_iff : e.Lives c ↔ e.Queued c ∨ c ∈ e.expiring := by
  rw [mem_expiring]
  rfl

theorem Changed.queued_next {old new : Command} {c' : CommandRef} {left : Bool}
    (a : e.Changed e' c' old new left) (hq : e.Queued c)
    (hnew : left = false ∨ ∃ ending, new.verdict = (true, some ending)) :
    e'.Queued c ∨ ∃ command ending, e'.command? c = some command ∧
      command.verdict = (true, some ending) := by
  by_cases hne : c = c'
  · subst hne
    rcases hnew with rfl | ⟨ending, hending⟩
    · obtain ⟨r, hmem⟩ := hq
      exact .inl ⟨r, by rw [a.members]; exact hmem⟩
    · exact .inr ⟨new, ending, a.after, hending⟩
  · exact .inl ((a.queued_iff hne).2 hq)

/-- A command leaves its queue as its attempt ends, or to end a little later. -/
theorem Inner.queued_next (k : Inner e m e') (h : e.Sound) (hq : e.Queued c)
    (hc : e.Unattended e' c) : e'.Queued c ∨ c ∈ e'.expiring ∨
      ∃ command ending, e'.command? c = some command ∧ command.verdict = (true, some ending) := by
  have ended {c' : CommandRef} {old new : Command} {left : Bool}
      (a : e.Changed e' c' old new left)
      (hnew : left = false ∨ ∃ ending, new.verdict = (true, some ending)) :
      e'.Queued c ∨ c ∈ e'.expiring ∨
        ∃ command ending, e'.command? c = some command ∧ command.verdict = (true, some ending) :=
    (a.queued_next hq hnew).imp id .inr
  cases k with
  | quiet | returned | finished | asked | resumed | dropped | unframed | exhausted | watched
  | settled | unclaimed | unregistered =>
    rename_i a
    exact .inl ((queued_iff_of_members a.members c).2 hq)
  | expired r c' old tasks below he he' hquiet hfits a => exact ended a (.inr ⟨_, rfl⟩)
  | refused r c' old fault tasks below he he' hquiet hfits hslot a =>
    exact ended a (.inr ⟨_, rfl⟩)
  | noted r c' old signal words he' hslot signalled hdone a => exact ended a (.inl rfl)
  | completed r c' old signal words tasks he' hquiet hfits hslot signalled hdone a =>
    exact ended a (.inr ⟨_, rfl⟩)
  | interrupted r c' old event tasks he' hquiet hfits hslot a => exact ended a (.inr ⟨_, rfl⟩)
  | unlinked r next below he he' parted hm =>
    exact .inl ((queued_iff_of_members (fun r => by rw [parted.queues]) c).2 hq)
  | framed r command watching below he he' added =>
    exact .inl ((queued_iff_of_members added.members c).2 hq)
  | rooted linked t below he he' joined ht =>
    exact .inl ((queued_iff_of_members (fun r => by rw [joined.queue]) c).2 hq)
  | issued r command style t mid router below he he' issued added begun =>
    have hmid : mid.Queued c := (queued_iff_of_members added.members c).2 hq
    have hne : c ≠ ⟨e.commands.length⟩ := by
      rintro rfl
      exact Nat.lt_irrefl _ (h.lt_of_queued hq)
    exact .inl ((begun.queued_of_ne hne).2 hmid)
  | retried w watching left router old below he he' begun =>
    have supplants : e'.Supplants (.attempt w) below := by
      split at he'
      · exact ⟨[], _, he', nofun⟩
      · exact ⟨[.drain w.router], _, he', nofun⟩
    exact .inl ((begun.queued_of_ne (hc.ne he rfl supplants).symm).2 hq)
  | withdrawn w deadline mid old expired t tasks below he he' hquiet hfits ht hmem changed forced =>
    have hmid := (changed.passes h.toStored rfl (fun _ => id) nofun).stored
    have supplants : e'.Supplants (.await w deadline) below := by
      refine ⟨_, t, he', ?_⟩
      rcases ht with rfl | ⟨rfl, -⟩ <;> nofun
    have hq' : mid.Queued c := (changed.queued_iff (hc.ne he rfl supplants).symm).2 hq
    rcases (forced.queued_iff hmid c).2 hq' with hq' | ⟨r, hmem'⟩
    · exact .inl hq'
    · obtain ⟨c', hc', heq⟩ := List.mem_map.1 hmem'
      cases heq
      refine .inr (.inl ?_)
      rw [withdrawn_expiring he he' hquiet ht]
      exact List.mem_append_left _ hc'

theorem Called.queued_next {call : Call} (k : Called e call e') (h : e.Stored)
    (hq : e.Queued c) : e'.Queued c ∨ c ∈ e'.expiring := by
  cases k with
  | answered result hresult he' a => exact .inl ((queued_iff_of_members a.members c).2 hq)
  | operated r operation router settings hr he' a =>
    exact .inl ((queued_iff_of_members a.members c).2 hq)
  | attached parent route linked t he' joined ht =>
    exact .inl ((queued_iff_of_members (fun r => by rw [joined.queue]) c).2 hq)
  | detached r expired mid rs tasks result he' hquiet hfits forced cut hempty =>
    rcases (forced.queued_iff h c).2 hq with hq' | ⟨r', hmem⟩
    · exact .inl ((cut.same 0 c).2.2 hq')
    · refine .inr (mem_expiring.2 ⟨r', ?_⟩)
      rw [he']
      exact List.mem_append_left _ (List.mem_append_left _ (List.mem_map.2 ⟨_, hmem, rfl⟩))

end Engine

/-! ## Runs -/

section runs

open Engine

variable {settings : Settings} {turns : List Turn} {e e' : Engine} {m : Move} {c : CommandRef}

theorem Engine.Sound.lines (h : e.Sound) (ha : ∀ call, m = .call call → e.Allows call)
    (hm : e.move? m = some e') : e.Lines e' := by
  cases h.moved ha hm with
  | inner hcall hcollect k => exact k.lines h.toStored
  | called k => exact k.lines h.toStored
  | collected result below he he' a =>
    exact lines_same (expiring_swap [.answer result] [] he he'
      (List.forall_mem_singleton.2 rfl) (List.forall_mem_nil _))

/-- A command that is about to end is in no queue. -/
theorem Engine.Sound.not_queued_of_expiring (h : e.Sound) (hc : c ∈ e.expiring) :
    ¬ e.Queued c := by
  obtain ⟨r, ht⟩ := mem_expiring.1 hc
  exact (h.tasks (.expire r c) ht).1

/-- **No command is about to end twice.** -/
theorem Run.expiring_nodup (h : Run settings turns e) : e.expiring.Nodup := by
  induction h with
  | start =>
    rcases stack_opening settings with hs | ⟨failure, hs⟩ <;>
    · unfold expiring
      rw [hs]
      exact List.nodup_nil
  | @next turns e e' m prior ha hm ih =>
    cases prior.sound.lines ha hm with
    | popped c hpopped hended =>
      rw [hpopped] at ih
      exact (List.nodup_cons.1 ih).2
    | pushed new hpushed hnew hqueued =>
      rw [hpushed]
      refine List.nodup_append.2 ⟨hnew, ih, fun c hc c' hc' heq => ?_⟩
      exact prior.sound.not_queued_of_expiring (heq ▸ hc') (hqueued c hc)

theorem clear_commands_opening (settings : Settings) : (opening settings).commands.Clear := by
  intro c command hc
  rw [show (opening settings).commands.get? c = none from command?_opening settings c] at hc
  cases hc

theorem Engine.Sound.clear (h : e.Sound) (hm : e.move? m = some e') (hclear : e.commands.Clear) :
    e'.commands.Clear := by
  cases h.rules hm with
  | still still => exact still.clear hclear
  | added r command style below hs he' hverdicts hadded => exact hadded hclear
  | begun w t below hs hw supplants shifts => exact shifts.clear hclear
  | taken w t below hs hw supplants shifts => exact shifts.clear hclear
  | ended c ending ends => exact ends.shifts.clear hclear

/-- **Whoever looks at a command sees the same.** -/
theorem Run.clear (h : Run settings turns e) : e.commands.Clear := by
  induction h with
  | start => exact clear_commands_opening settings
  | next prior _ hm ih => exact prior.sound.clear hm ih

/-- A command that lives goes on living until its attempt ends. -/
theorem Run.lives_next (h : Run settings turns e) (ha : ∀ call, m = .call call → e.Allows call)
    (hm : e.move? m = some e') (hl : e.Lives c) (hc : e.Unattended e' c) : e'.Lives c ∨
      ∃ command ending, e'.command? c = some command ∧ command.verdict = (true, some ending) := by
  rw [lives_iff] at hl ⊢
  rcases hl with hq | hexpiring
  · cases h.moved ha hm with
    | inner hcall hcollect k => exact or_assoc.2 (k.queued_next h.sound hq hc)
    | called k => exact .inl (k.queued_next h.sound.toStored hq)
    | collected result below he he' a =>
      exact .inl (.inl ((queued_iff_of_members a.members c).2 hq))
  · cases h.sound.lines ha hm with
    | popped c' hpopped hended =>
      rw [hpopped] at hexpiring
      rcases List.mem_cons.1 hexpiring with rfl | hexpiring
      · obtain ⟨command, hc', hverdict⟩ := hended
        exact .inr ⟨command, _, hc', hverdict⟩
      · exact .inl (.inr hexpiring)
    | pushed new hpushed hnew hqueued =>
      rw [hpushed]
      exact .inl (.inr (List.mem_append_right _ hexpiring))

/-- What a command keeps. -/
theorem verdict_iff {verdict : Bool × Option Ending} :
    e.commands.verdicts[c.index]? = some verdict ↔
      ∃ command, e.command? c = some command ∧ command.verdict = verdict := by
  unfold Commands.verdicts
  rw [List.getElem?_map, Option.map_eq_some_iff]
  rfl

/-- **What becomes of what a command keeps**, as long as its caller takes no part: nothing, or its
attempt was under way and has ended. -/
theorem Run.reported (h : Run settings turns e) (ha : ∀ call, m = .call call → e.Allows call)
    (hm : e.move? m = some e') (hc : e.Unattended e' c) {verdict : Bool × Option Ending}
    (hv : e.commands.verdicts[c.index]? = some verdict) :
    e'.commands.verdicts[c.index]? = some verdict ∨ ∃ ending, e.Lives c ∧ e'.Shut c ending := by
  have elsewhere {c' : CommandRef} {g : Bool × Option Ending → Bool × Option Ending}
      (hne : c' ≠ c) (shifts : e.commands.Shifts e'.commands c' g) :
      e'.commands.verdicts[c.index]? = some verdict := by
    rw [shifts.verdicts, List.getElem?_modify_ne _ _ fun i => hne (Commands.ref_eq_iff.2 i)]
    exact hv
  cases h.sound.rules hm with
  | still still =>
    left
    rw [still.verdicts]
    exact hv
  | added r command style below hs he' hverdicts hclear =>
    left
    rw [hverdicts, List.getElem?_append_left (List.getElem?_eq_some_iff.1 hv).1]
    exact hv
  | begun w t below hs hw supplants shifts | taken w t below hs hw supplants shifts =>
    exact .inl (elsewhere (hc.ne hs hw supplants) shifts)
  | ended c' ending ends =>
    by_cases hne : c' = c
    · subst hne
      have hended : e'.commands.verdicts[c'.index]? = some (true, some ending) := by
        rw [ends.shifts.verdicts, List.getElem?_modify_eq, hv]
        rfl
      obtain ⟨command, hcommand, hverdict⟩ := verdict_iff.1 hended
      have hlives : e.Lives c' := by
        rw [lives_iff]
        rcases ends.lived with ⟨hq, -⟩ | hpopped
        · exact .inl hq
        · exact .inr (hpopped ▸ List.mem_cons_self)
      refine .inr ⟨ending, hlives, ?_, command, hcommand, hverdict⟩
      rw [lives_iff]
      rintro (⟨r, hmem⟩ | hexpiring)
      · -- what is in a queue has not ended
        obtain ⟨command', hc', -, -, hpoll⟩ := (h.next ha hm).sound.members r c' hmem
        cases hc'.symm.trans hcommand
        cases hpoll.symm.trans (congrArg Prod.fst hverdict)
      · rcases ends.lived with ⟨hq, hsame⟩ | hpopped
        · exact h.sound.not_queued_of_expiring (hsame ▸ hexpiring) hq
        · have hnodup := h.expiring_nodup
          rw [hpopped] at hnodup
          exact (List.nodup_cons.1 hnodup).1 hexpiring
    · exact .inl (elsewhere hne ends.shifts)

/-- An attempt that is under way goes on or ends. -/
theorem Run.open_next (h : Run settings turns e) (ha : ∀ call, m = .call call → e.Allows call)
    (hm : e.move? m = some e') (hc : e.Unattended e' c) (ho : e.Open c) :
    e'.Open c ∨ ∃ ending, e'.Shut c ending := by
  obtain ⟨hl, command, hcommand, hpoll⟩ := ho
  rcases h.reported ha hm hc (verdict_iff.2 ⟨command, hcommand, rfl⟩) with hv | ⟨ending, -, hshut⟩
  · left
    obtain ⟨command', hc', hverdict⟩ := verdict_iff.1 hv
    have hpoll' : command'.pollComplete = false := (congrArg Prod.fst hverdict).trans hpoll
    rcases h.lives_next ha hm hl hc with hl' | ⟨other, ending, hother, hended⟩
    · exact ⟨hl', command', hc', hpoll'⟩
    · cases hother.symm.trans hc'
      cases hpoll'.symm.trans (congrArg Prod.fst hended)
  · exact .inr ⟨ending, hshut⟩

end runs

end RouterFabric
