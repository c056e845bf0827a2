import RouterFabric.Proofs.Attempts
import RouterFabric.Proofs.Expiring
import RouterFabric.Proofs.Sessions

/-!
# Crowds of callers

Any number of callers may use a topology at a time, each with work of its own under way. One of
them is in control and makes the moves; control passes to another one at any point between two of
them, whatever each of them is in the midst of. So a caller may give up, or find that its command
has ended, while another one is handing that command to the transport, and it may be attached,
detached or expired meanwhile.

What is stored is shared, and what each caller has under way fits it. That it goes on fitting while
others move rests on who may touch a command: no two callers wait for the same one, and a command
that is about to end has been taken out of its queue for good, until it has ended.

* `Crowd` : the runs of a topology that any number of callers use
* `Engine.Peopled`, `Crowd.peopled` : what is stored is sound, and the work of all callers fits it
* `Crowd.sound` : whoever is in control sees a sound engine
* `inProgress`, `Crowd.bases` : the number of calls in progress
* `enact?` : the crowd that a list of acts makes, for concrete ones
-/

namespace RouterFabric

open Engine

variable {settings : Settings} {turns : List Turn} {e e' : Engine} {m : Move} {r : RouterRef}
  {c : CommandRef} {w : Waiter} {t : Task} {tasks below stack : List Task}
  {crew others : List (List Task)}

/-- The runs of a topology that any number of callers use. The engine has the stack of the caller in
control; the stacks of the others are kept apart. -/
inductive Crowd (settings : Settings) : List Turn → Engine → List (List Task) → Prop
  /-- one of the callers attaches the host router -/
  | start (n : Nat) : Crowd settings [] (opening settings) (List.replicate n [])
  /-- the caller in control makes a move -/
  | next {turns : List Turn} {e e' : Engine} {m : Move} {others : List (List Task)} :
      Crowd settings turns e others → (∀ call, m = .call call → e.Allows call) →
      e.move? m = some e' → Crowd settings (⟨e, m, e'⟩ :: turns) e' others
  /-- control passes to another caller -/
  | passes {turns : List Turn} {e : Engine} {others : List (List Task)} {stack : List Task}
      (i : Nat) : Crowd settings turns e others → others[i]? = some stack →
      Crowd settings turns { e with stack := stack } (others.set i e.stack)

/-- A run is that of a single caller. -/
theorem Run.crowd (h : Run settings turns e) : Crowd settings turns e [] := by
  induction h with
  | start => exact .start 0
  | next _ ha hm ih => exact .next ih ha hm

namespace Engine

/-! ## What a move takes up -/

/-- The command is to begin an attempt: a new one, or that of the caller on top. -/
def Due (e : Engine) (c : CommandRef) : Prop :=
  c.index = e.commands.length ∨ ∃ w below, e.stack = .attempt w :: below ∧ w.command = c

theorem Inner.queued_was (k : Inner e m e') (h : e.Stored) (hq : e'.Queued c) :
    e.Queued c ∨ e.Due c := by
  cases k with
  | quiet | returned | finished | asked | resumed | dropped | unframed | exhausted | watched
  | settled | unclaimed | unregistered =>
    rename_i a
    exact .inl ((queued_iff_of_members a.members c).1 hq)
  | expired | refused | noted | completed | interrupted =>
    rename_i a
    exact .inl (a.queued hq)
  | unlinked r next below he he' parted hm => exact .inl ((parted.passes h).queued c hq)
  | framed r command watching below he he' added => exact .inl ((added.passes h).queued c hq)
  | rooted linked t below he he' joined ht => exact .inl ((joined.passes h).queued c hq)
  | issued r command style t mid router below he he' issued added begun =>
    rcases begun.queued hq with hq | rfl
    · exact .inl ((added.passes h).queued c hq)
    · exact .inr (.inl rfl)
  | retried w watching left router old below he he' begun =>
    rcases begun.queued hq with hq | rfl
    · exact .inl hq
    · exact .inr (.inr ⟨w, below, he, rfl⟩)
  | withdrawn w deadline mid old expired t tasks below he he' hquiet hfits ht hmem changed forced =>
    have hmid := (changed.passes h rfl (fun _ => id) nofun).stored
    exact .inl (changed.queued ((forced.passes hmid).1.queued c hq))

/-- Whatever a move puts into a queue is to begin an attempt. -/
theorem Sound.queued_was (h : e.Sound) (ha : ∀ call, m = .call call → e.Allows call)
    (hm : e.move? m = some e') (hq : e'.Queued c) : e.Queued c ∨ e.Due c := by
  cases h.moved ha hm with
  | inner hcall hcollect k => exact k.queued_was h.toStored hq
  | collected result below he he' a => exact .inl ((queued_iff_of_members a.members c).1 hq)
  | called k =>
    cases k with
    | answered | operated =>
      rename_i a
      exact .inl ((queued_iff_of_members a.members c).1 hq)
    | attached parent route linked t he' joined ht =>
      exact .inl ((joined.passes h.toStored).queued c hq)
    | detached r expired mid rs tasks result he' hquiet hfits forced cut hempty =>
      have passes := (forced.passes h.toStored).1
      exact .inl (passes.queued c ((cut.passes passes.stored).queued c hq))

/-- The attempt of a command is over for its caller: it has been seen to have ended, or it has been
taken out of its queue, and not in order to end a little later. -/
def Spent (e e' : Engine) (c : CommandRef) : Prop :=
  (∃ command, e.command? c = some command ∧ command.pollComplete = true) ∨
    e.Queued c ∧ c ∉ e'.expiring

/-- How a caller comes to wait in a task after a move: it did so before, it has a new command, or it
has waited in another task. It begins another attempt only when the last one is over. -/
inductive WaitsOn (e e' : Engine) (t : Task) (w : Waiter) : Prop
  | kept : t ∈ e.stack → WaitsOn e e' t w
  | fresh : w.command.index = e.commands.length → WaitsOn e e' t w
  | turned (t' : Task) (w' : Waiter) : t' ∈ e.stack → t'.waiter? = some w' →
      w'.command = w.command → (t = .attempt w → e.Spent e' w.command) → WaitsOn e e' t w

/-- Whoever notices that an attempt has ended sees what all others see. -/
theorem pollComplete_of_notices {watching : Watching} {command : Command} (hclear : command.Clear)
    (hn : notices watching command = true) : command.pollComplete = true := by
  cases watching with
  | polling => exact hn
  | woken => exact hclear.2 (eq_of_beq hn)

/-- The attempt that a caller has given up is over for it. -/
theorem Sound.spent_of_withdrawn {mid : Engine} {old : Command} {expired : Option CommandRef}
    (h : e.Sound) (hmem : w.command ∈ (e.queue w.router).members)
    (changed : e.Changed mid w.command old old true)
    (forced : Forced mid (expired.toList.map (w.router, ·)) e')
    (hafter : e'.expiring = expired.toList ++ e.expiring) : e.Spent e' w.command := by
  have hq : e.Queued w.command := ⟨w.router, hmem⟩
  refine .inr ⟨hq, fun hexpiring => ?_⟩
  rw [hafter] at hexpiring
  rcases List.mem_append.1 hexpiring with hnow | hbefore
  · -- what is expired has been in its slot when this attempt was gone
    have hmid := (changed.passes h.toStored rfl (fun _ => id) nofun).stored
    exact changed.not_queued h.toStored
      (forced.was_queued hmid (w.router, w.command) (List.mem_map.2 ⟨_, hnow, rfl⟩))
  · exact h.not_queued_of_expiring hbefore hq

theorem Inner.waits_on (k : Inner e m e') (h : e.Sound) (hclear : e.commands.Clear)
    (ht : t ∈ e'.stack) (hw : t.waiter? = some w) : e.WaitsOn e' t w := by
  -- nobody waits in what is new
  have idle (gone tasks : List Task) {below : List Task} (he : e.stack = gone ++ below)
      (he' : e'.stack = tasks ++ below) (htasks : ∀ t ∈ tasks, t.waiter? = none) :
      e.WaitsOn e' t w := by
    rw [he'] at ht
    rcases List.mem_append.1 ht with ht | ht
    · rw [htasks t ht] at hw
      cases hw
    · exact .kept (he ▸ List.mem_append_right _ ht)
  -- besides chores, one task is new, in the place of the one on top
  have head (tasks : List Task) {top new : Task} {below : List Task} (he : e.stack = top :: below)
      (he' : e'.stack = tasks ++ new :: below) (htasks : ∀ t ∈ tasks, t.waiter? = none)
      (hnew : new.waiter? = some w → e.WaitsOn e' new w) : e.WaitsOn e' t w := by
    rw [he'] at ht
    rcases List.mem_append.1 ht with ht | ht
    · rw [htasks t ht] at hw
      cases hw
    · rcases List.mem_cons.1 ht with rfl | ht
      · exact hnew hw
      · exact .kept (he ▸ List.mem_cons_of_mem _ ht)
  have one {t : Task} (ht : t.waiter? = none) : ∀ t' ∈ [t], t'.waiter? = none :=
    List.forall_mem_singleton.2 ht
  have empty : ∀ t ∈ ([] : List Task), t.waiter? = none := List.forall_mem_nil _
  have quiets {l : List Task} (hl : ∀ t ∈ l, t.isQuiet = true) : ∀ t ∈ l, t.waiter? = none :=
    fun t ht => Task.waiter?_of_quiet (hl t ht)
  have notes {l : List Task} (old : Command) (ending : Ending) (hl : ∀ t ∈ l, t.isQuiet = true) :
      ∀ t ∈ old.notes ending ++ l, t.waiter? = none :=
    fun t ht => Task.waiter?_of_chore (Task.isChore_ended hl old ending t ht)
  -- the caller on top goes on waiting, in a task that begins no attempt
  have goes {top new : Task} {below : List Task} {w₀ : Waiter} (he : e.stack = top :: below)
      (htop : top.waiter? = some w₀) (hcommand : w₀.command = w.command)
      (hnew : new ≠ .attempt w) : e.WaitsOn e' new w :=
    .turned top w₀ (he ▸ List.mem_cons_self) htop hcommand fun heq => absurd heq hnew
  cases k with
  | quiet gone tasks below he he' hgone hquiet hfits a =>
    exact idle gone tasks he he' (quiets hquiet)
  | returned tag reply below he he' hm a => exact idle [_] [] he he' empty
  | expired r c old tasks below he he' hquiet hfits a =>
    exact idle [_] _ he he' (notes old _ hquiet)
  | refused r c old fault tasks below he he' hquiet hfits hslot a =>
    exact idle [_] _ he he' (notes old _ hquiet)
  | noted r c old signal words he' hslot signalled hdone a => exact idle [] [_] rfl he' (one rfl)
  | completed r c old signal words tasks he' hquiet hfits hslot signalled hdone a =>
    exact idle [] _ rfl he' (notes old _ hquiet)
  | interrupted r c old event tasks he' hquiet hfits hslot a =>
    exact idle [] _ rfl he' (notes old _ hquiet)
  | finished r result below he he' a => exact idle [_] [_] he he' (one rfl)
  | asked r request next t' tasks below he he' hquiet hfits asked a =>
    have hnew : t'.waiter? = none := by cases asked <;> rfl
    exact idle [_] (tasks ++ [t', .resume r next]) he (by simp [he'])
      (List.forall_mem_append.2 ⟨quiets hquiet, List.forall_mem_cons.2 ⟨hnew, one rfl⟩⟩)
  | unlinked r next below he he' parted hm =>
    exact idle [_] [.reply (.ok []), .resume r next] he he'
      (List.forall_mem_cons.2 ⟨rfl, one rfl⟩)
  | resumed r next reply below he he' a => exact idle [_, _] [_] he he' (one rfl)
  | dropped reply below he hbelow he' a => exact idle [_] [] he he' empty
  | unframed r command style failure below he he' a => exact idle [_] [_] he he' (one rfl)
  | framed r command watching below he he' added =>
    refine head [] he he' empty fun hw => ?_
    cases hw
    exact .fresh rfl
  | issued r command style t' mid router below he he' issued added begun =>
    cases hd : router.detached with
    | true =>
      rw [hd] at he'
      exact idle [_] [_] he he' (one rfl)
    | false =>
      rw [hd] at he'
      refine head [.drain r] he he' (one rfl) fun hw => ?_
      cases issued <;> cases hw
      exact .fresh rfl
  | retried w₀ watching left router old below he he' begun =>
    cases hd : router.detached with
    | true =>
      rw [hd] at he'
      exact idle [_] [_] he he' (one rfl)
    | false =>
      rw [hd] at he'
      refine head [.drain w₀.router] he he' (one rfl) fun hw => ?_
      cases hw
      exact goes he rfl rfl nofun
  | exhausted w₀ below he he' a => exact idle [_] [_] he he' (one rfl)
  | watched w₀ deadline below he he' a =>
    refine head [] he he' empty fun hw => ?_
    cases hw
    exact goes he rfl rfl nofun
  | settled w₀ top new command below he htop he' hcommand hsettled a =>
    refine head [] he he' empty fun hw => ?_
    rcases hsettled with ⟨reply, rfl, -⟩ | ⟨rfl, -, watching, hn⟩
    · cases hw
    · cases hw
      have hwaits : top.waiter? = some w := by
        rcases htop with rfl | ⟨deadline, rfl⟩ <;> rfl
      have hended := pollComplete_of_notices (hclear _ command hcommand) hn
      exact .turned top w (he ▸ List.mem_cons_self) hwaits rfl
        fun _ => .inl ⟨command, hcommand, hended⟩
  | unclaimed w₀ deadline below he he' a =>
    refine head [] he he' empty fun hw => ?_
    cases hw
    exact goes he rfl rfl nofun
  | withdrawn w₀ deadline mid old expired new tasks below he he' hquiet hfits hnew hmem changed
      forced =>
    refine head _ he he' (fun t ht => Task.waiter?_of_chore
      (Task.isChore_withdrawn hquiet w₀.router expired t ht)) fun hw => ?_
    have hafter := withdrawn_expiring he he' hquiet hnew
    rcases hnew with rfl | ⟨rfl, -⟩
    · cases hw
    · cases hw
      exact .turned (.await w deadline) w (he ▸ List.mem_cons_self) rfl rfl
        fun _ => h.spent_of_withdrawn hmem changed forced hafter
  | unregistered failure below he he' a => exact idle [_] [_] he he' (one rfl)
  | rooted linked t' below he he' joined ht' =>
    refine idle [_] [t'] he he' (one ?_)
    rcases ht' with ⟨-, failure, rfl⟩ | ⟨-, settings, rfl⟩ <;> rfl

/-- How a caller comes to wait in a task after a move. -/
theorem Sound.waits_on (h : e.Sound) (hclear : e.commands.Clear)
    (ha : ∀ call, m = .call call → e.Allows call) (hm : e.move? m = some e')
    (ht : t ∈ e'.stack) (hw : t.waiter? = some w) : e.WaitsOn e' t w := by
  cases h.moved ha hm with
  | inner hcall hcollect k => exact k.waits_on h hclear ht hw
  | collected result below he he' a =>
    exact .kept (he ▸ List.mem_cons_of_mem _ (he' ▸ ht))
  | called k =>
    obtain ⟨base, tasks, hbase, he', htasks⟩ := k.segment
    rw [he'] at ht
    rcases List.mem_append.1 ht with ht | ht
    · rcases List.mem_append.1 ht with ht | ht
      · rw [Task.waiter?_of_chore (htasks t ht)] at hw
        cases hw
      · rw [List.mem_singleton.1 ht, Task.waiter?_of_base hbase] at hw
        cases hw
    · exact .kept ht

/-! ## Stacks side by side -/

/-- What is stored is sound, and all that the callers have under way fits it. No two of them wait
for the same command, no command is about to end twice, and none that is about to end has ended or
is to begin an attempt. -/
structure Peopled (e : Engine) (crew : List (List Task)) : Prop extends Stored e where
  clear : e.commands.Clear
  fits : ∀ t ∈ crew.flatten, e.Fits t
  aged : ∀ stack ∈ crew, Aged stack
  stacked : ∀ stack ∈ crew, ∃ standing, e.Stacked standing stack
  waiting : ((crew.flatten.filterMap Task.waiter?).map Waiter.command).Nodup
  expiring : (crew.flatten.filterMap Task.expires?).Nodup
  unended : ∀ c ∈ crew.flatten.filterMap Task.expires?, ∀ command,
    e.command? c = some command → command.pollComplete = false
  apart : ∀ w, .attempt w ∈ crew.flatten → w.command ∉ crew.flatten.filterMap Task.expires?

/-- The order of the stacks does not matter. -/
theorem Peopled.perm {crew' : List (List Task)} (h : e.Peopled crew)
    (hperm : crew.Perm crew') : e.Peopled crew' := by
  have hflat := hperm.flatten
  have hexpiring := hflat.filterMap Task.expires?
  refine ⟨h.toStored, h.clear, fun t ht => h.fits t (hflat.mem_iff.2 ht),
    fun stack hs => h.aged stack (hperm.mem_iff.2 hs),
    fun stack hs => h.stacked stack (hperm.mem_iff.2 hs),
    ((hflat.filterMap _).map _).nodup_iff.1 h.waiting, hexpiring.nodup_iff.1 h.expiring,
    fun c hc => h.unended c (hexpiring.mem_iff.2 hc), fun w hw hc => ?_⟩
  exact h.apart w (hflat.mem_iff.2 hw) (hexpiring.mem_iff.2 hc)

/-- Nor does it matter who is in control. -/
theorem Peopled.restacked (h : e.Peopled crew) (stack : List Task) :
    ({ e with stack := stack } : Engine).Peopled crew := by
  have alike : e.Alike { e with stack := stack } := h.alike_of_eq rfl rfl rfl
  refine ⟨h.of_alike alike, h.clear, h.fits, h.aged, fun stack hs => ?_, h.waiting, h.expiring,
    h.unended, h.apart⟩
  obtain ⟨standing, hstacked⟩ := h.stacked stack hs
  exact ⟨standing, hstacked.mono alike.extends⟩

/-- Whoever is in control sees a sound engine. -/
theorem Peopled.sound (h : e.Peopled (e.stack :: others)) : e.Sound where
  toStored := h.toStored
  tasks t ht := h.fits t (List.mem_append_left _ ht)
  aged := h.aged e.stack List.mem_cons_self

/-- Each caller waits for a command of its own. -/
theorem Aged.nodup (h : Aged stack) :
    ((stack.filterMap Task.waiter?).map Waiter.command).Nodup := by
  induction stack with
  | nil => exact List.nodup_nil
  | cons t below ih =>
    obtain ⟨hyounger, hbelow⟩ := List.pairwise_cons.1 h
    cases hw : t.waiter? with
    | none =>
      rw [List.filterMap_cons_none hw]
      exact ih hbelow
    | some w =>
      rw [List.filterMap_cons_some hw, List.map_cons]
      refine List.nodup_cons.2 ⟨fun hmem => ?_, ih hbelow⟩
      obtain ⟨w', hw', hcommand⟩ := List.mem_map.1 hmem
      obtain ⟨t', ht', hwaits⟩ := List.mem_filterMap.1 hw'
      have hlt := hyounger t' ht' w hw _ (Task.mem_commands_of_waiter? hwaits)
      rw [hcommand] at hlt
      exact Nat.lt_irrefl _ hlt

/-- What is about to end after a move was so before, or has just been in its slot. -/
theorem Sound.expiring_was (h : e.Sound) (ha : ∀ call, m = .call call → e.Allows call)
    (hm : e.move? m = some e') (hc : c ∈ e'.expiring) : c ∈ e.expiring ∨ e.Queued c := by
  cases h.lines ha hm with
  | popped c' hpopped hended =>
    rw [hpopped]
    exact .inl (List.mem_cons_of_mem _ hc)
  | pushed new hpushed hnew hqueued =>
    rw [hpushed] at hc
    rcases List.mem_append.1 hc with hc | hc
    · exact .inr (hqueued c hc)
    · exact .inl hc

/-- The commands of the callers apart from the one in control that are about to end. -/
theorem expiring_cons (e : Engine) (others : List (List Task)) :
    (e.stack :: others).flatten.filterMap Task.expires? =
      e.expiring ++ others.flatten.filterMap Task.expires? := by
  rw [List.flatten_cons, List.filterMap_append]
  rfl

theorem mem_expires (htasks : .expire r c ∈ tasks) : c ∈ tasks.filterMap Task.expires? :=
  List.mem_filterMap.2 ⟨_, htasks, rfl⟩

theorem Task.mem_commands_of_expires? (h : t.expires? = some c) : c ∈ t.commands := by
  cases t <;> cases h
  exact List.mem_cons_self

/-- What is about to end is a command that there is. -/
theorem Peopled.lt_of_expiring (h : e.Peopled crew)
    (hc : c ∈ crew.flatten.filterMap Task.expires?) : c.index < e.commands.length := by
  obtain ⟨t, ht, hexpires⟩ := List.mem_filterMap.1 hc
  exact (h.fits t ht).2 c (Task.mem_commands_of_expires? hexpires)

/-- A command that is about to end is in no queue. -/
theorem Peopled.not_queued (h : e.Peopled crew) (hc : c ∈ crew.flatten.filterMap Task.expires?) :
    ¬ e.Queued c := by
  obtain ⟨t, ht, hexpires⟩ := List.mem_filterMap.1 hc
  have hfits := h.fits t ht
  cases t <;> cases hexpires
  exact hfits.1

/-- Nobody waits for the command of another caller. -/
theorem Peopled.waits_apart {t' : Task} {w' : Waiter} (h : e.Peopled (stack :: others))
    (ht : t ∈ stack) (hw : t.waiter? = some w) (ht' : t' ∈ others.flatten)
    (hw' : t'.waiter? = some w') : w.command ≠ w'.command := by
  have hnodup := h.waiting
  rw [List.flatten_cons, List.filterMap_append, List.map_append] at hnodup
  exact (List.nodup_append.1 hnodup).2.2 _ (List.mem_map_of_mem (List.mem_filterMap.2 ⟨t, ht, hw⟩))
    _ (List.mem_map_of_mem (List.mem_filterMap.2 ⟨t', ht', hw'⟩))

/-- An attempt that has not ended has not ended after a move that does not end it. -/
theorem Sound.unended_next {old new : Command} (h : e.Sound) (hm : e.move? m = some e')
    (hc : e.command? c = some old) (hold : old.pollComplete = false)
    (hends : ∀ ending, ¬ e.Ends e' c ending) (hc' : e'.command? c = some new) :
    new.pollComplete = false := by
  have before : e.commands.verdicts[c.index]? = some old.verdict := verdict_iff.2 ⟨old, hc, rfl⟩
  have after : e'.commands.verdicts[c.index]? = some new.verdict := verdict_iff.2 ⟨new, hc', rfl⟩
  have kept (hsame : e'.commands.verdicts[c.index]? = e.commands.verdicts[c.index]?) :
      new.pollComplete = false := by
    rw [before, after, Option.some.injEq] at hsame
    exact (congrArg Prod.fst hsame).trans hold
  -- what one command keeps has changed
  have shifted {c' : CommandRef} {g : Bool × Option Ending → Bool × Option Ending}
      (shifts : e.commands.Shifts e'.commands c' g) (hg : c' = c → (g old.verdict).1 = false) :
      new.pollComplete = false := by
    by_cases hne : c' = c
    · subst hne
      rw [shifts.verdicts, List.getElem?_modify_eq, before] at after
      exact (congrArg Prod.fst (Option.some.inj after)).symm.trans (hg rfl)
    · refine kept ?_
      rw [shifts.verdicts, List.getElem?_modify_ne _ _ fun i => hne (Commands.ref_eq_iff.2 i)]
  cases h.rules hm with
  | still still => exact kept (by rw [still.verdicts])
  | added r command style below hs he' hverdicts hclear =>
    refine kept ?_
    rw [hverdicts, List.getElem?_append_left (List.getElem?_eq_some_iff.1 before).1]
  | begun w t below hs hw supplants shifts => exact shifted shifts fun _ => rfl
  | taken w t below hs hw supplants shifts => exact shifted shifts fun _ => hold
  | ended c' ending ends =>
    refine shifted ends.shifts fun hsame => ?_
    subst hsame
    exact absurd ends (hends ending)

section next

variable (h : e.Peopled (e.stack :: others)) (ha : ∀ call, m = .call call → e.Allows call)
  (hm : e.move? m = some e')
include h ha hm

/-- No other caller has to do with a command whose attempt begins. -/
theorem Peopled.fits_next (ht : t ∈ others.flatten) : e'.Fits t := by
  have hfits := h.fits t (List.mem_append_right _ ht)
  refine hfits.mono (h.sound.extends ha hm) fun c hc hq => ?_
  rcases h.sound.queued_was ha hm hq with hq | hnew | ⟨w, below, hs, rfl⟩
  · exact hq
  · exact absurd hnew (Nat.ne_of_lt (hfits.2 c (t.unqueued_subset hc)))
  · have htop : Task.attempt w ∈ e.stack := hs ▸ List.mem_cons_self
    cases t with
    | attempt w' => exact absurd (List.mem_singleton.1 hc) (h.waits_apart htop rfl ht rfl)
    | expire r c' =>
      have hcommand : w.command = c' := List.mem_singleton.1 hc
      refine absurd ?_ (h.apart w (List.mem_append_left _ htop))
      rw [hcommand]
      exact mem_expires (List.mem_append_right _ ht)
    | _ => cases hc

/-- What is about to end after a move, of all callers. -/
theorem Peopled.expiring_was (hc : c ∈ (e'.stack :: others).flatten.filterMap Task.expires?) :
    c ∈ (e.stack :: others).flatten.filterMap Task.expires? ∨ e.Queued c ∧ c ∈ e'.expiring := by
  rw [expiring_cons] at hc ⊢
  rcases List.mem_append.1 hc with hnow | hother
  · rcases h.sound.expiring_was ha hm hnow with hwas | hq
    · exact .inl (List.mem_append_left _ hwas)
    · exact .inr ⟨hq, hnow⟩
  · exact .inl (List.mem_append_right _ hother)

/-- It had not ended before the move. -/
theorem Peopled.unended_was (hc : c ∈ (e'.stack :: others).flatten.filterMap Task.expires?) :
    ∃ old, e.command? c = some old ∧ old.pollComplete = false := by
  rcases h.expiring_was ha hm hc with hwas | ⟨⟨r, hmem⟩, -⟩
  · have hsome := Commands.get?_isSome_iff.2 (h.lt_of_expiring hwas)
    obtain ⟨old, hold⟩ := Option.isSome_iff_exists.1 hsome
    exact ⟨old, hold, h.unended c hwas old hold⟩
  · obtain ⟨old, hold, -, -, hpoll⟩ := h.members r c hmem
    exact ⟨old, hold, hpoll⟩

/-- No two callers come to wait for the same command. -/
theorem Peopled.waiting_next :
    (((e'.stack :: others).flatten.filterMap Task.waiter?).map Waiter.command).Nodup := by
  have sound' := h.sound.of_moved ha (h.sound.moved ha hm)
  have hothers := h.waiting
  rw [List.flatten_cons, List.filterMap_append, List.map_append] at hothers ⊢
  refine List.nodup_append.2 ⟨sound'.aged.nodup, (List.nodup_append.1 hothers).2.1, ?_⟩
  intro c hc c' hc'
  obtain ⟨w, hw, rfl⟩ := List.mem_map.1 hc
  obtain ⟨w', hw', rfl⟩ := List.mem_map.1 hc'
  obtain ⟨t, ht, hw⟩ := List.mem_filterMap.1 hw
  obtain ⟨t', ht', hw'⟩ := List.mem_filterMap.1 hw'
  cases h.sound.waits_on h.clear ha hm ht hw with
  | kept ht => exact h.waits_apart ht hw ht' hw'
  | fresh hnew =>
    intro hsame
    have hlt := (h.fits t' (List.mem_append_right _ ht')).2 w'.command
      (Task.mem_commands_of_waiter? hw')
    rw [← hsame, hnew] at hlt
    exact Nat.lt_irrefl _ hlt
  | turned t₀ w₀ ht₀ hw₀ hcommand hspent =>
    rw [← hcommand]
    exact h.waits_apart ht₀ hw₀ ht' hw'

/-- No command comes to be about to end twice. -/
theorem Peopled.expiring_next : ((e'.stack :: others).flatten.filterMap Task.expires?).Nodup := by
  have hnodup := h.expiring
  rw [expiring_cons] at hnodup ⊢
  cases h.sound.lines ha hm with
  | popped c hpopped hended =>
    rw [hpopped, List.cons_append] at hnodup
    exact (List.nodup_cons.1 hnodup).2
  | pushed new hpushed hnew hqueued =>
    rw [hpushed, List.append_assoc]
    refine List.nodup_append.2 ⟨hnew, hnodup, fun c hc c' hc' heq => ?_⟩
    rw [← expiring_cons] at hc'
    exact h.not_queued hc' (heq ▸ hqueued c hc)

/-- Nothing that is about to end has ended. -/
theorem Peopled.unended_next {command : Command}
    (hc : c ∈ (e'.stack :: others).flatten.filterMap Task.expires?)
    (hcommand : e'.command? c = some command) : command.pollComplete = false := by
  have hwas := h.expiring_was ha hm hc
  obtain ⟨old, hold, hpoll⟩ := h.unended_was ha hm hc
  refine h.sound.unended_next hm hold hpoll (fun ending ends => ?_) hcommand
  rcases ends.lived with ⟨hq, hsame⟩ | hpopped
  · rcases hwas with hwas | ⟨-, hnow⟩
    · exact h.not_queued hwas hq
    · exact h.sound.not_queued_of_expiring (hsame ▸ hnow) hq
  · have hnodup := h.expiring
    rw [expiring_cons, hpopped, List.cons_append] at hnodup
    rw [expiring_cons] at hc
    exact (List.nodup_cons.1 hnodup).1 hc

/-- No attempt of a command that is about to end comes to begin. -/
theorem Peopled.apart_next (hw : .attempt w ∈ (e'.stack :: others).flatten) :
    w.command ∉ (e'.stack :: others).flatten.filterMap Task.expires? := by
  intro hc
  have hwas := h.expiring_was ha hm hc
  -- it was to begin before
  have before (hw : .attempt w ∈ (e.stack :: others).flatten) : False := by
    rcases hwas with hwas | ⟨hq, -⟩
    · exact h.apart w hw hwas
    · obtain ⟨⟨-, hunqueued, -⟩, -⟩ := h.fits (.attempt w) hw
      exact hunqueued hq
  rcases List.mem_append.1 hw with hw | hw
  · cases h.sound.waits_on h.clear ha hm hw rfl with
    | kept hw => exact before (List.mem_append_left _ hw)
    | fresh hnew =>
      rcases hwas with hwas | ⟨hq, -⟩
      · exact Nat.ne_of_lt (h.lt_of_expiring hwas) hnew
      · exact Nat.ne_of_lt (h.lt_of_queued hq) hnew
    | turned t₀ w₀ ht₀ hw₀ hcommand hspent =>
      rcases hspent rfl with ⟨command, hcommand, hended⟩ | ⟨hq, hexpiring⟩
      · obtain ⟨old, hold, hpoll⟩ := h.unended_was ha hm hc
        cases hold.symm.trans hcommand
        exact Bool.false_ne_true (hpoll.symm.trans hended)
      · rcases hwas with hwas | ⟨-, hnow⟩
        · exact h.not_queued hwas hq
        · exact hexpiring hnow
  · exact before (List.mem_append_right _ hw)

/-- The stack of the caller in control is made of calls in progress. -/
theorem Peopled.stacked_next (hstack : stack ∈ e'.stack :: others) :
    ∃ standing, e'.Stacked standing stack := by
  rcases List.mem_cons.1 hstack with rfl | hstack
  · obtain ⟨standing, hstacked⟩ := h.stacked e.stack List.mem_cons_self
    cases h.sound.moved ha hm with
    | inner hcall hcollect k =>
      obtain ⟨standing', hstacked', -⟩ := hstacked.of_inner h.sound k
      exact ⟨standing', hstacked'⟩
    | called k =>
      obtain ⟨progress, hstacked', -⟩ := hstacked.of_called h.sound k
      exact ⟨_, hstacked'⟩
    | collected result below he he' a =>
      obtain ⟨call, progress, outer, -, hstacked', -⟩ := hstacked.of_collected a.extends he he'
      exact ⟨outer, hstacked'⟩
  · obtain ⟨standing, hstacked⟩ := h.stacked stack (List.mem_cons_of_mem _ hstack)
    exact ⟨standing, hstacked.mono (h.sound.extends ha hm)⟩

/-- **What all callers have under way fits what is stored after a move of one of them.** -/
theorem Peopled.next : e'.Peopled (e'.stack :: others) := by
  have sound' := h.sound.of_moved ha (h.sound.moved ha hm)
  refine ⟨sound'.toStored, h.sound.clear hm h.clear, fun t ht => ?_, fun stack hstack => ?_,
    fun stack => h.stacked_next ha hm, h.waiting_next ha hm, h.expiring_next ha hm,
    fun c hc command => h.unended_next ha hm hc, fun w => h.apart_next ha hm⟩
  · rcases List.mem_append.1 ht with ht | ht
    · exact sound'.tasks t ht
    · exact h.fits_next ha hm ht
  · rcases List.mem_cons.1 hstack with rfl | hstack
    · exact sound'.aged
    · exact h.aged stack (List.mem_cons_of_mem _ hstack)

end next

end Engine

/-! ## Crowds -/

theorem Engine.peopled_opening (settings : Settings) (n : Nat) :
    (opening settings).Peopled ((opening settings).stack :: List.replicate n []) := by
  have sound := sound_opening settings
  have hplain : ∀ t ∈ (opening settings).stack, t.waiter? = none ∧ t.expires? = none := by
    rcases stack_opening settings with hs | ⟨failure, hs⟩ <;>
    · rw [hs]
      exact List.forall_mem_singleton.2 ⟨rfl, rfl⟩
  have hwaiting : (opening settings).stack.filterMap Task.waiter? = [] :=
    List.filterMap_eq_nil_iff.2 fun t ht => (hplain t ht).1
  have hexpiring : (opening settings).stack.filterMap Task.expires? = [] :=
    List.filterMap_eq_nil_iff.2 fun t ht => (hplain t ht).2
  have hall : ((opening settings).stack :: List.replicate n []).flatten =
      (opening settings).stack := by
    rw [List.flatten_cons, List.flatten_replicate_nil, List.append_nil]
  refine ⟨sound.toStored, clear_commands_opening settings, ?_, ?_, ?_, ?_, ?_, ?_, ?_⟩
  · rw [hall]
    exact sound.tasks
  · refine List.forall_mem_cons.2 ⟨sound.aged, fun stack hstack => ?_⟩
    rw [List.eq_of_mem_replicate hstack]
    exact List.Pairwise.nil
  · refine List.forall_mem_cons.2 ⟨⟨_, stacked_opening settings⟩, fun stack hstack => ?_⟩
    rw [List.eq_of_mem_replicate hstack]
    exact ⟨[], .bottom (List.forall_mem_nil _)⟩
  · rw [hall, hwaiting]
    exact List.nodup_nil
  · rw [hall, hexpiring]
    exact List.nodup_nil
  · rw [hall, hexpiring]
    exact nofun
  · rw [hall, hexpiring]
    exact fun _ _ => List.not_mem_nil

/-- The stacks are the same ones after control has passed. -/
theorem perm_passes {i : Nat} (control : List Task) (hi : others[i]? = some stack) :
    (control :: others).Perm (stack :: others.set i control) := by
  obtain ⟨hlt, rfl⟩ := List.getElem?_eq_some_iff.1 hi
  calc (control :: others).Perm (control :: others[i] :: others.eraseIdx i) :=
        .cons _ (List.getElem_cons_eraseIdx_perm hlt).symm
    _ |>.Perm (others[i] :: control :: others.eraseIdx i) := .swap ..
    _ |>.Perm (others[i] :: others.set i control) :=
        .cons _ (List.set_perm_cons_eraseIdx hlt control).symm

/-- **What is stored is sound in every state of a crowd, and what all callers have under way fits
it.** -/
theorem Crowd.peopled (h : Crowd settings turns e others) : e.Peopled (e.stack :: others) := by
  induction h with
  | start n => exact peopled_opening settings n
  | next _ ha hm ih => exact ih.next ha hm
  | passes i _ hi ih => exact (ih.perm (perm_passes _ hi)).restacked _

/-- **Whoever is in control sees a sound engine.** -/
theorem Crowd.sound (h : Crowd settings turns e others) : e.Sound :=
  h.peopled.sound

/-! ## The calls in progress -/

/-- The number of calls in progress: those that have been made, the one that attaches the host
router among them, but for those whose answers have been taken. -/
def inProgress : List Turn → Nat
  | [] => 1
  | turn :: earlier =>
    match turn.move with
    | .call _ => inProgress earlier + 1
    | _ => if turn.answer?.isSome then inProgress earlier - 1 else inProgress earlier

theorem Segment.countP_base {part : List Task} (h : Segment part) :
    part.countP Task.isBase = 1 := by
  cases h with
  | base ht => rw [List.countP_singleton, if_pos ht]
  | above ht =>
    rw [List.countP_cons_of_neg (by rw [ht]; exact Bool.false_ne_true)]
    rfl

/-- Each call in progress stands on one task of its own. -/
theorem Engine.Stacked.countP_base {standing : List (Call × Progress)}
    (h : e.Stacked standing stack) : stack.countP Task.isBase = standing.length := by
  induction h with
  | bottom hloose =>
    refine List.countP_eq_zero.2 fun t ht => ?_
    rw [Task.isBase_of_chore (Task.isChore_of_loose (hloose t ht))]
    exact Bool.false_ne_true
  | @segment call progress chores part outer standing hchores hstands _ ih =>
    have hnone : chores.countP Task.isBase = 0 := by
      refine List.countP_eq_zero.2 fun t ht => ?_
      rw [Task.isBase_of_chore (hchores t ht)]
      exact Bool.false_ne_true
    rw [List.countP_append, List.countP_append, hnone, hstands.segment.countP_base, ih,
      List.length_cons]
    omega

/-- **The calls in progress are those that the stacks are made of.** -/
theorem Crowd.bases (h : Crowd settings turns e others) :
    (e.stack :: others).flatten.countP Task.isBase = inProgress turns := by
  induction h with
  | start n =>
    rw [List.flatten_cons, List.flatten_replicate_nil, List.append_nil,
      (stacked_opening settings).countP_base]
    rfl
  | @next turns e e' m others prior ha hm ih =>
    rw [List.flatten_cons, List.countP_append] at ih ⊢
    obtain ⟨standing, hstacked⟩ := prior.peopled.stacked e.stack List.mem_cons_self
    rw [hstacked.countP_base] at ih
    cases prior.sound.moved ha hm with
    | inner hcall hcollect k =>
      obtain ⟨standing', hstacked', proceeds⟩ := hstacked.of_inner prior.sound k
      have hsame : standing'.length = standing.length := by
        simpa using congrArg List.length proceeds.calls
      rw [hstacked'.countP_base, hsame, ih, inProgress, answer?_of_inner hcollect]
      split
      · rename_i call hcalled
        exact absurd hcalled (hcall call)
      · rfl
    | called k =>
      obtain ⟨progress, hstacked', -⟩ := hstacked.of_called prior.sound k
      rw [hstacked'.countP_base, List.length_cons, Nat.add_right_comm, ih]
      rfl
    | collected result below he he' a =>
      obtain ⟨call, progress, outer, rfl, hstacked', -⟩ := hstacked.of_collected a.extends he he'
      have hanswer : (Turn.mk e .collect e').answer? = some result := by simp [Turn.answer?, he]
      rw [List.length_cons] at ih
      have hnow : inProgress (⟨e, .collect, e'⟩ :: turns) = inProgress turns - 1 := by
        rw [inProgress, hanswer]
        rfl
      rw [hstacked'.countP_base, hnow]
      omega
  | passes i _ hi ih =>
    rw [← ih]
    exact ((perm_passes _ hi).flatten.countP_eq _).symm

/-! ## Replays -/

/-- What happens to a crowd. -/
inductive Act
  | moves (m : Move)
  /-- control passes to the caller that stands at this place among the others -/
  | passes (i : Nat)

/-- What comes of these acts, the latest first, if they are possible one after the other; there are
this many callers besides the one that attaches the host router. -/
def enact? (settings : Settings) (n : Nat) : List Act →
    Option (List Turn × Engine × List (List Task))
  | [] => some ([], opening settings, List.replicate n [])
  | act :: acts =>
    match act, enact? settings n acts with
    | _, none => none
    | .moves m, some (turns, e, others) =>
      if admits e m then (e.move? m).map fun e' => (⟨e, m, e'⟩ :: turns, e', others) else none
    | .passes i, some (turns, e, others) =>
      others[i]?.map fun stack => (turns, { e with stack := stack }, others.set i e.stack)

theorem crowd_of_enact? {n : Nat} : ∀ {acts : List Act} {turns : List Turn} {e : Engine}
    {others : List (List Task)}, enact? settings n acts = some (turns, e, others) →
    Crowd settings turns e others
  | [], _, _, _, h => by
    cases h
    exact .start n
  | act :: acts, turns, e', others, h => by
    unfold enact? at h
    split at h
    · cases h
    · rename_i m turns e others hprior
      split at h
      · rename_i hallowed
        obtain ⟨e', hm, heq⟩ := Option.map_eq_some_iff.1 h
        cases heq
        refine .next (crowd_of_enact? hprior) (fun call hcall => ?_) hm
        subst hcall
        exact allows_of_admits hallowed
      · cases h
    · rename_i i turns e others hprior
      obtain ⟨stack, hi, heq⟩ := Option.map_eq_some_iff.1 h
      cases heq
      exact .passes i (crowd_of_enact? hprior) hi

/-- A crowd whose turns and state are as a check of the acts says. -/
theorem exists_of_enact? {n : Nat} {acts : List Act}
    {check : List Turn × Engine × List (List Task) → Bool}
    (h : (enact? settings n acts).any check = true) :
    ∃ turns e others, Crowd settings turns e others ∧ check (turns, e, others) = true := by
  cases henact : enact? settings n acts with
  | none =>
    rw [henact] at h
    cases h
  | some result =>
    rw [henact] at h
    exact ⟨result.1, result.2.1, result.2.2, crowd_of_enact? henact, h⟩

end RouterFabric
