import RouterFabric.Proofs.HeadOfLine
import RouterFabric.Proofs.Tries

/-!
# A call left alone

While nobody calls and no answer is taken, only the innermost call goes on. Arrivals, callbacks and
what the transport answers add chores and do some of them, and what stands below the chores waits
until they are done.

* `Alone` : courses in which nobody calls and no answer is taken
* `Inner.chores`, `outline_of_chore` : a move while chores are being done
* `Mute.not_ends`, `Inner.expire_of_ends` : where an attempt can end with a timeout
* `Run.clears_chores` : chores can always be brought to an end
-/

namespace RouterFabric

open Engine

variable {settings : Settings} {turns course more : List Turn} {e e' e'' e₀ : Engine} {m : Move}
  {r : RouterRef} {c c' : CommandRef} {t task : Task} {front rest below : List Task}
  {result : Outcome Answer} {ending : Ending}

/-! ## Courses -/

/-- The move is neither a call nor the taking of an answer. -/
def Engine.Inward (e : Engine) (m : Move) : Prop :=
  (∀ call, m ≠ .call call) ∧ (m = .collect → ∀ result below, e.stack ≠ .answer result :: below)

/-- Such moves one after the other, the latest turn first. -/
inductive Alone (e : Engine) : List Turn → Engine → Prop
  | start : Alone e [] e
  | next {course : List Turn} {e' e'' : Engine} {m : Move} : Alone e course e' → e'.Inward m →
      e'.move? m = some e'' → Alone e (⟨e', m, e''⟩ :: course) e''

theorem Run.inward (h : Run settings turns e) (hi : e.Inward m) (hm : e.move? m = some e') :
    Run settings (⟨e, m, e'⟩ :: turns) e' :=
  h.next (fun call heq => absurd heq (hi.1 call)) hm

theorem Alone.run (k : Alone e course e') (h : Run settings turns e) :
    Run settings (course ++ turns) e' := by
  induction k with
  | start => exact h
  | next _ hi hm ih => exact ih.inward hi hm

theorem Alone.single (hi : e.Inward m) (hm : e.move? m = some e') : Alone e [⟨e, m, e'⟩] e' :=
  .next .start hi hm

theorem Alone.append (k : Alone e course e') (k' : Alone e' more e'') :
    Alone e (more ++ course) e'' := by
  induction k' with
  | start => exact k
  | next _ hi hm ih => exact ih.next hi hm

theorem Engine.inward_proceed : e.Inward .proceed := by
  refine ⟨fun call heq => ?_, fun heq => ?_⟩ <;> cases heq

theorem Engine.Quiet.inward (hq : e.Quiet r m) : e.Inward m := by
  refine ⟨fun call heq => ?_, fun heq => ?_⟩
  · subst heq
    exact hq.elim
  · subst heq
    exact hq

theorem Quietly.alone (k : Quietly r e course e') : Alone e course e' := by
  induction k with
  | start => exact .start
  | next _ hq hm ih => exact ih.next hq.inward hm

/-- Such a move is an inner one. -/
theorem Run.inner_of_inward (h : Run settings turns e) (hi : e.Inward m)
    (hm : e.move? m = some e') : Inner e m e' := by
  cases h.moved (fun call heq => absurd heq (hi.1 call)) hm with
  | inner hcall hcollect k => exact k
  | called k => exact absurd rfl (hi.1 _)
  | collected result below he he' a => exact absurd he (hi.2 rfl result below)

/-! ## Chores -/

/-- What is of a router apart from its attempts is as it was. -/
def Engine.Cored (e e' : Engine) : Prop :=
  ∀ r, (e'.router? r).map Router.core = (e.router? r).map Router.core

namespace Engine

/-- Chores in front of a task that is none are done first. -/
theorem front_of_append {gone : List Task} (h : front ++ task :: below = gone ++ rest)
    (hgone : ∀ t ∈ gone, t.isQuiet = true) (htask : task.isQuiet = false) :
    ∃ others, front = gone ++ others ∧ rest = others ++ task :: below := by
  rcases List.append_eq_append_iff.1 h with ⟨others, hgone', hbelow⟩ | ⟨others, hfront, hrest⟩
  · cases others with
    | nil =>
      rw [List.append_nil] at hgone'
      exact ⟨[], by rw [hgone', List.append_nil], hbelow.symm⟩
    | cons t others =>
      obtain ⟨rfl, -⟩ := List.cons.inj hbelow
      have hquiet := hgone task (hgone' ▸ List.mem_append_right _ List.mem_cons_self)
      rw [htask] at hquiet
      cases hquiet
  · exact ⟨others, hfront, hrest⟩

/-- **A move while chores are being done** in front of a task, or in front of an answer, does the
first of them or adds some, and changes nothing of a router but its attempts. -/
theorem Inner.chores (k : Inner e m e') (hs : e.stack = front ++ task :: below)
    (hfront : ∀ t ∈ front, t.isChore = true) (htask : task.isQuiet = false)
    (hbusy : front ≠ [] ∨ ∃ result, task = .answer result) :
    (∃ front', e'.stack = front' ++ task :: below ∧
      ∀ t ∈ front', t ∈ front ∨ t.isLoose = true) ∧ e.Cored e' := by
  -- what a move takes from the stack is the first of the chores
  have first {t : Task} {rest : List Task} (he : e.stack = t :: rest)
      (ht : ∀ result, t ≠ .answer result) :
      ∃ others, front = t :: others ∧ rest = others ++ task :: below := by
    rw [hs] at he
    cases front with
    | nil =>
      obtain ⟨rfl, -⟩ := List.cons.inj he
      obtain ⟨result, heq⟩ := hbusy.resolve_left fun hne => hne rfl
      exact absurd heq (ht result)
    | cons t' others =>
      obtain ⟨rfl, hrest⟩ := List.cons.inj he
      exact ⟨others, rfl, hrest.symm⟩
  have never {t : Task} {rest : List Task} {P : Prop} (he : e.stack = t :: rest)
      (ht : ∀ result, t ≠ .answer result) (hnot : t.isChore = false) : P := by
    obtain ⟨others, rfl, -⟩ := first he ht
    have hchore := hfront t List.mem_cons_self
    rw [hnot] at hchore
    cases hchore
  have done {t : Task} {rest : List Task} (tasks : List Task) (he : e.stack = t :: rest)
      (ht : ∀ result, t ≠ .answer result) (he' : e'.stack = tasks ++ rest)
      (htasks : ∀ t ∈ tasks, t.isLoose = true) : ∃ front', e'.stack = front' ++ task :: below ∧
        ∀ t ∈ front', t ∈ front ∨ t.isLoose = true := by
    obtain ⟨others, rfl, rfl⟩ := first he ht
    refine ⟨tasks ++ others, by rw [he', List.append_assoc], fun t' ht' => ?_⟩
    rcases List.mem_append.1 ht' with ht' | ht'
    · exact .inr (htasks t' ht')
    · exact .inl (List.mem_cons_of_mem _ ht')
  have added (tasks : List Task) (he' : e'.stack = tasks ++ e.stack)
      (htasks : ∀ t ∈ tasks, t.isLoose = true) : ∃ front', e'.stack = front' ++ task :: below ∧
        ∀ t ∈ front', t ∈ front ∨ t.isLoose = true := by
    refine ⟨tasks ++ front, by rw [he', hs, List.append_assoc], fun t' ht' => ?_⟩
    exact (List.mem_append.1 ht').symm.imp id (htasks t')
  cases k with
  | quiet gone tasks rest he he' hgone hquiet hfits a =>
    obtain ⟨others, rfl, rfl⟩ := front_of_append (hs.symm.trans he) hgone htask
    refine ⟨⟨tasks ++ others, by rw [he', List.append_assoc], fun t ht => ?_⟩, a.routers⟩
    rcases List.mem_append.1 ht with ht | ht
    · exact .inr (Task.isLoose_of_quiet (hquiet t ht))
    · exact .inl (List.mem_append_right _ ht)
  | returned tag reply rest he he' hm a =>
    exact ⟨done [] he nofun he' (List.forall_mem_nil _), a.routers⟩
  | expired r c old tasks rest he he' hquiet hfits a =>
    exact ⟨done _ he nofun he' (Task.isLoose_ended hquiet old _), a.routers⟩
  | refused r c old fault tasks rest he he' hquiet hfits hslot a =>
    exact ⟨done _ he nofun he' (Task.isLoose_ended hquiet old _), a.routers⟩
  | noted r c old signal words he' hslot signalled hdone a =>
    exact ⟨added [.handled] he' (List.forall_mem_singleton.2 rfl), a.routers⟩
  | completed r c old signal words tasks he' hquiet hfits hslot signalled hdone a =>
    exact ⟨added _ he' (Task.isLoose_ended hquiet old _), a.routers⟩
  | interrupted r c old event tasks he' hquiet hfits hslot a =>
    exact ⟨added _ he' (Task.isLoose_ended hquiet old _), a.routers⟩
  | settled w t t' command rest he ht =>
    rcases ht with rfl | ⟨deadline, rfl⟩ <;> exact never he nofun rfl
  | finished _ _ _ he | asked _ _ _ _ _ _ he | unlinked _ _ _ he | resumed _ _ _ _ he
  | dropped _ _ he | unframed _ _ _ _ _ he | framed _ _ _ _ he | issued _ _ _ _ _ _ _ he
  | retried _ _ _ _ _ _ he | exhausted _ _ he | watched _ _ _ he | unclaimed _ _ _ he
  | withdrawn _ _ _ _ _ _ _ _ he | unregistered _ _ he | rooted _ _ _ he => exact never he nofun rfl

/-- Chores leave the tree as it is, and all that programs know. -/
theorem outline_of_chore (hi : e.Inward m) (hm : e.move? m = some e') (hs : e.stack = t :: rest)
    (ht : t.isChore = true ∨ ∃ result, t = .answer result) : e'.outline = e.outline := by
  have never {t' : Task} {rest' : List Task} {P : Prop} (hs' : e.stack = t' :: rest')
      (hchore : t'.isChore = false) (hanswer : ∀ result, t' ≠ .answer result) : P := by
    rw [hs] at hs'
    cases hs'
    rcases ht with hc | ⟨result, heq⟩
    · rw [hchore] at hc
      cases hc
    · exact absurd heq (hanswer result)
  have chore {t' : Task} {rest' : List Task} {last : Engine} (hs' : e.stack = t' :: rest')
      (hscript : t'.isScript = false)
      (hlast : last.outline = ({ e with stack := rest' } : Engine).outline) :
      last.outline = e.outline :=
    hlast.trans (outline_pop hs' hscript)
  cases acts_of_move? hm with
  | dropped hs' drops =>
    refine chore hs' ?_ rfl
    cases drops <;> rfl
  | drained hs' => exact chore hs' rfl (outline_drain _ _)
  | kicked hs' => exact chore hs' rfl (outline_kick _)
  | toured hs' => exact chore hs' rfl (outline_drainFirst _ _)
  | expired hs' =>
    refine chore hs' rfl ((outline_finish _ _ _).trans ((outline_push _ ?_).trans
      (outline_count _ _ _)))
    simp [Task.isScript]
  | announced hs' => exact chore hs' rfl rfl
  | answered hs' => exact chore hs' rfl (outline_answerOffer _ _ _ _)
  | acknowledging hs' => exact chore hs' rfl (outline_push _ (by simp [Task.isScript]))
  | acknowledged hs' => exact chore hs' rfl rfl
  | settled hs' hw =>
    rcases hw with rfl | ⟨deadline, rfl⟩ <;> exact never hs' rfl fun _ heq => by cases heq
  | concluded hs' | asked hs' | replied hs' | retried hs' | watched hs' | framed hs' | unframed hs'
  | registered hs' | unregistered hs' | gaveUp hs' =>
    exact never hs' rfl fun _ heq => by cases heq
  | collected hs' => exact absurd hs' (hi.2 rfl _ _)
  | called call => exact absurd rfl (hi.1 call)
  | received arrival => exact outline_receive e arrival
  | elapsed ms => rfl

/-! ## Where attempts end -/

/-- Where nothing is said of an end, no attempt ends. -/
theorem Mute.not_ends (h : e.Mute e') : ¬ Turn.Ends ⟨e, m, e'⟩ c ending := by
  rintro ⟨⟨old, hold, hpoll⟩, command, hc, hverdict⟩
  obtain ⟨old', hold', hmutes⟩ := h c command hc
  cases hold.symm.trans hold'
  have hended := hmutes.poll (congrArg Prod.fst hverdict)
  rw [hpoll] at hended
  cases hended

/-- Where one attempt ends, no other one does, and it ends in one way. -/
theorem Changed.eq_of_ends {old marked : Command} {ending' : Ending}
    (a : e.Changed e' c' old (marked.finish ending') true)
    (ends : Turn.Ends ⟨e, m, e'⟩ c ending) : c = c' ∧ ending = ending' := by
  obtain ⟨⟨before, hbefore, hpoll⟩, command, hc, hverdict⟩ := ends
  have hsame : c = c' := by
    by_contra hne
    obtain ⟨old', hold', hmutes⟩ := (a.others c hne).mutes hc
    cases hbefore.symm.trans hold'
    have hended := hmutes.poll (congrArg Prod.fst hverdict)
    rw [hpoll] at hended
    cases hended
  subst hsame
  cases hc.symm.trans a.after
  exact ⟨rfl, (Option.some.inj (congrArg Prod.snd hverdict)).symm⟩

/-- **An attempt ends with a timeout where its command is to be ended**, and nowhere else. -/
theorem Inner.expire_of_ends (k : Inner e m e')
    (ends : Turn.Ends ⟨e, m, e'⟩ c .expired) : ∃ r rest, e.stack = .expire r c :: rest := by
  cases k with
  | quiet | returned | finished | asked | resumed | dropped | unframed | exhausted | watched
  | settled | unclaimed | unregistered =>
    rename_i a
    exact absurd ends a.mute.not_ends
  | expired r c' old tasks rest he he' hquiet hfits a =>
    obtain ⟨rfl, -⟩ := a.eq_of_ends ends
    exact ⟨r, rest, he⟩
  | refused _ _ _ _ _ _ _ _ _ _ _ a | interrupted _ _ _ _ _ _ _ _ _ a
  | completed _ _ _ _ _ _ _ _ _ _ _ _ a =>
    obtain ⟨-, heq⟩ := a.eq_of_ends ends
    cases heq
  | noted r c' old signal words he' hslot signalled hdone a =>
    exact absurd ends (mute_of_others a.before a.after ⟨id, fun _ => id, fun _ => id⟩
      a.others).not_ends
  | unlinked r next rest he he' parted hm =>
    exact absurd ends (mute_of_commands parted.commands).not_ends
  | rooted linked t rest he he' joined ht =>
    exact absurd ends (mute_of_commands joined.commands).not_ends
  | retried w watching left router old rest he he' begun => exact absurd ends begun.mute.not_ends
  | withdrawn w deadline mid old expired t tasks rest he he' hquiet hfits ht hmem changed forced =>
    have first := mute_of_others changed.before changed.after (.refl old) changed.others
    exact absurd ends (first.trans forced.mute).not_ends
  | framed r command watching rest he he' added =>
    obtain ⟨⟨old, hold, hpoll⟩, last, hlast, hverdict⟩ := ends
    cases (added.command_kept hold).symm.trans hlast
    cases hpoll.symm.trans (congrArg Prod.fst hverdict)
  | issued r command style t mid router rest he he' issued added begun =>
    obtain ⟨⟨old, hold, hpoll⟩, hafter⟩ := ends
    have later : Turn.Ends ⟨mid, m, e'⟩ c .expired :=
      ⟨⟨old, added.command_kept hold, hpoll⟩, hafter⟩
    exact absurd later begun.mute.not_ends

end Engine

/-! ## Chores come to an end -/

/-- The end of a command leaves minor tasks in its place. -/
theorem stack_step_expire (hs : e.stack = .expire r c :: rest) :
    ∃ added, e.step.stack = added ++ rest ∧ ∀ t ∈ added, t.isMinor = true := by
  have grows := grows_finish ((({ e with stack := rest } : Engine).count r fun stats =>
    { stats with timeouts := stats.timeouts + 1 }).push [.hold [r] [c]]) c .expired
  obtain ⟨added, hstack, hadded⟩ := grows.above (List.forall_mem_singleton.2 rfl)
  refine ⟨added, ?_, hadded⟩
  unfold step
  rw [hs]
  exact hstack

/-- Chores are loose ones up to the first that ends a command. -/
theorem loose_or_expire (hfront : ∀ t ∈ front, t.isChore = true) :
    (∀ t ∈ front, t.isLoose = true) ∨ ∃ loose r c others, front = loose ++ .expire r c :: others ∧
      ∀ t ∈ loose, t.isLoose = true := by
  induction front with
  | nil => exact .inl (List.forall_mem_nil _)
  | cons t front ih =>
    have ht := hfront t List.mem_cons_self
    cases hloose : t.isLoose with
    | true =>
      rcases ih fun t' ht' => hfront t' (List.mem_cons_of_mem _ ht') with hall | hfirst
      · exact .inl (List.forall_mem_cons.2 ⟨hloose, hall⟩)
      · obtain ⟨loose, r, c, others, rfl, hall⟩ := hfirst
        exact .inr ⟨t :: loose, r, c, others, rfl, List.forall_mem_cons.2 ⟨hloose, hall⟩⟩
    | false =>
      right
      cases t with
      | expire r c => exact ⟨[], r, c, front, rfl, List.forall_mem_nil _⟩
      | _ => cases hloose.symm.trans ht

/-- Loose chores are done one after the other. -/
theorem Run.clears_loose (h : Run settings turns e) (hs : e.stack = front ++ task :: below)
    (hloose : ∀ t ∈ front, t.isLoose = true) (htask : task.isQuiet = false) :
    ∃ more e', Alone e more e' ∧ e'.stack = task :: below := by
  let family (chores : List Task) (e : Engine) : Prop := (∃ turns, Run settings turns e) ∧
    e.stack = chores ++ task :: below ∧ ∀ t ∈ chores, t.isLoose = true
  have keeps : Keeps settings ⟨0⟩ (task :: below) family := by
    refine ⟨fun hp => hp.1, fun hp => hp.2.1, fun hp => hp.2.2, ?_⟩
    rintro t chores e m e' ⟨⟨turns, run⟩, hstack, hl⟩ hq hm
    have hi := hq.inward
    obtain ⟨⟨front', hstack', hmore⟩, -⟩ := (run.inner_of_inward hi hm).chores hstack
      (fun t' ht' => Task.isChore_of_loose (hl t' ht')) htask (.inl (List.cons_ne_nil _ _))
    exact ⟨front', ⟨_, run.inward hi hm⟩, hstack', fun t' ht' => (hmore t' ht').elim (hl t') id⟩
  have hp : family front e := ⟨⟨turns, h⟩, hs, hloose⟩
  obtain ⟨more, e', quietly, ⟨-, hs', -⟩, -⟩ := keeps.clears hp
  exact ⟨more, e', quietly.alone, hs'⟩

/-- **Chores can always be brought to an end**, with nobody calling meanwhile. -/
theorem Run.clears_chores (h : Run settings turns e)
    (hs : e.stack = front ++ .answer result :: below) (hfront : ∀ t ∈ front, t.isChore = true) :
    ∃ more e', Alone e more e' ∧ e'.stack = .answer result :: below := by
  -- every command that is ended is one less to end
  generalize hn : front.countP (fun t => t.expires?.isSome) = n
  induction n using Nat.strong_induction_on generalizing e turns front with
  | _ n ih =>
    rcases loose_or_expire hfront with hloose | ⟨loose, r, c, others, rfl, hloose⟩
    · exact h.clears_loose hs hloose rfl
    · obtain ⟨more, e₁, alone, hs₁⟩ :=
        h.clears_loose (hs.trans (List.append_assoc ..)) hloose rfl
      have hw : e₁.pause = .working := by
        unfold pause
        rw [hs₁]
      obtain ⟨added, hstack, hadded⟩ := stack_step_expire hs₁
      have hs₂ : e₁.step.stack = (added ++ others) ++ .answer result :: below :=
        hstack.trans (List.append_assoc ..).symm
      have hothers : ∀ t ∈ others, t.isChore = true := fun t ht =>
        hfront t (List.mem_append_right _ (List.mem_cons_of_mem _ ht))
      have hless : (added ++ others).countP (fun t => t.expires?.isSome) < n := by
        have hnone : added.countP (fun t => t.expires?.isSome) = 0 := by
          refine List.countP_eq_zero.2 fun t ht => ?_
          have hminor := hadded t ht
          cases t <;> first | exact Bool.false_ne_true | cases hminor
        rw [List.countP_append, hnone, ← hn, List.countP_append, List.countP_cons]
        simp only [Task.expires?, Option.isSome_some, if_true]
        omega
      have run₁ := alone.run h
      obtain ⟨more', e₂, alone', hs'⟩ := ih _ hless (run₁.proceed hw) hs₂
        (List.forall_mem_append.2 ⟨fun t ht => Task.isChore_of_loose
          (Task.isLoose_of_minor (hadded t ht)), hothers⟩) rfl
      have step : Alone e₁ [⟨e₁, .proceed, e₁.step⟩] e₁.step :=
        .single inward_proceed (move?_of_working hw)
      exact ⟨_, e₂, (alone.append step).append alone', hs'⟩

/-! ## Courses that are replayed -/

/-- Whether a move comes from inside, and takes no answer. -/
def Engine.isInward (e : Engine) : Move → Bool
  | .call _ => false
  | .collect => e.pause.answered?.isNone
  | _ => true

theorem Engine.inward_of_isInward (h : e.isInward m = true) : e.Inward m := by
  refine ⟨fun call heq => ?_, fun heq result below hs => ?_⟩
  · subst heq
    cases h
  · subst heq
    unfold isInward pause at h
    rw [hs] at h
    cases h

/-- The course that these moves make, the latest first, if they are possible one after the other. -/
def alone? (e : Engine) : List Move → Option (List Turn × Engine)
  | [] => some ([], e)
  | m :: moves =>
    match alone? e moves with
    | none => none
    | some (course, e') =>
      if e'.isInward m then (e'.move? m).map fun e'' => (⟨e', m, e''⟩ :: course, e'') else none

theorem alone_of_alone? : ∀ {moves : List Move} {course : List Turn} {e' : Engine},
    alone? e moves = some (course, e') → Alone e course e'
  | [], _, _, h => by
    cases h
    exact .start
  | m :: moves, course, e'', h => by
    unfold alone? at h
    split at h
    · cases h
    · rename_i earlier e' hprior
      have before : Alone e earlier e' := alone_of_alone? hprior
      split at h
      · rename_i hinward
        obtain ⟨last, hm, heq⟩ := Option.map_eq_some_iff.1 h
        cases heq
        exact before.next (inward_of_isInward hinward) hm
      · cases h

/-- What is answered where nothing else is to do. -/
def Engine.reply? (e : Engine) : Option (Outcome Answer) :=
  match e.stack with
  | [.answer result] => some result
  | _ => none

theorem Engine.stack_of_reply? (h : e.reply? = some result) : e.stack = [.answer result] := by
  unfold reply? at h
  split at h
  · rename_i hs
    rw [hs, Option.some.inj h]
  · cases h

end RouterFabric
