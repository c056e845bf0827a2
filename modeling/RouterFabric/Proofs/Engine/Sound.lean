import RouterFabric.Proofs.Engine.Moved

/-!
# Every move keeps an engine sound

Each kind of change keeps what is stored sound, lets the engine go only forward and, unless an
attempt begins, puts no command into a queue. With that, what is below the tasks that a move
replaces fits as it did, and what takes their place is seen to fit case by case.

* `Engine.Passes` : what all changes but the beginning of an attempt have in common
* `Sound.of_moved` : the engine after a move is sound
-/

namespace RouterFabric.Engine

variable {e e' e'' : Engine} {r r' : RouterRef} {router : Router} {c c' : CommandRef}
  {command old new : Command} {t t' : Task} {w : Waiter} {below tasks gone : List Task}

/-- What is stored is sound again, goes on from what was, and no more commands are queued. -/
structure Passes (e e' : Engine) : Prop where
  stored : e'.Stored
  forward : e.Extends e'
  queued : ∀ c, e'.Queued c → e.Queued c

theorem Passes.trans (p : e.Passes e') (p' : e'.Passes e'') : e.Passes e'' :=
  ⟨p'.stored, p.forward.trans p'.forward, fun c hq => p.queued c (p'.queued c hq)⟩

theorem Alike.passes (a : e.Alike e') (h : e.Stored) : e.Passes e' := by
  refine ⟨h.of_alike a, a.extends, fun c hq => ?_⟩
  obtain ⟨r, hm⟩ := hq
  exact ⟨r, a.members r ▸ hm⟩

theorem Changed.queued {left : Bool} (a : e.Changed e' c old new left) (hq : e'.Queued c') :
    e.Queued c' := by
  obtain ⟨r, hm⟩ := hq
  rw [a.members] at hm
  refine ⟨r, ?_⟩
  split at hm
  · exact List.mem_of_mem_erase hm
  · exact hm

theorem Changed.passes {left : Bool} (a : e.Changed e' c old new left) (h : e.Stored)
    (hm : new.made = old.made)
    (hl : ∀ tag, new.listener = .callback tag → old.listener = .callback tag)
    (stays : left = false → new.isComplete = false ∧ new.pollComplete = false) : e.Passes e' :=
  ⟨h.of_changed a (a.extends hm hl) fun hleft => ⟨hm, stays hleft⟩, a.extends hm hl,
    fun _ => a.queued⟩

/-- A command that has been taken out is in no queue. -/
theorem Changed.not_queued (a : e.Changed e' c old new true) (h : e.Stored) : ¬ e'.Queued c := by
  rintro ⟨r, hm⟩
  rw [a.members, if_pos rfl] at hm
  exact ((h.orderly r).nodup.mem_erase_iff.1 hm).1 rfl

theorem Added.passes (a : e.Added e' new) (h : e.Stored) : e.Passes e' := by
  refine ⟨h.of_added a, a.extends, fun c hq => ?_⟩
  obtain ⟨r, hm⟩ := hq
  exact ⟨r, a.members r ▸ hm⟩

theorem Begun.queued (a : e.Begun e' r c router old) (hq : e'.Queued c') :
    e.Queued c' ∨ c' = c := by
  obtain ⟨r', hm⟩ := hq
  rw [a.members] at hm
  split at hm
  · rcases List.mem_append.1 hm with hm | hm
    · exact .inl ⟨r', hm⟩
    · exact .inr (List.mem_singleton.1 hm)
  · exact .inl ⟨r', hm⟩

theorem Joined.passes {route : Route} {linked : Bool} (a : e.Joined e' route linked)
    (h : e.Stored) : e.Passes e' := by
  refine ⟨h.of_joined a, a.extends h, fun c hq => ?_⟩
  obtain ⟨r, hm⟩ := hq
  exact ⟨r, a.queue r ▸ hm⟩

theorem Parted.passes (a : e.Parted e' r) (h : e.Stored) : e.Passes e' := by
  refine ⟨h.of_parted a, a.extends h, fun c hq => ?_⟩
  obtain ⟨r, hm⟩ := hq
  exact ⟨r, a.queues r ▸ hm⟩

theorem Changed.passes_forced (a : e.Changed e' c old old.forced true) (h : e.Stored) :
    e.Passes e' :=
  a.passes h rfl (fun _ => id) nofun

theorem Forced.passes {cs : List (RouterRef × CommandRef)} (f : Forced e cs e') (h : e.Stored) :
    e.Passes e' ∧ ∀ p ∈ cs, ¬ e'.Queued p.2 := by
  induction f with
  | none a => exact ⟨a.passes h, nofun⟩
  | skip a _ ih =>
    obtain ⟨p, hq⟩ := ih (h.of_alike a)
    exact ⟨(a.passes h).trans p, hq⟩
  | next _ hc _ ih =>
    have first := hc.passes_forced h
    obtain ⟨rest, hq⟩ := ih first.stored
    refine ⟨first.trans rest, fun p hp => ?_⟩
    rcases List.mem_cons.1 hp with rfl | hp
    · exact fun hq' => hc.not_queued h (rest.queued _ hq')
    · exact hq p hp

theorem Cut.passes {rs : List RouterRef} (k : Cut e rs e') (h : e.Stored) : e.Passes e' := by
  induction k with
  | none a => exact a.passes h
  | next p _ ih => exact (p.passes h).trans (ih (h.of_parted p))

/-! ## Tasks that replace others -/

theorem fits_reply (reply : Reply) : e.Fits (.reply reply) :=
  ⟨trivial, by simp [Task.commands]⟩

theorem fits_answer (result : Outcome Answer) : e.Fits (.answer result) := by
  refine ⟨trivial, ?_⟩
  simp [Task.commands]

theorem fits_perform (hk : e.Known r) (program : Program Request Answer) :
    e.Fits (.perform r program) :=
  ⟨hk, by simp [Task.commands]⟩

theorem fits_notes (command : Command) (ending : Ending) :
    ∀ t ∈ command.notes ending, t.waiter? = none ∧ e.Fits t := by
  intro t ht
  unfold Command.notes at ht
  obtain ⟨tag, -, rfl⟩ := List.mem_map.1 ht
  exact ⟨rfl, trivial, by simp [Task.commands]⟩

theorem fits_expire (hq : ¬ e.Queued c) (hc : c.index < e.commands.length) :
    e.Fits (.expire r c) := by
  refine ⟨hq, fun c' hc' => ?_⟩
  rw [List.mem_singleton.1 hc']
  exact hc

/-- The tasks on top have been replaced by others, of which none waits. -/
theorem Sound.advance_chores (h : e.Sound) (gone tasks : List Task) (p : e.Passes e')
    (he : e.stack = gone ++ below) (he' : e'.stack = tasks ++ below)
    (fits : ∀ t ∈ tasks, t.waiter? = none ∧ e'.Fits t) : e'.Sound := by
  refine h.advance p.stored p.forward he he' (fun _ _ c _ => p.queued c) (fun t ht => (fits t ht).2)
    (aged_append (fun t ht => (fits t ht).1) (aged_of_append (he ▸ h.aged)))

/-- The task on top has been replaced by another one that waits for no other command. -/
theorem Sound.advance_head (h : e.Sound) (tasks : List Task) (p : e.Passes e')
    (he : e.stack = t :: below)
    (he' : e'.stack = tasks ++ t' :: below) (fits : ∀ t ∈ tasks, t.waiter? = none ∧ e'.Fits t)
    (fits' : e'.Fits t') (hw : ∀ w', t'.waiter? = some w' →
      ∃ w, t.waiter? = some w ∧ w'.command = w.command) : e'.Sound := by
  have aged : Aged (t' :: below) := aged_replace (he ▸ h.aged) hw
  have split : e'.stack = (tasks ++ [t']) ++ below := by simp [he']
  have gone : e.stack = [t] ++ below := he
  refine h.advance p.stored p.forward gone split (fun _ _ c _ => p.queued c) (fun t ht => ?_) ?_
  · rcases List.mem_append.1 ht with ht | ht
    · exact (fits t ht).2
    · rw [List.mem_singleton.1 ht]
      exact fits'
  · rw [List.append_assoc]
    exact aged_append (fun t ht => (fits t ht).1) aged

theorem fits_of_quiets (hquiet : ∀ t ∈ tasks, t.isQuiet = true) (hfits : ∀ t ∈ tasks, e.Fits t) :
    ∀ t ∈ tasks, t.waiter? = none ∧ e.Fits t :=
  fun t ht => ⟨Task.waiter?_of_quiet (hquiet t ht), hfits t ht⟩

theorem fits_append {front back : List Task} (hf : ∀ t ∈ front, t.waiter? = none ∧ e.Fits t)
    (hb : ∀ t ∈ back, t.waiter? = none ∧ e.Fits t) :
    ∀ t ∈ front ++ back, t.waiter? = none ∧ e.Fits t := by
  intro t ht
  rcases List.mem_append.1 ht with ht | ht
  · exact hf t ht
  · exact hb t ht

/-! ## Moves -/

theorem Changed.passes_ended {marked : Command} {ending : Ending}
    (a : e.Changed e' c old (marked.finish ending) true) (h : e.Stored)
    (hm : marked.made = old.made) : e.Passes e' :=
  a.passes h hm (fun tag hl => (Command.listener_finish_ne marked ending tag hl).elim) nofun

/-- Nothing on the stack knows of a command that is still to be made. -/
theorem Sound.named_lt (h : e.Sound) (he : e.stack = t :: below) :
    ∀ t ∈ below, ∀ c ∈ t.commands, c.index < e.commands.length :=
  fun t ht => (h.tasks t (he ▸ List.mem_cons_of_mem _ ht)).2

/-- A task in the place of another one, for nobody who waits. -/
theorem Sound.advance_plain (h : e.Sound) (p : e.Passes e') (he : e.stack = t :: below)
    (he' : e'.stack = t' :: below) (hw : t'.waiter? = none) (fits : e'.Fits t') : e'.Sound :=
  h.advance_chores [t] [t'] p he he' (List.forall_mem_singleton.2 ⟨hw, fits⟩)

theorem aged_cons (h : Aged below) (hw : ∀ w, t.waiter? = some w →
    ∀ b ∈ below, ∀ c ∈ b.commands, c.index < w.command.index) : Aged (t :: below) :=
  List.pairwise_cons.2 ⟨fun b hb w hw' => hw w hw' b hb, h⟩

theorem aged_cons_of_none (h : Aged below) (hw : t.waiter? = none) : Aged (t :: below) := by
  refine aged_cons h fun w hw' => ?_
  rw [hw] at hw'
  cases hw'

theorem Joined.linked {route : Route} (a : e.Joined e' route true) :
    e'.Linked ⟨e.routers.length⟩ := by
  rcases a.place with ⟨-, hl⟩ | ⟨parent, hplace, -⟩
  · cases hl
  · refine ⟨⟨e.routers.length⟩, ?_⟩
    rw [RouterTree.get?_eq_place, hplace]
    rfl

/-- A new command for a caller that watches. -/
theorem Sound.of_framed {watching : Watching} {left : Nat} (h : e.Sound)
    (he : e.stack = .allocate r command (.waiting watching) :: below)
    (he' : e'.stack = .attempt ⟨r, ⟨e.commands.length⟩, .retrying watching left⟩ :: below)
    (added : e.Added e' command) : e'.Sound := by
  have p := added.passes h.toStored
  obtain ⟨⟨hk, ho, hmade⟩, -⟩ := h.tasks (.allocate r command _) (he ▸ List.mem_cons_self)
  have gone : e.stack = [Task.allocate r command (.waiting watching)] ++ below := he
  have top : e'.stack =
      [Task.attempt ⟨r, ⟨e.commands.length⟩, .retrying watching left⟩] ++ below := he'
  have attends : e'.Attends ⟨r, ⟨e.commands.length⟩, .retrying watching left⟩ := by
    refine ⟨p.forward.known r hk, command, added.command_new, p.forward.owns ho rfl, fun tag => ?_⟩
    rw [hmade]
    nofun
  refine h.advance p.stored p.forward gone top (fun _ _ c _ => p.queued c) (fun t ht => ?_) ?_
  · rw [List.mem_singleton.1 ht]
    refine ⟨⟨attends, h.toStored.not_queued_next added, watching, left, rfl⟩, fun c hc => ?_⟩
    rw [List.mem_singleton.1 hc]
    exact Commands.lt_of_get? added.command_new
  · refine aged_cons (aged_of_append (gone ▸ h.aged)) fun w hw => ?_
    cases hw
    exact h.named_lt he

/-- A new command that is queued at once. -/
theorem Sound.of_issued {style : Style} {mid : Engine} (h : e.Sound)
    (he : e.stack = .allocate r command style :: below)
    (he' : e'.stack =
      (if router.detached then [Task.reply (.error .notFound)] else [Task.drain r, t]) ++ below)
    (issued : Issued r ⟨e.commands.length⟩ style t)
    (added : e.Added mid { command with listener := listenerFor style })
    (begun : mid.Begun e' r ⟨e.commands.length⟩ router
      { command with listener := listenerFor style }) : e'.Sound := by
  have p := added.passes h.toStored
  have x := p.forward.trans begun.extends
  obtain ⟨⟨hk, ho, hmade⟩, -⟩ := h.tasks (.allocate r command _) (he ▸ List.mem_cons_self)
  have gone : e.stack = [Task.allocate r command style] ++ below := he
  obtain ⟨new, hnew, hsub, -⟩ := begun.after
  have hown : e'.Owns r new :=
    x.owns ho ((Command.made_of_substance hsub).trans rfl)
  have fits : e'.Fits t := by
    cases issued with
    | callback tag => exact fits_reply _
    | future =>
      refine ⟨⟨x.known r hk, new, hnew, hown, fun tag => ?_⟩, fun c hc => ?_⟩
      · have hl : new.listener = .future none := congrArg (·.listener) hsub
        rw [hl]
        exact Listener.noConfusion
      · rw [List.mem_singleton.1 hc]
        exact Commands.lt_of_get? hnew
  have young := h.named_lt he
  have aged : Aged (t :: below) := by
    refine aged_cons (aged_of_append (gone ▸ h.aged)) fun w hw => ?_
    cases issued with
    | callback tag => cases hw
    | future =>
      cases hw
      exact young
  refine h.advance (p.stored.of_begun begun (p.forward.owns ho rfl)) x gone he'
    (fun b hb c hc hq => ?_) (fun b hb => ?_) ?_
  · rcases begun.queued hq with hq | rfl
    · exact p.queued c hq
    · exact absurd (young b hb _ hc) (Nat.lt_irrefl _)
  · split at hb
    · rw [List.mem_singleton.1 hb]
      exact fits_reply _
    · rcases List.mem_cons.1 hb with rfl | hb
      · exact fits_of_quiet rfl (by simp [Task.commands])
      · rw [List.mem_singleton.1 hb]
        exact fits
  · split
    · exact aged_cons_of_none (aged_of_append (gone ▸ h.aged)) rfl
    · exact aged_cons_of_none aged rfl

/-- Another attempt of a caller that watches. -/
theorem Sound.of_retried {patience : Patience} (h : e.Sound) (he : e.stack = .attempt w :: below)
    (he' : e'.stack = (if router.detached then [Task.reply (.error .notFound)] else
      [Task.drain w.router, Task.watch { w with patience := patience }]) ++ below)
    (begun : e.Begun e' w.router w.command router old) : e'.Sound := by
  have x := begun.extends
  obtain ⟨⟨hattends, -⟩, hnamed⟩ := h.tasks (.attempt w) (he ▸ List.mem_cons_self)
  obtain ⟨-, command, hc, ho, -⟩ := id hattends
  rw [begun.before] at hc
  cases hc
  have gone : e.stack = [Task.attempt w] ++ below := he
  have young : ∀ b ∈ below, ∀ c ∈ b.commands, c.index < w.command.index :=
    fun b hb => (List.pairwise_cons.1 (he ▸ h.aged : Aged (.attempt w :: below))).1 b hb w rfl
  refine h.advance (h.toStored.of_begun begun ho) x gone he' (fun b hb c hc hq => ?_)
    (fun b hb => ?_) ?_
  · rcases begun.queued hq with hq | rfl
    · exact hq
    · exact absurd (young b hb _ hc) (Nat.lt_irrefl _)
  · split at hb
    · rw [List.mem_singleton.1 hb]
      exact fits_reply _
    · rcases List.mem_cons.1 hb with rfl | hb
      · exact fits_of_quiet rfl (by simp [Task.commands])
      · rw [List.mem_singleton.1 hb]
        exact ⟨hattends.mono x, fun c hc => Nat.lt_of_lt_of_le (hnamed c hc) x.length_le⟩
  · have rest := aged_of_append (gone ▸ h.aged : Aged ([Task.attempt w] ++ below))
    split
    · exact aged_cons_of_none rest rfl
    · refine aged_cons_of_none (aged_cons rest fun w' hw' => ?_) rfl
      cases hw'
      exact young

theorem Sound.of_withdrawn {deadline : Nat} {mid : Engine} {expired : Option CommandRef}
    (h : e.Sound) (he : e.stack = .await w deadline :: below)
    (he' : e'.stack = expired.toList.map (.expire w.router) ++ tasks ++ t :: below)
    (hquiet : ∀ t ∈ tasks, t.isQuiet = true) (hfits : ∀ t ∈ tasks, e'.Fits t)
    (ht : t = .reply (.error .timeout) ∨ t = .attempt w ∧ ∃ watching left,
      w.patience = .retrying watching left)
    (changed : e.Changed mid w.command old old true)
    (forced : Forced mid (expired.toList.map (w.router, ·)) e') : e'.Sound := by
  have p := changed.passes h.toStored rfl (fun _ => id) nofun
  obtain ⟨p', hq⟩ := forced.passes p.stored
  have x := (p.trans p').forward
  obtain ⟨hattends, hnamed⟩ := h.tasks (.await w deadline) (he ▸ List.mem_cons_self)
  have expires : ∀ t ∈ expired.toList.map (Task.expire w.router), t.waiter? = none ∧ e'.Fits t := by
    intro t ht
    obtain ⟨c, hc, rfl⟩ := List.mem_map.1 ht
    have hmem := List.mem_map_of_mem (f := (w.router, ·)) hc
    exact ⟨rfl, fits_expire (hq _ hmem) (forced.named _ hmem)⟩
  refine h.advance_head _ (p.trans p') he he'
    (fits_append expires (fits_of_quiets hquiet hfits)) ?_ ?_
  · rcases ht with rfl | ⟨rfl, hp⟩
    · exact fits_reply _
    · exact ⟨⟨hattends.mono x, fun hq' => changed.not_queued h.toStored (p'.queued _ hq'), hp⟩,
        fun c hc => Nat.lt_of_lt_of_le (hnamed c hc) x.length_le⟩
  · rcases ht with rfl | ⟨rfl, -⟩
    · nofun
    · intro w' hw'
      cases hw'
      exact ⟨w, rfl, rfl⟩

/-- The engine after a move that begins or answers no call is sound. -/
theorem Sound.of_inner {m : Move} (h : e.Sound) (k : Inner e m e') : e'.Sound := by
  have hstored := h.toStored
  cases k with
  | quiet gone tasks below he he' hgone hquiet hfits a =>
    exact h.advance_chores gone tasks (a.passes hstored) he he' (fits_of_quiets hquiet hfits)
  | returned tag reply below he he' hm a =>
    exact h.advance_chores [.notify tag reply] [] (a.passes hstored) he he' (by simp)
  | expired r c old tasks below he he' hquiet hfits a =>
    exact h.advance_chores [.expire r c] _ (a.passes_ended hstored rfl) he he'
      (fits_append (fits_notes old .expired) (fits_of_quiets hquiet hfits))
  | refused r c old fault tasks below he he' hquiet hfits hslot a =>
    exact h.advance_chores [.offer r c] _ (a.passes_ended hstored rfl) he he'
      (fits_append (fits_notes old (.refused fault)) (fits_of_quiets hquiet hfits))
  | noted r c old signal words he' hslot signalled hdone a =>
    have p : e.Passes e' := by
      refine a.passes hstored rfl (fun _ => id) fun _ => ⟨hdone, ?_⟩
      obtain ⟨command, hc, -, -, hpoll⟩ :=
        hstored.members r c (Queue.mem_members.2 (.inl hslot))
      rw [a.before] at hc
      cases hc
      exact hpoll
    refine h.advance_chores [] [.handled] p rfl he' fun t ht => ?_
    rw [List.mem_singleton.1 ht]
    exact ⟨rfl, fits_of_quiet rfl (by simp [Task.commands])⟩
  | completed r c old signal words tasks he' hquiet hfits hslot signalled hdone a =>
    exact h.advance_chores [] _ (a.passes_ended hstored rfl) rfl he'
      (fits_append (fits_notes old _) (fits_of_quiets hquiet hfits))
  | interrupted r c old event tasks he' hquiet hfits hslot a =>
    exact h.advance_chores [] _ (a.passes_ended hstored rfl) rfl he'
      (fits_append (fits_notes old _) (fits_of_quiets hquiet hfits))
  | finished r result below he he' a =>
    exact h.advance_plain (a.passes hstored) he he' rfl (fits_answer result)
  | asked r request next t tasks below he he' hquiet hfits asked a =>
    have p := a.passes hstored
    have hk : e.Known r := (h.tasks (.perform r _) (he ▸ List.mem_cons_self)).1
    have resume : e'.Fits (.resume r next) := ⟨p.forward.known r hk, by simp [Task.commands]⟩
    have fits : e'.Fits t := by
      cases asked with
      | refused failure => exact fits_reply _
      | met reply => exact fits_reply reply
      | transfer ho hmade =>
        exact ⟨⟨p.forward.known r hk, p.forward.owns ho rfl, hmade⟩, by simp [Task.commands]⟩
    have hw : t.waiter? = none := by cases asked <;> rfl
    have top : e'.stack = (tasks ++ [t, .resume r next]) ++ below := by simp [he']
    refine h.advance_chores [.perform r _] _ p he top
      (fits_append (fits_of_quiets hquiet hfits) fun t' ht' => ?_)
    rcases List.mem_cons.1 ht' with rfl | ht'
    · exact ⟨hw, fits⟩
    · rw [List.mem_singleton.1 ht']
      exact ⟨rfl, resume⟩
  | unlinked r next below he he' parted hm =>
    have p := parted.passes hstored
    have hk : e.Known r := (h.tasks (.perform r _) (he ▸ List.mem_cons_self)).1
    have resume : e'.Fits (.resume r next) := ⟨p.forward.known r hk, by simp [Task.commands]⟩
    refine h.advance_chores [.perform r _] [.reply (.ok []), .resume r next] p he he'
      fun t' ht' => ?_
    rcases List.mem_cons.1 ht' with rfl | ht'
    · exact ⟨rfl, fits_reply _⟩
    · rw [List.mem_singleton.1 ht']
      exact ⟨rfl, resume⟩
  | resumed r next reply below he he' a =>
    have p := a.passes hstored
    have hk : e.Known r :=
      (h.tasks (.resume r next) (he ▸ List.mem_cons_of_mem _ List.mem_cons_self)).1
    refine h.advance_chores [.reply reply, .resume r next] [.perform r (next reply)] p he he'
      fun t' ht' => ?_
    rw [List.mem_singleton.1 ht']
    exact ⟨rfl, fits_perform (p.forward.known r hk) _⟩
  | dropped reply below he hbelow he' a =>
    exact h.advance_chores [.reply reply] [] (a.passes hstored) he he' (by simp)
  | unframed r command style failure below he he' a =>
    exact h.advance_plain (a.passes hstored) he he' rfl (fits_reply _)
  | framed r command watching below he he' added => exact h.of_framed he he' added
  | issued r command style t mid router below he he' issued added begun =>
    exact h.of_issued he he' issued added begun
  | retried w watching left router old below he he' begun => exact h.of_retried he he' begun
  | exhausted w below he he' a =>
    exact h.advance_plain (a.passes hstored) he he' rfl (fits_reply _)
  | watched w deadline below he he' a =>
    have p := a.passes hstored
    obtain ⟨hattends, hnamed⟩ := h.tasks (.watch w) (he ▸ List.mem_cons_self)
    have fits : e'.Fits (.await w deadline) := ⟨hattends.mono p.forward, fun c hc =>
      Nat.lt_of_lt_of_le (hnamed c hc) p.forward.length_le⟩
    exact h.advance_head [] p he he' (by simp) fits fun w' hw' => ⟨w', hw', rfl⟩
  | settled w t t' command below he ht he' hc hsettled a =>
    have p := a.passes hstored
    have hw : t.waiter? = some w := by
      rcases ht with rfl | ⟨deadline, rfl⟩ <;> rfl
    rcases hsettled with ⟨reply, rfl, -⟩ | ⟨rfl, hfits, -⟩
    · exact h.advance_plain p he he' rfl (fits_reply reply)
    · refine h.advance_head [] p he he' (by simp) hfits fun w' hw' => ⟨w, hw, ?_⟩
      cases hw'
      rfl
  | unclaimed w deadline below he he' a =>
    have p := a.passes hstored
    obtain ⟨hattends, hnamed⟩ := h.tasks (.await w deadline) (he ▸ List.mem_cons_self)
    have fits : e'.Fits (.claimed w) := ⟨hattends.mono p.forward, fun c hc =>
      Nat.lt_of_lt_of_le (hnamed c hc) p.forward.length_le⟩
    exact h.advance_head [] p he he' (by simp) fits fun w' hw' => ⟨w', hw', rfl⟩
  | withdrawn w deadline mid old expired t tasks below he he' hquiet hfits ht hmem changed forced =>
    exact h.of_withdrawn he he' hquiet hfits ht changed forced
  | unregistered failure below he he' a =>
    exact h.advance_plain (a.passes hstored) he he' rfl (fits_answer _)
  | rooted linked t below he he' joined ht =>
    have p := joined.passes hstored
    rcases ht with ⟨-, failure, rfl⟩ | ⟨rfl, settings, rfl⟩
    · exact h.advance_plain p he he' rfl (fits_answer _)
    · exact h.advance_plain p he he' rfl (fits_perform (.inl joined.linked) _)

theorem Sound.of_called {call : Call} (h : e.Sound) (ha : e.Allows call) (k : Called e call e') :
    e'.Sound := by
  have hstored := h.toStored
  cases k with
  | answered result hresult he' a =>
    refine h.advance_chores [] [.answer result] (a.passes hstored) rfl he' fun t ht => ?_
    rw [List.mem_singleton.1 ht]
    exact ⟨rfl, fits_answer result⟩
  | operated r operation router settings hr he' a =>
    have p := a.passes hstored
    refine h.advance_chores [] [.perform r _] p rfl he' fun t ht => ?_
    rw [List.mem_singleton.1 ht]
    exact ⟨rfl, fits_perform (p.forward.known r ha) _⟩
  | attached parent route linked t he' joined ht =>
    have p := joined.passes hstored
    refine h.advance_chores [] [t] p rfl he' fun t' ht' => ?_
    rw [List.mem_singleton.1 ht']
    rcases ht with ⟨-, failure, rfl⟩ | ⟨rfl, settings, rfl⟩
    · exact ⟨rfl, fits_answer _⟩
    · exact ⟨rfl, fits_perform (.inl joined.linked) _⟩
  | detached r expired mid rs tasks result he' hquiet hfits forced cut hempty =>
    obtain ⟨p, hq⟩ := forced.passes hstored
    have p' := cut.passes p.stored
    refine h.advance_chores [] _ (p.trans p') rfl
      (he'.trans (List.append_assoc _ [.answer result] e.stack).symm)
      (fits_append (fits_append (fun t ht => ?_) (fits_of_quiets hquiet hfits)) fun t ht => ?_)
    · obtain ⟨⟨r', c⟩, hc, rfl⟩ := List.mem_map.1 ht
      exact ⟨rfl, fits_expire (fun hq' => hq _ hc (p'.queued _ hq'))
        (Nat.lt_of_lt_of_le (forced.named _ hc) p'.forward.length_le)⟩
    · rw [List.mem_singleton.1 ht]
      exact ⟨rfl, fits_answer result⟩

/-- **Every move keeps an engine sound.** -/
theorem Sound.of_moved {m : Move} (h : e.Sound) (ha : ∀ call, m = .call call → e.Allows call)
    (k : Moved e m e') : e'.Sound := by
  cases k with
  | inner _ _ k => exact h.of_inner k
  | called k => exact h.of_called (ha _ rfl) k
  | collected result below he he' a =>
    exact h.advance_chores [.answer result] [] (a.passes h.toStored) he he' (by simp)

/-! ## What was made stays -/

theorem Sound.extends_inner {m : Move} (h : e.Sound) (k : Inner e m e') : e.Extends e' := by
  cases k with
  | expired r c old tasks below he he' hquiet hfits a =>
    exact (a.passes_ended h.toStored rfl).forward
  | refused r c old fault tasks below he he' hquiet hfits hslot a =>
    exact (a.passes_ended h.toStored rfl).forward
  | noted r c old signal words he' hslot signalled hdone a => exact a.extends rfl fun _ => id
  | completed r c old signal words tasks he' hquiet hfits hslot signalled hdone a =>
    exact (a.passes_ended h.toStored rfl).forward
  | interrupted r c old event tasks he' hquiet hfits hslot a =>
    exact (a.passes_ended h.toStored rfl).forward
  | unlinked r next below he he' parted hm => exact parted.extends h.toStored
  | framed r command watching below he he' added => exact added.extends
  | issued r command style t mid router below he he' issued added begun =>
    exact added.extends.trans begun.extends
  | retried w watching left router old below he he' begun => exact begun.extends
  | withdrawn w deadline mid old expired t tasks below he he' hquiet hfits ht hmem changed forced =>
    exact (changed.extends rfl fun _ => id).trans forced.extends
  | rooted linked t below he he' joined ht => exact joined.extends h.toStored
  | quiet | returned | finished | asked | resumed | dropped | unframed | exhausted | watched
  | settled | unclaimed | unregistered => exact Alike.extends ‹_›

theorem Sound.extends_called {call : Call} (h : e.Sound) (k : Called e call e') : e.Extends e' := by
  cases k with
  | answered result hresult he' a => exact a.extends
  | operated r operation router settings hr he' a => exact a.extends
  | attached parent route linked t he' joined ht => exact joined.extends h.toStored
  | detached r expired mid rs tasks result he' hquiet hfits forced cut hempty =>
    exact forced.extends.trans (cut.extends (forced.stored h.toStored))

/-- Routers and commands stay what they were made to be. -/
theorem Sound.extends {m : Move} (h : e.Sound) (ha : ∀ call, m = .call call → e.Allows call)
    (hm : e.move? m = some e') : e.Extends e' := by
  cases h.moved ha hm with
  | inner hcall hcollect k => exact h.extends_inner k
  | called k => exact h.extends_called k
  | collected result below he he' a => exact a.extends

end RouterFabric.Engine
