import RouterFabric.Proofs.Calls
import Mathlib.Data.Set.Card

/-!
# Callbacks that run or are going to

A callback is told of the end of one command. Until then the command waits in its queue, or it has
been taken out of its slot and the task that ends it is on the stack. So what a callback is due
can be counted: the times it runs, and the commands that are going to tell it something. No move
changes the count, but for those that pass a callback on and those at which one returns.

* `Engine.armed` : the commands whose end a callback is going to be told
* `Engine.due` : the count
* `Sound.owes_inner`, `Sound.owes_called` : moves that keep it
* `Queues.owes` : the move that raises it
-/

namespace RouterFabric

namespace Task

/-- Whether the callback runs in a task. -/
def runs (tag : Nat) : Task → Bool
  | .notify tag' _ => tag' == tag
  | _ => false

/-- Tasks in which no callback runs and no command ends. -/
def isSilent : Task → Bool
  | .notify _ _ => false
  | .expire _ _ => false
  | _ => true

theorem isSilent_of_quiet {t : Task} (h : t.isQuiet = true) : t.isSilent = true := by
  cases t <;> first | rfl | cases h

theorem runs_of_silent {t : Task} (h : t.isSilent = true) (tag : Nat) : t.runs tag = false := by
  cases t <;> first | rfl | cases h

end Task

/-- Of the tasks that the end of a command leaves, as many run the callback as it listens to. -/
theorem Command.countP_notes (command : Command) (ending : Ending) (tag : Nat) :
    (command.notes ending).countP (Task.runs tag) =
      if command.listener = .callback tag then 1 else 0 := by
  unfold Command.notes Command.callback?
  cases command.listener with
  | nobody => rfl
  | future reply => rfl
  | callback tag' =>
    by_cases h : tag' = tag
    · simp [h, Task.runs]
    · simp [h, Task.runs]

namespace Engine

variable {e e' mid : Engine} {m : Move} {r : RouterRef} {router : Router} {c c' : CommandRef}
  {command old new marked : Command} {tag : Nat} {t : Task} {below gone tasks : List Task}

/-- The callback is told how the command ends. -/
def Listens (e : Engine) (tag : Nat) (c : CommandRef) : Prop :=
  ∃ command, e.command? c = some command ∧ command.listener = .callback tag

/-- The command is in a queue, or is about to end. -/
def Lives (e : Engine) (c : CommandRef) : Prop :=
  e.Queued c ∨ ∃ r, .expire r c ∈ e.stack

/-- The commands whose end the callback is going to be told. -/
def armed (e : Engine) (tag : Nat) : Set CommandRef :=
  {c | e.Listens tag c ∧ e.Lives c}

/-- How often the callback runs or is going to. -/
noncomputable def due (e : Engine) (tag : Nat) : Nat :=
  e.stack.countP (Task.runs tag) + (e.armed tag).ncard

theorem armed_finite (e : Engine) (tag : Nat) : (e.armed tag).Finite := by
  refine Set.Finite.subset ((Finset.range e.commands.length).finite_toSet.image CommandRef.mk) ?_
  rintro ⟨i⟩ ⟨⟨command, hc, -⟩, -⟩
  exact ⟨i, by simpa using Commands.lt_of_get? hc, rfl⟩

/-! ## Changes that keep the count -/

/-- Nothing but silent tasks has been replaced. -/
structure Hushed (e e' : Engine) : Prop where
  runs : ∀ tag, e'.stack.countP (Task.runs tag) = e.stack.countP (Task.runs tag)
  expires : ∀ r c, .expire r c ∈ e'.stack ↔ .expire r c ∈ e.stack

theorem countP_of_silent (h : ∀ t ∈ tasks, t.isSilent = true) (tag : Nat) :
    tasks.countP (Task.runs tag) = 0 := by
  rw [List.countP_eq_zero]
  intro t ht
  rw [Task.runs_of_silent (h t ht)]
  exact Bool.false_ne_true

theorem not_expire_of_silent (h : ∀ t ∈ tasks, t.isSilent = true) (r : RouterRef) (c : CommandRef) :
    Task.expire r c ∉ tasks := by
  intro ht
  cases h _ ht

theorem hushed (gone tasks : List Task) (he : e.stack = gone ++ below)
    (he' : e'.stack = tasks ++ below) (hgone : ∀ t ∈ gone, t.isSilent = true)
    (htasks : ∀ t ∈ tasks, t.isSilent = true) : e.Hushed e' := by
  refine ⟨fun tag => ?_, fun r c => ?_⟩
  · rw [he, he', List.countP_append, List.countP_append, countP_of_silent hgone,
      countP_of_silent htasks]
  · rw [he, he', List.mem_append, List.mem_append]
    have hg := not_expire_of_silent hgone r c
    have ht := not_expire_of_silent htasks r c
    tauto

theorem hushed_one {t' : Task} (he : e.stack = t :: below) (he' : e'.stack = t' :: below)
    (ht : t.isSilent = true) (ht' : t'.isSilent = true) : e.Hushed e' :=
  hushed [t] [t'] he he' (List.forall_mem_singleton.2 ht) (List.forall_mem_singleton.2 ht')

theorem hushed_onto (he' : e'.stack = t :: e.stack) (ht : t.isSilent = true) : e.Hushed e' :=
  hushed [] [t] (List.nil_append e.stack).symm he' (List.forall_mem_nil _)
    (List.forall_mem_singleton.2 ht)

/-- The callback is due as often as before, and no more commands are going to tell it something. -/
structure Owes (e e' : Engine) (tag : Nat) : Prop where
  armed : e'.armed tag ⊆ e.armed tag
  due : e'.due tag = e.due tag

theorem owes_of_armed (harmed : e'.armed tag = e.armed tag)
    (hruns : e'.stack.countP (Task.runs tag) = e.stack.countP (Task.runs tag)) :
    e.Owes e' tag := by
  refine ⟨harmed.subset, ?_⟩
  unfold due
  rw [harmed, hruns]

theorem owes_of_iff (hl : ∀ c, e'.Listens tag c ↔ e.Listens tag c)
    (hlives : ∀ c, e.Listens tag c → (e'.Lives c ↔ e.Lives c))
    (hruns : e'.stack.countP (Task.runs tag) = e.stack.countP (Task.runs tag)) :
    e.Owes e' tag := by
  refine owes_of_armed ?_ hruns
  ext c
  constructor
  · rintro ⟨hc, hlive⟩
    have hc := (hl c).1 hc
    exact ⟨hc, (hlives c hc).1 hlive⟩
  · rintro ⟨hc, hlive⟩
    exact ⟨(hl c).2 hc, (hlives c hc).2 hlive⟩

theorem Hushed.owes (s : e.Hushed e') (hl : ∀ c, e'.Listens tag c ↔ e.Listens tag c)
    (hq : ∀ c, e.Listens tag c → (e'.Queued c ↔ e.Queued c)) : e.Owes e' tag := by
  refine owes_of_iff hl (fun c hc => ?_) (s.runs tag)
  unfold Lives
  rw [hq c hc]
  simp only [s.expires]

theorem Spared.listens_iff (s : e.Spared e' c) : e'.Listens tag c ↔ e.Listens tag c := by
  constructor
  · rintro ⟨command, hc, hl⟩
    obtain ⟨command', hc', hs⟩ := s.was hc
    exact ⟨command', hc', (congrArg (·.listener) hs).trans hl⟩
  · rintro ⟨command, hc, hl⟩
    obtain ⟨command', hc', hs⟩ := s.kept hc
    exact ⟨command', hc', (congrArg (·.listener) hs).trans hl⟩

theorem queued_iff_of_members (h : ∀ r, (e'.queue r).members = (e.queue r).members)
    (c : CommandRef) : e'.Queued c ↔ e.Queued c := by
  unfold Queued
  simp only [h]

theorem Alike.owes (a : e.Alike e') (s : e.Hushed e') : e.Owes e' tag :=
  s.owes (fun c => (a.commands c).listens_iff) fun c _ => queued_iff_of_members a.members c

/-- A change to one command that is told to nobody else. -/
theorem listens_iff_of_changed (before : e.command? c = some old) (after : e'.command? c = some new)
    (hl : new.listener = old.listener) (others : ∀ c', c' ≠ c → e.Spared e' c') (c' : CommandRef) :
    e'.Listens tag c' ↔ e.Listens tag c' := by
  by_cases hcc : c' = c
  · subst hcc
    unfold Listens
    rw [before, after]
    simp [hl]
  · exact (others c' hcc).listens_iff

theorem Changed.queued_iff {left : Bool} (a : e.Changed e' c old new left) (hne : c' ≠ c) :
    e'.Queued c' ↔ e.Queued c' := by
  unfold Queued
  simp only [a.members]
  cases left with
  | false => simp
  | true => simp [List.mem_erase_of_ne hne]

/-! ## The end of a command -/

/-- A command that lived has ended: its callback runs now. -/
theorem Changed.owes_ended {ending : Ending} (a : e.Changed e' c old (marked.finish ending) true)
    (hlives : e.Lives c) (gone tasks : List Task) (he : e.stack = gone ++ below)
    (he' : e'.stack = old.notes ending ++ tasks ++ below)
    (hgone : ∀ t ∈ gone, t.isSilent = true ∨ ∃ r, t = .expire r c)
    (htasks : ∀ t ∈ tasks, t.isSilent = true) : e.Owes e' tag := by
  have hruns : e'.stack.countP (Task.runs tag) =
      (if old.listener = .callback tag then 1 else 0) + e.stack.countP (Task.runs tag) := by
    have hzero : gone.countP (Task.runs tag) = 0 := by
      rw [List.countP_eq_zero]
      intro t ht
      rcases hgone t ht with hs | ⟨r, rfl⟩
      · rw [Task.runs_of_silent hs]
        exact Bool.false_ne_true
      · exact Bool.false_ne_true
    rw [he, he', List.countP_append, List.countP_append, List.countP_append,
      countP_of_silent htasks, hzero, Command.countP_notes]
    omega
  have hnot : ¬ e'.Listens tag c := by
    rintro ⟨command, hc, hl⟩
    rw [a.after] at hc
    cases hc
    exact Command.listener_finish_ne marked ending tag hl
  have hothers (c' : CommandRef) (hne : c' ≠ c) : c' ∈ e'.armed tag ↔ c' ∈ e.armed tag := by
    have hexpire (r : RouterRef) : Task.expire r c' ∈ e'.stack ↔ Task.expire r c' ∈ e.stack := by
      have hg : Task.expire r c' ∉ gone := by
        intro ht
        rcases hgone _ ht with hs | ⟨r', heq⟩
        · cases hs
        · cases heq
          exact hne rfl
      have ht : Task.expire r c' ∉ tasks := not_expire_of_silent htasks r c'
      have hn : Task.expire r c' ∉ old.notes ending := by
        intro ht
        unfold Command.notes at ht
        obtain ⟨tag, -, heq⟩ := List.mem_map.1 ht
        cases heq
      rw [he, he', List.mem_append, List.mem_append, List.mem_append]
      tauto
    show e'.Listens tag c' ∧ e'.Lives c' ↔ e.Listens tag c' ∧ e.Lives c'
    unfold Lives
    rw [(a.others c' hne).listens_iff, a.queued_iff hne]
    simp only [hexpire]
  by_cases hl : old.listener = .callback tag
  · have hmem : c ∈ e.armed tag := ⟨⟨old, a.before, hl⟩, hlives⟩
    have harmed : e'.armed tag = e.armed tag \ {c} := by
      ext c'
      rw [Set.mem_sdiff, Set.mem_singleton_iff]
      by_cases hne : c' = c
      · subst hne
        exact ⟨fun h => absurd h.1 hnot, fun h => absurd rfl h.2⟩
      · rw [hothers c' hne]
        exact ⟨fun h => ⟨h, hne⟩, fun h => h.1⟩
    have hcard := Set.ncard_sdiff_singleton_add_one hmem (e.armed_finite tag)
    refine ⟨harmed ▸ Set.sdiff_subset, ?_⟩
    unfold due
    rw [hruns, if_pos hl, harmed]
    omega
  · have harmed : e'.armed tag = e.armed tag := by
      ext c'
      by_cases hne : c' = c
      · subst hne
        refine ⟨fun h => absurd h.1 hnot, fun h => ?_⟩
        obtain ⟨⟨command, hc, hlisten⟩, -⟩ := h
        rw [a.before] at hc
        cases hc
        exact absurd hlisten hl
      · exact hothers c' hne
    refine owes_of_armed harmed ?_
    rw [hruns, if_neg hl, Nat.zero_add]

/-! ## Commands that are taken out of their slots -/

theorem Forced.listens_iff {cs : List (RouterRef × CommandRef)} (f : Forced e cs e') :
    ∀ c, e'.Listens tag c ↔ e.Listens tag c := by
  induction f with
  | none a => exact fun c => (a.commands c).listens_iff
  | skip a _ ih => exact fun c => (ih c).trans (a.commands c).listens_iff
  | next _ hc _ ih =>
    exact fun c => (ih c).trans (listens_iff_of_changed hc.before hc.after rfl hc.others c)

/-- What was queued is queued still or has been taken out. -/
theorem Forced.queued_iff {cs : List (RouterRef × CommandRef)} (f : Forced e cs e')
    (h : e.Stored) : ∀ c, e'.Queued c ∨ (∃ r, (r, c) ∈ cs) ↔ e.Queued c := by
  induction f with
  | none a =>
    intro c
    rw [queued_iff_of_members a.members]
    simp
  | skip a _ ih =>
    intro c
    rw [ih (h.of_alike a) c, queued_iff_of_members a.members]
  | @next e e' e'' cs r c' old hs hc f ih =>
    intro c
    have first := ih (hc.passes_forced h).stored c
    by_cases hcc : c = c'
    · subst hcc
      have hq : e.Queued c := ⟨r, Queue.mem_members.2 (.inl hs)⟩
      exact ⟨fun _ => hq, fun _ => .inr ⟨r, List.mem_cons_self⟩⟩
    · rw [← hc.queued_iff hcc, ← first]
      have hmem : (∃ r', (r', c) ∈ (r, c') :: cs) ↔ ∃ r', (r', c) ∈ cs := by
        constructor
        · rintro ⟨r', hr'⟩
          rcases List.mem_cons.1 hr' with heq | hr'
          · cases heq
            exact absurd rfl hcc
          · exact ⟨r', hr'⟩
        · rintro ⟨r', hr'⟩
          exact ⟨r', List.mem_cons_of_mem _ hr'⟩
      rw [hmem]

/-- Commands that are taken out of their slots live on in the tasks that end them. -/
theorem Forced.owes {cs : List (RouterRef × CommandRef)} {last : Engine} (f : Forced mid cs last)
    (h : mid.Stored) (hl : ∀ c, mid.Listens tag c ↔ e.Listens tag c)
    (hq : ∀ c, e.Listens tag c → (mid.Queued c ↔ e.Queued c))
    (hl' : ∀ c, e'.Listens tag c ↔ last.Listens tag c) (hq' : ∀ c, e'.Queued c ↔ last.Queued c)
    (gone tasks : List Task) (he : e.stack = gone ++ below)
    (he' : e'.stack = cs.map (fun (r, c) => Task.expire r c) ++ tasks ++ below)
    (hgone : ∀ t ∈ gone, t.isSilent = true) (htasks : ∀ t ∈ tasks, t.isSilent = true) :
    e.Owes e' tag := by
  have hexpire (r : RouterRef) (c : CommandRef) :
      Task.expire r c ∈ e'.stack ↔ (r, c) ∈ cs ∨ Task.expire r c ∈ e.stack := by
    have hg := not_expire_of_silent hgone r c
    have ht := not_expire_of_silent htasks r c
    have hmem : Task.expire r c ∈ cs.map (fun (r, c) => Task.expire r c) ↔ (r, c) ∈ cs := by
      constructor
      · intro hmem
        obtain ⟨⟨r', c'⟩, hp, heq⟩ := List.mem_map.1 hmem
        cases heq
        exact hp
      · exact fun hp => List.mem_map.2 ⟨(r, c), hp, rfl⟩
    rw [he, he', List.mem_append, List.mem_append, List.mem_append, hmem]
    tauto
  refine owes_of_iff (fun c => (hl' c).trans ((f.listens_iff c).trans (hl c))) (fun c hc => ?_) ?_
  · have hboth := f.queued_iff h c
    rw [hq c hc] at hboth
    unfold Lives
    rw [← hboth, hq']
    simp only [hexpire, exists_or]
    tauto
  · have hzero : (cs.map (fun (r, c) => Task.expire r c)).countP (Task.runs tag) = 0 := by
      rw [List.countP_eq_zero]
      intro t ht
      obtain ⟨p, -, rfl⟩ := List.mem_map.1 ht
      exact Bool.false_ne_true
    rw [he, he', List.countP_append, List.countP_append, List.countP_append, hzero,
      countP_of_silent htasks, countP_of_silent hgone]

/-! ## Attempts -/

theorem Begun.listens_iff (a : e.Begun e' r c router old) (c' : CommandRef) :
    e'.Listens tag c' ↔ e.Listens tag c' := by
  obtain ⟨new, after, hs, -⟩ := a.after
  exact listens_iff_of_changed a.before after (congrArg (·.listener) hs) a.others c'

/-- Nothing is queued but the command whose attempt begins. -/
theorem Begun.queued_of_ne (a : e.Begun e' r c router old) (hne : c' ≠ c) :
    e'.Queued c' ↔ e.Queued c' := by
  unfold Queued
  simp only [a.members]
  constructor
  · rintro ⟨r', hm⟩
    split at hm
    · rcases List.mem_append.1 hm with hm | hm
      · exact ⟨r', hm⟩
      · exact absurd (List.mem_singleton.1 hm) hne
    · exact ⟨r', hm⟩
  · rintro ⟨r', hm⟩
    refine ⟨r', ?_⟩
    split
    · exact List.mem_append_left _ hm
    · exact hm

/-- A command that has just been made: only its own callback listens to it. -/
theorem Added.listens_iff (a : e.Added e' new) (c : CommandRef) : e'.Listens tag c ↔
    e.Listens tag c ∨ c = ⟨e.commands.length⟩ ∧ new.listener = .callback tag := by
  constructor
  · rintro ⟨command, hc, hl⟩
    by_cases hlt : c.index < e.commands.length
    · have hsome : (e.command? c).isSome := Commands.get?_isSome_iff.2 hlt
      obtain ⟨command', hc'⟩ := Option.isSome_iff_exists.1 hsome
      rw [a.command_kept hc'] at hc
      cases hc
      exact .inl ⟨command, hc', hl⟩
    · have hlt' := Commands.lt_of_get? hc
      rw [a.commands, List.length_append, List.length_singleton] at hlt'
      have hnew : c = ⟨e.commands.length⟩ := by
        rw [Commands.ref_eq_iff]
        show c.index = e.commands.length
        omega
      subst hnew
      rw [a.command_new] at hc
      cases hc
      exact .inr ⟨rfl, hl⟩
  · rintro (⟨command, hc, hl⟩ | ⟨rfl, hl⟩)
    · exact ⟨command, a.command_kept hc, hl⟩
    · exact ⟨new, a.command_new, hl⟩

theorem not_listens_next (e : Engine) (tag : Nat) : ¬ e.Listens tag ⟨e.commands.length⟩ := by
  rintro ⟨command, hc, -⟩
  exact Nat.lt_irrefl _ (Commands.lt_of_get? hc)

/-- A new command owes something to the callback that is passed on with it. -/
theorem Queues.owes (q : e.Queues tag e') : e'.due tag = e.due tag + 1 ∧
    e'.armed tag = insert ⟨e.commands.length⟩ (e.armed tag) := by
  obtain ⟨r, command, below, mid, router, he, he', hd, added, begun⟩ := q
  have gone : e.stack = [Task.allocate r command (.callback tag)] ++ below := he
  have tasks : e'.stack = [Task.drain r, Task.reply (.ok [])] ++ below := he'
  have s : e.Hushed e' := hushed _ _ gone tasks (by simp [Task.isSilent]) (by simp [Task.isSilent])
  have hnew : e'.Queued ⟨e.commands.length⟩ := by
    refine ⟨r, ?_⟩
    rw [begun.members, if_pos ⟨rfl, hd⟩]
    exact List.mem_append_right _ List.mem_cons_self
  have harmed : e'.armed tag = insert ⟨e.commands.length⟩ (e.armed tag) := by
    ext c
    rw [Set.mem_insert_iff]
    show e'.Listens tag c ∧ e'.Lives c ↔ _ ∨ e.Listens tag c ∧ e.Lives c
    rw [begun.listens_iff, added.listens_iff]
    by_cases hne : c = ⟨e.commands.length⟩
    · subst hne
      exact ⟨fun _ => .inl rfl, fun _ => ⟨.inr ⟨rfl, rfl⟩, .inl hnew⟩⟩
    · unfold Lives
      rw [begun.queued_of_ne hne, queued_iff_of_members added.members]
      simp only [s.expires, hne, false_and, or_false, false_or]
  have hfresh : (⟨e.commands.length⟩ : CommandRef) ∉ e.armed tag :=
    fun hm => e.not_listens_next tag hm.1
  refine ⟨?_, harmed⟩
  unfold due
  rw [harmed, Set.ncard_insert_of_notMem hfresh (e.armed_finite tag), s.runs]
  omega

/-! ## Moves -/

theorem listens_iff_of_commands (h : e'.commands = e.commands) (c : CommandRef) :
    e'.Listens tag c ↔ e.Listens tag c := by
  unfold Listens command?
  rw [h]

theorem Cut.same {rs : List RouterRef} (k : Cut e rs e') (tag : Nat) (c : CommandRef) :
    (e'.Listens tag c ↔ e.Listens tag c) ∧ (e'.Queued c ↔ e.Queued c) := by
  induction k with
  | none a => exact ⟨(a.commands c).listens_iff, queued_iff_of_members a.members c⟩
  | next p _ ih =>
    exact ⟨ih.1.trans (listens_iff_of_commands p.commands c),
      ih.2.trans (queued_iff_of_members (fun r => by rw [p.queues]) c)⟩

theorem Attends.not_listens {w : Waiter} (h : e.Attends w) : ¬ e.Listens tag w.command := by
  rintro ⟨command, hc, hl⟩
  obtain ⟨-, command', hc', -, hnone⟩ := h
  rw [hc] at hc'
  cases hc'
  exact hnone tag hl

/-- A transfer that nobody waits for by watching, unless its callback is now due. -/
theorem Sound.owes_issued {style : Style} (h : e.Sound)
    (he : e.stack = .allocate r command style :: below)
    (he' : e'.stack =
      (if router.detached then [Task.reply (.error .notFound)] else [Task.drain r, t]) ++ below)
    (issued : Issued r ⟨e.commands.length⟩ style t)
    (added : e.Added mid { command with listener := listenerFor style })
    (begun : mid.Begun e' r ⟨e.commands.length⟩ router
      { command with listener := listenerFor style }) (hq : ¬ e.Queues tag e') :
    e.Owes e' tag := by
  have gone : e.stack = [Task.allocate r command style] ++ below := he
  have hgone : ∀ t ∈ [Task.allocate r command style], t.isSilent = true := by simp [Task.isSilent]
  have hqueued (c : CommandRef) (hne : c ≠ ⟨e.commands.length⟩) : e'.Queued c ↔ e.Queued c :=
    (begun.queued_of_ne hne).trans (queued_iff_of_members added.members c)
  have hlistens (c : CommandRef) : e'.Listens tag c ↔ e.Listens tag c ∨
      c = ⟨e.commands.length⟩ ∧ listenerFor style = .callback tag :=
    (begun.listens_iff c).trans (added.listens_iff c)
  cases hd : router.detached with
  | false =>
    rw [hd] at he'
    have silent : t.isSilent = true := by
      cases issued <;> rfl
    have hstyle : listenerFor style ≠ .callback tag := by
      intro hl
      cases issued with
      | callback tag' =>
        obtain rfl : tag' = tag := by
          injection hl
        exact hq ⟨r, command, below, mid, router, he, he', hd, added, begun⟩
      | future => cases hl
    have htasks : ∀ t' ∈ [.drain r, t], t'.isSilent = true :=
      List.forall_mem_cons.2 ⟨rfl, by simp [silent]⟩
    refine (hushed _ [.drain r, t] gone he' hgone htasks).owes (fun c => ?_)
      fun c hc => hqueued c ?_
    · rw [hlistens]
      exact or_iff_left fun hnew => hstyle hnew.2
    · rintro rfl
      exact e.not_listens_next tag hc
  | true =>
    rw [hd] at he'
    have s : e.Hushed e' := hushed _ [.reply (.error .notFound)] gone he' hgone
      (by simp [Task.isSilent])
    have hdead : ¬ e'.Lives ⟨e.commands.length⟩ := by
      rintro (⟨r', hm⟩ | ⟨r', hm⟩)
      · rw [begun.members, if_neg (by simp [hd])] at hm
        exact h.toStored.not_queued_next added ⟨r', hm⟩
      · rw [s.expires] at hm
        exact Nat.lt_irrefl _ ((h.tasks _ hm).2 _ List.mem_cons_self)
    have harmed : e'.armed tag = e.armed tag := by
      ext c
      by_cases hne : c = ⟨e.commands.length⟩
      · subst hne
        exact ⟨fun hm => absurd hm.2 hdead, fun hm => absurd hm.1 (e.not_listens_next tag)⟩
      · show e'.Listens tag c ∧ e'.Lives c ↔ e.Listens tag c ∧ e.Lives c
        unfold Lives
        rw [hlistens, hqueued c hne]
        simp only [s.expires, hne, false_and, or_false]
    exact owes_of_armed harmed (s.runs tag)

/-- A move that neither begins nor answers a call, and at which no callback is passed on or returns,
leaves what is due as it was. -/
theorem Sound.owes_inner (h : e.Sound) (k : Inner e m e') (hq : ¬ e.Queues tag e')
    (hback : m = .back → ∀ tag reply below, e.stack ≠ .notify tag reply :: below) :
    e.Owes e' tag := by
  have silent {l : List Task} (hl : ∀ t ∈ l, t.isQuiet = true) : ∀ t ∈ l, t.isSilent = true :=
    fun t ht => Task.isSilent_of_quiet (hl t ht)
  have hstored := h.toStored
  cases k with
  | quiet gone tasks below he he' hgone hquiet hfits a =>
    exact a.owes (hushed gone tasks he he' (silent hgone) (silent hquiet))
  | returned tag' reply below he he' hm a => exact absurd he (hback hm tag' reply below)
  | expired r c old tasks below he he' hquiet hfits a =>
    have hlives : e.Lives c := .inr ⟨r, he ▸ List.mem_cons_self⟩
    refine a.owes_ended hlives [.expire r c] tasks he he' (fun t ht => .inr ⟨r, ?_⟩) (silent hquiet)
    exact List.mem_singleton.1 ht
  | refused r c old fault tasks below he he' hquiet hfits hslot a =>
    have hlives : e.Lives c := .inl ⟨r, Queue.mem_members.2 (.inl hslot)⟩
    refine a.owes_ended hlives [.offer r c] tasks he he' (fun t ht => .inl ?_) (silent hquiet)
    rw [List.mem_singleton.1 ht]
    rfl
  | noted r c old signal words he' hslot signalled hdone a =>
    refine (hushed_onto he' rfl).owes (listens_iff_of_changed a.before a.after rfl a.others)
      fun c' _ => ?_
    exact queued_iff_of_members (fun r => (a.members r).trans (if_neg Bool.false_ne_true)) c'
  | completed r c old signal words tasks he' hquiet hfits hslot signalled hdone a =>
    have hlives : e.Lives c := .inl ⟨r, Queue.mem_members.2 (.inl hslot)⟩
    exact a.owes_ended hlives [] tasks rfl he' (by simp) (silent hquiet)
  | interrupted r c old event tasks he' hquiet hfits hslot a =>
    have hlives : e.Lives c := .inl ⟨r, Queue.mem_members.2 (.inl hslot)⟩
    exact a.owes_ended hlives [] tasks rfl he' (by simp) (silent hquiet)
  | finished r result below he he' a =>
    exact a.owes (hushed_one he he' rfl rfl)
  | asked r request next t tasks below he he' hquiet hfits asked a =>
    have top : e'.stack = (tasks ++ [t, .resume r next]) ++ below := by simp [he']
    have ht : t.isSilent = true := by
      cases asked <;> rfl
    have hlast : ∀ t' ∈ [t, .resume r next], t'.isSilent = true :=
      List.forall_mem_cons.2 ⟨ht, List.forall_mem_singleton.2 rfl⟩
    exact a.owes (hushed [.perform r _] _ he top (List.forall_mem_singleton.2 rfl)
      (List.forall_mem_append.2 ⟨silent hquiet, hlast⟩))
  | unlinked r next below he he' parted hm =>
    refine (hushed [.perform r _] [.reply (.ok []), .resume r next] he he' (by simp [Task.isSilent])
      (by simp [Task.isSilent])).owes (listens_iff_of_commands parted.commands) fun c _ => ?_
    exact queued_iff_of_members (fun r => by rw [parted.queues]) c
  | resumed r next reply below he he' a =>
    exact a.owes (hushed [.reply reply, .resume r next] [.perform r (next reply)] he he'
      (by simp [Task.isSilent]) (by simp [Task.isSilent]))
  | dropped reply below he hbelow he' a =>
    exact a.owes (hushed [.reply reply] [] he he' (by simp [Task.isSilent]) (by simp))
  | unframed r command style failure below he he' a =>
    exact a.owes (hushed_one he he' rfl rfl)
  | framed r command watching below he he' added =>
    obtain ⟨⟨-, -, hmade⟩, -⟩ := h.tasks (.allocate r command _) (he ▸ List.mem_cons_self)
    refine (hushed_one he he' rfl rfl).owes (fun c => ?_)
      fun c _ => queued_iff_of_members added.members c
    rw [added.listens_iff]
    refine or_iff_left fun hnew => ?_
    rw [hmade] at hnew
    cases hnew.2
  | issued r command style t mid router below he he' issued added begun =>
    exact h.owes_issued he he' issued added begun hq
  | retried w watching left router old below he he' begun =>
    obtain ⟨⟨hattends, -⟩, -⟩ := h.tasks (.attempt w) (he ▸ List.mem_cons_self)
    refine (hushed [.attempt w] _ he he' (by simp [Task.isSilent]) fun t ht => ?_).owes
      begun.listens_iff fun c hc => begun.queued_of_ne ?_
    · split at ht
      · rw [List.mem_singleton.1 ht]
        rfl
      · rcases List.mem_cons.1 ht with rfl | ht
        · rfl
        · rw [List.mem_singleton.1 ht]
          rfl
    · rintro rfl
      exact hattends.not_listens hc
  | exhausted w below he he' a =>
    exact a.owes (hushed_one he he' rfl rfl)
  | watched w deadline below he he' a =>
    exact a.owes (hushed_one he he' rfl rfl)
  | settled w t t' command below he ht he' hc hsettled a =>
    have hs : t.isSilent = true := by
      rcases ht with rfl | ⟨deadline, rfl⟩ <;> rfl
    have hs' : t'.isSilent = true := by
      rcases hsettled with ⟨reply, rfl, -⟩ | ⟨rfl, -⟩ <;> rfl
    exact a.owes (hushed_one he he' hs hs')
  | unclaimed w deadline below he he' a =>
    exact a.owes (hushed_one he he' rfl rfl)
  | withdrawn w deadline mid old expired t tasks below he he' hquiet hfits ht hmem changed forced =>
    obtain ⟨hattends, -⟩ := h.tasks (.await w deadline) (he ▸ List.mem_cons_self)
    have hattends : e.Attends w := hattends
    have top : e'.stack = (expired.toList.map (w.router, ·)).map (fun (r, c) => Task.expire r c) ++
        (tasks ++ [t]) ++ below := by
      rw [he', List.map_map]
      simp
    have hs : t.isSilent = true := by
      rcases ht with rfl | ⟨rfl, -⟩ <;> rfl
    have hmid := (changed.passes hstored rfl (fun _ => id) nofun).stored
    refine forced.owes hmid (listens_iff_of_changed changed.before changed.after rfl changed.others)
      (fun c hc => changed.queued_iff ?_) (fun _ => Iff.rfl) (fun _ => Iff.rfl)
      [.await w deadline] (tasks ++ [t]) he top (List.forall_mem_singleton.2 rfl)
      (List.forall_mem_append.2 ⟨silent hquiet, List.forall_mem_singleton.2 hs⟩)
    rintro rfl
    exact hattends.not_listens hc
  | unregistered failure below he he' a =>
    exact a.owes (hushed_one he he' rfl rfl)
  | rooted linked t below he he' joined ht =>
    have hs : t.isSilent = true := by
      rcases ht with ⟨-, failure, rfl⟩ | ⟨-, settings, rfl⟩ <;> rfl
    exact (hushed_one he he' rfl hs).owes (listens_iff_of_commands joined.commands)
      fun c _ => queued_iff_of_members (fun r => by rw [joined.queue]) c

/-- The beginning of a call leaves what is due as it was. -/
theorem Sound.owes_called {call : Call} (h : e.Sound) (k : Called e call e') :
    e.Owes e' tag := by
  cases k with
  | answered result hresult he' a =>
    exact a.owes (hushed_onto he' rfl)
  | operated r operation router settings hr he' a =>
    exact a.owes (hushed_onto he' rfl)
  | attached parent route linked t he' joined ht =>
    have hs : t.isSilent = true := by
      rcases ht with ⟨-, failure, rfl⟩ | ⟨-, settings, rfl⟩ <;> rfl
    exact (hushed_onto he' hs).owes (listens_iff_of_commands joined.commands)
      fun c _ => queued_iff_of_members (fun r => by rw [joined.queue]) c
  | detached r expired mid rs tasks result he' hquiet hfits forced cut hempty =>
    have top : e'.stack = expired.map (fun (r, c) => Task.expire r c) ++
        (tasks ++ [Task.answer result]) ++ e.stack := by
      rw [he']
      simp
    have htasks : ∀ t ∈ tasks ++ [Task.answer result], t.isSilent = true :=
      List.forall_mem_append.2
        ⟨fun t ht => Task.isSilent_of_quiet (hquiet t ht), List.forall_mem_singleton.2 rfl⟩
    exact forced.owes h.toStored (fun _ => Iff.rfl) (fun _ _ => Iff.rfl)
      (fun c => (cut.same tag c).1) (fun c => (cut.same tag c).2) [] _
      (rfl : e.stack = [] ++ e.stack) top (List.forall_mem_nil _) htasks

end Engine

end RouterFabric
