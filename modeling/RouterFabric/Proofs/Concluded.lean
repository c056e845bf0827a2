import RouterFabric.Proofs.Calls

/-!
# Commands of calls that have ended

Calls are nested: what is on the stack below a call was there when the call began, and stays as it
is until the call has ended. So nothing below a call refers to a command that was made in it.

* `marks` : for each call in progress, where its commands begin
* `Marked` : what is below a call refers to older commands only
* `Run.marked` : so it is throughout a run
-/

namespace RouterFabric

open Engine

/-- Whether the task is the lowest of a call. Each call has one such task until it has ended. -/
def Task.isBase : Task → Bool
  | .perform _ _ => true
  | .resume _ _ => true
  | .answer _ => true
  | .register => true
  | _ => false

/-- For each call in progress, the innermost first, the number of commands at its beginning. -/
def marks : List Turn → List Nat
  | [] => [0]
  | turn :: earlier =>
    match turn.move with
    | .call _ => turn.before.commands.length :: marks earlier
    | _ =>
      match turn.answer? with
      | some _ => (marks earlier).tail
      | none => marks earlier

/-- The command was made in a call that has ended. -/
def Concluded (c : CommandRef) : List Turn → Prop
  | [] => False
  | turn :: earlier => Concluded c earlier ∨
    (∃ result, turn.answer? = some result) ∧ (marks earlier).headD 0 ≤ c.index ∧
      c.index < turn.before.commands.length

/-- What is below each call refers only to commands that were made before the call. -/
def Marked : List Nat → List Task → Prop
  | _, [] => True
  | ns, t :: below =>
    if t.isBase then
      (∀ t' ∈ below, ∀ c ∈ t'.commands, c.index < ns.headD 0) ∧ Marked ns.tail below
    else
      Marked ns below

variable {settings : Settings} {turns : List Turn} {e e' : Engine} {m : Move} {ns : List Nat}
  {t t' : Task} {gone tasks below : List Task}

/-! ## Changes of the stack -/

theorem marked_append (h : ∀ t ∈ tasks, t.isBase = false) :
    Marked ns (tasks ++ below) ↔ Marked ns below := by
  induction tasks with
  | nil => exact Iff.rfl
  | cons t rest ih =>
    have hrest := ih fun t' ht' => h t' (List.mem_cons_of_mem t ht')
    rw [← hrest]
    show (if t.isBase then _ else _) ↔ _
    rw [h t List.mem_cons_self]
    exact Iff.rfl

theorem marked_base (h : t.isBase = true) : Marked ns (t :: below) ↔
    (∀ t' ∈ below, ∀ c ∈ t'.commands, c.index < ns.headD 0) ∧ Marked ns.tail below := by
  show (if t.isBase then _ else _) ↔ _
  rw [h]
  exact Iff.rfl

/-- Tasks come and go that are the lowest of no call. -/
theorem Marked.swap (h : Marked ns (gone ++ below)) (hgone : ∀ t ∈ gone, t.isBase = false)
    (htasks : ∀ t ∈ tasks, t.isBase = false) : Marked ns (tasks ++ below) :=
  (marked_append htasks).2 ((marked_append hgone).1 h)

/-- The lowest task of a call makes way for another one. -/
theorem Marked.rebase (h : Marked ns (gone ++ t :: below)) (hgone : ∀ t ∈ gone, t.isBase = false)
    (ht : t.isBase = true) (htasks : ∀ t ∈ tasks, t.isBase = false) (ht' : t'.isBase = true) :
    Marked ns (tasks ++ t' :: below) := by
  rw [marked_append htasks, marked_base ht']
  rwa [marked_append hgone, marked_base ht] at h

theorem Task.isBase_of_chore (h : t.isChore = true) : t.isBase = false := by
  cases t <;> first | rfl | cases h

/-! ## Moves -/

theorem Engine.Inner.marked (k : Inner e m e') (h : Marked ns e.stack) : Marked ns e'.stack := by
  have nothing : ∀ t ∈ ([] : List Task), t.isBase = false := List.forall_mem_nil _
  have plain {t : Task} (ht : t.isBase = false) : ∀ t' ∈ [t], t'.isBase = false :=
    List.forall_mem_singleton.2 ht
  have chores {l : List Task} (hl : ∀ t ∈ l, t.isChore = true) : ∀ t ∈ l, t.isBase = false :=
    fun t ht => Task.isBase_of_chore (hl t ht)
  have quiets {l : List Task} (hl : ∀ t ∈ l, t.isQuiet = true) : ∀ t ∈ l, t.isBase = false :=
    chores fun t ht => Task.isChore_of_quiet (hl t ht)
  have both {l l' : List Task} (hl : ∀ t ∈ l, t.isBase = false) (hl' : ∀ t ∈ l', t.isBase = false) :
      ∀ t ∈ l ++ l', t.isBase = false := List.forall_mem_append.2 ⟨hl, hl'⟩
  -- a task that is the lowest of no call makes way for others
  have swap {t : Task} {below : List Task} (tasks : List Task) (he : e.stack = t :: below)
      (ht : t.isBase = false) (he' : e'.stack = tasks ++ below)
      (htasks : ∀ t ∈ tasks, t.isBase = false) : Marked ns e'.stack := by
    rw [he] at h
    rw [he']
    exact Marked.swap (h : Marked ns ([t] ++ below)) (plain ht) htasks
  have onto (tasks : List Task) (he' : e'.stack = tasks ++ e.stack)
      (htasks : ∀ t ∈ tasks, t.isBase = false) : Marked ns e'.stack := by
    rw [he', marked_append htasks]
    exact h
  -- the lowest task of a call makes way for another one
  have rebase {t t' : Task} {below : List Task} (tasks : List Task) (he : e.stack = t :: below)
      (ht : t.isBase = true) (he' : e'.stack = tasks ++ t' :: below)
      (htasks : ∀ t ∈ tasks, t.isBase = false) (ht' : t'.isBase = true) : Marked ns e'.stack := by
    rw [he] at h
    rw [he']
    exact Marked.rebase (h : Marked ns ([] ++ t :: below)) nothing ht htasks ht'
  cases k with
  | quiet gone tasks below he he' hgone hquiet hfits a =>
    rw [he] at h
    rw [he']
    exact h.swap (quiets hgone) (quiets hquiet)
  | returned tag reply below he he' hm a => exact swap [] he rfl he' nothing
  | expired r c old tasks below he he' hquiet hfits a =>
    exact swap _ he rfl he' (chores (Task.isChore_ended hquiet old _))
  | refused r c old fault tasks below he he' hquiet hfits hslot a =>
    exact swap _ he rfl he' (chores (Task.isChore_ended hquiet old _))
  | noted r c old signal words he' hslot signalled hdone a => exact onto [.handled] he' (plain rfl)
  | completed r c old signal words tasks he' hquiet hfits hslot signalled hdone a =>
    exact onto _ he' (chores (Task.isChore_ended hquiet old _))
  | interrupted r c old event tasks he' hquiet hfits hslot a =>
    exact onto _ he' (chores (Task.isChore_ended hquiet old _))
  | finished r result below he he' a => exact rebase [] he rfl he' nothing rfl
  | asked r request next t tasks below he he' hquiet hfits asked a =>
    have split : e'.stack = (tasks ++ [t]) ++ .resume r next :: below := by
      rw [he', List.append_assoc]
      rfl
    have ht : t.isBase = false := by cases asked <;> rfl
    exact rebase _ he rfl split (both (quiets hquiet) (plain ht)) rfl
  | unlinked r next below he he' parted hm =>
    exact rebase [.reply (.ok [])] he rfl he' (plain rfl) rfl
  | resumed r next reply below he he' a =>
    rw [he] at h
    rw [he']
    show Marked ns ([] ++ .perform r (next reply) :: below)
    exact Marked.rebase (h : Marked ns ([Task.reply reply] ++ .resume r next :: below))
      (plain rfl) rfl nothing rfl
  | dropped reply below he hbelow he' a => exact swap [] he rfl he' nothing
  | unframed r command style failure below he he' a =>
    exact swap [.reply (.error failure)] he rfl he' (plain rfl)
  | framed r command watching below he he' added => exact swap [.attempt _] he rfl he' (plain rfl)
  | issued r command style t mid router below he he' issued added begun =>
    have ht : t.isBase = false := by cases issued <;> rfl
    refine swap _ he rfl he' ?_
    cases router.detached with
    | true => exact plain rfl
    | false => exact both (plain rfl) (plain ht)
  | retried w watching left router old below he he' begun =>
    refine swap _ he rfl he' ?_
    cases router.detached with
    | true => exact plain rfl
    | false => exact both (plain rfl) (plain rfl)
  | exhausted w below he he' a => exact swap [.reply (.error .timeout)] he rfl he' (plain rfl)
  | watched w deadline below he he' a => exact swap [.await w deadline] he rfl he' (plain rfl)
  | settled w t t' command below he ht he' hcommand hsettled a =>
    have hgone : t.isBase = false := by
      rcases ht with rfl | ⟨deadline, rfl⟩ <;> rfl
    have hnew : t'.isBase = false := by
      rcases hsettled with ⟨reply, rfl, -⟩ | ⟨rfl, -⟩ <;> rfl
    exact swap [t'] he hgone he' (plain hnew)
  | unclaimed w deadline below he he' a => exact swap [.claimed w] he rfl he' (plain rfl)
  | withdrawn w deadline mid old expired t tasks below he he' hquiet hfits ht hmem changed forced =>
    have split : e'.stack =
        (expired.toList.map (Task.expire w.router) ++ tasks ++ [t]) ++ below := by
      rw [he', List.append_assoc _ [_]]
      rfl
    have hnew : t.isBase = false := by
      rcases ht with rfl | ⟨rfl, -⟩ <;> rfl
    have hchores := chores (Task.isChore_withdrawn hquiet w.router expired)
    exact swap _ he rfl split (both hchores (plain hnew))
  | unregistered failure below he he' a => exact rebase [] he rfl he' nothing rfl
  | rooted linked t below he he' joined ht =>
    have hnew : t.isBase = true := by
      rcases ht with ⟨-, failure, rfl⟩ | ⟨-, settings, rfl⟩ <;> rfl
    exact rebase [] he rfl he' nothing hnew

/-- A call begins with a lowest task of its own, above what was there. -/
theorem Engine.Called.marked {call : Call} (k : Called e call e') (s : e.Sound)
    (h : Marked ns e.stack) : Marked (e.commands.length :: ns) e'.stack := by
  have older : ∀ t ∈ e.stack, ∀ c ∈ t.commands, c.index < e.commands.length :=
    fun t ht => (s.tasks t ht).2
  have based {t : Task} (tasks : List Task) (ht : t.isBase = true)
      (he' : e'.stack = tasks ++ t :: e.stack) (htasks : ∀ t ∈ tasks, t.isBase = false) :
      Marked (e.commands.length :: ns) e'.stack := by
    rw [he', marked_append htasks, marked_base ht]
    exact ⟨older, h⟩
  cases k with
  | answered result hresult he' a => exact based [] rfl he' (List.forall_mem_nil _)
  | operated r operation router settings hr he' a => exact based [] rfl he' (List.forall_mem_nil _)
  | attached parent route linked t he' joined ht =>
    have hnew : t.isBase = true := by
      rcases ht with ⟨-, failure, rfl⟩ | ⟨-, settings, rfl⟩ <;> rfl
    exact based [] hnew he' (List.forall_mem_nil _)
  | detached r expired mid rs tasks result he' hquiet hfits forced cut hempty =>
    exact based _ rfl he' fun t ht =>
      Task.isBase_of_chore (Task.isChore_detached hquiet expired t ht)

/-! ## Runs -/

theorem marked_opening (settings : Settings) : Marked (marks []) (opening settings).stack := by
  rcases stack_opening settings with hs | ⟨failure, hs⟩
  all_goals
    rw [hs, marked_base rfl]
    exact ⟨List.forall_mem_nil _, trivial⟩

/-- What is below each call in progress refers only to commands that were made before the call. -/
theorem Run.marked (h : Run settings turns e) : Marked (marks turns) e.stack := by
  induction h with
  | start => exact marked_opening settings
  | @next turns e e' m prior ha hm ih =>
    cases prior.moved ha hm with
    | inner hcall hcollect k =>
      have same : marks (⟨e, m, e'⟩ :: turns) = marks turns := by
        rw [marks, answer?_of_inner hcollect]
        split
        · rename_i call hm
          exact absurd hm (hcall call)
        · rfl
      rw [same]
      exact k.marked ih
    | called k => exact k.marked prior.sound ih
    | collected result below he he' a =>
      have same : marks (⟨e, .collect, e'⟩ :: turns) = (marks turns).tail := by
        simp [marks, Turn.answer?, he]
      rw [he, marked_base rfl] at ih
      rw [same, he']
      exact ih.2

/-- When the answer of a call is taken, nothing that is left refers to a command made in it. -/
theorem Run.older_of_collected {result : Outcome Answer} (h : Run settings turns e)
    (he : e.stack = .answer result :: below) :
    ∀ t ∈ below, ∀ c ∈ t.commands, c.index < (marks turns).headD 0 := by
  have hmarked := h.marked
  rw [he, marked_base rfl] at hmarked
  exact hmarked.1

end RouterFabric
