import RouterFabric.Proofs.Engine.Armed

/-!
# Callbacks run once

A transfer with a callback that comes to a good end has passed the callback on, and no other one
has. So the books balance throughout a run: the times a callback has returned, is running, or is
going to run are as many as the transfers that have passed it on. For a callback that only one call
uses this says that it runs at most once, never if the call failed, and that it has run as soon as
nothing is under way and its command is in no queue.

* `invocations` : how often a callback has been invoked
* `Run.balance` : the books of a run
* `Run.callback_once` : what becomes of the callback of a call
-/

namespace RouterFabric

open Engine

variable {settings : Settings} {turns : List Turn} {e e' : Engine} {m : Move} {tag : Nat}
  {standing standing' : List (Call × Progress)}

/-- Whether the call passes the callback on. -/
def Call.passes (tag : Nat) : Call → Bool
  | .operate _ (.transfer _ (.callback tag')) => tag' == tag
  | _ => false

theorem Call.passes_iff {call : Call} : call.passes tag = true ↔
    ∃ r t, call = .operate r (.transfer t (.callback tag)) := by
  constructor
  · intro h
    unfold Call.passes at h
    split at h
    · rename_i r t tag'
      rw [eq_of_beq h]
      exact ⟨r, t, rfl⟩
    · cases h
  · rintro ⟨r, t, rfl⟩
    exact beq_self_eq_true tag

/-- Whether the callback returns in a turn. -/
def Turn.ends (tag : Nat) (turn : Turn) : Bool :=
  match turn.move, turn.before.stack with
  | .back, task :: _ => task.runs tag
  | _, _ => false

/-- How often the callback has been invoked: the times it has returned, and those it is running. -/
def invocations (turns : List Turn) (e : Engine) (tag : Nat) : Nat :=
  turns.countP (Turn.ends tag) + e.stack.countP (Task.runs tag)

/-- Whether a call in progress has passed the callback on. -/
def accepted (tag : Nat) : Call × Progress → Bool
  | (call, .ended (.ok _)) => call.passes tag
  | _ => false

/-- Whether a call that has been answered has passed the callback on. -/
def granted (tag : Nat) : Call × Outcome Answer → Bool
  | (call, .ok _) => call.passes tag
  | _ => false

/-! ## The books -/

/-- The calls in progress and those that have been answered are the calls that were made. -/
theorem countP_calls {p : Call → Bool} (h : Run settings turns e)
    (hroot : p (.attachRoot settings) = false) :
    (openCalls settings turns).countP p + (returns settings turns).countP (fun call => p call.1) =
      (calls turns).countP p := by
  have books : ∃ standing, e.Stacked standing e.stack ∧
      standing.map (·.1) = openCalls settings turns ∧
      (standing.map (·.1)).countP p + (returns settings turns).countP (fun call => p call.1) =
        (calls turns).countP p := by
    refine Run.standing (P := fun turns _ standing => (standing.map (·.1)).countP p +
      (returns settings turns).countP (fun call => p call.1) = (calls turns).countP p)
      ?_ ?_ ?_ ?_ h
    · simp [returns, calls, hroot]
    · intro turns e m e' standing standing' _ _ hp hcollect hcall _ _ proceeds
      rw [proceeds.calls, returns_of_inner hcollect, calls_of_inner hcall, hp]
    · intro turns e call e' standing progress _ _ hp _ _
      rw [returns_of_called, List.map_cons, List.countP_cons]
      show _ = (call :: calls turns).countP p
      rw [List.countP_cons]
      simp only
      omega
    · intro turns e result below e' call progress standing _ hopen hp he _ _ _
      rw [returns_of_collected he hopen.symm, List.countP_cons]
      rw [List.map_cons, List.countP_cons] at hp
      show _ = (calls turns).countP p
      simp only at hp ⊢
      omega
  obtain ⟨standing, -, hopen, hp⟩ := books
  rw [← hopen]
  exact hp

/-- A call has passed the callback on if and only if its answer is a good one. -/
theorem granted_eq_accepted (tag : Nat) {call : Call} {progress : Progress}
    {result : Outcome Answer}
    (hresult : ∀ r t style, call = .operate r (.transfer t style) →
      ∃ reply, progress = .ended reply ∧ result = conclusion t style reply) :
    granted tag (call, result) = accepted tag (call, progress) := by
  cases hp : call.passes tag with
  | true =>
    obtain ⟨r, t, rfl⟩ := Call.passes_iff.1 hp
    obtain ⟨reply, rfl, rfl⟩ := hresult r t _ rfl
    cases reply <;> rfl
  | false =>
    have hgranted : granted tag (call, result) = false := by
      cases result with
      | ok answer => exact hp
      | error failure => rfl
    rw [hgranted]
    symm
    unfold accepted
    split
    · rename_i heq
      cases heq
      exact hp
    · rfl

theorem Engine.Proceeds.countP_accepted (p : e.Proceeds e' standing standing') (tag : Nat) :
    (e.Queues tag e' → standing'.countP (accepted tag) = standing.countP (accepted tag) + 1) ∧
      (¬ e.Queues tag e' → standing'.countP (accepted tag) = standing.countP (accepted tag)) := by
  cases p with
  | stays _ hq => exact ⟨fun q => absurd q (hq tag), fun _ => rfl⟩
  | goes call progress progress' outer hq hold hnew =>
    refine ⟨fun q => absurd q (hq tag), fun _ => ?_⟩
    have none (progress : Progress) (hp : ∀ ws, progress ≠ .ended (.ok ws)) :
        accepted tag (call, progress) = false := by
      unfold accepted
      split
      · rename_i heq
        cases heq
        exact absurd rfl (hp _)
      · rfl
    rw [List.countP_cons, List.countP_cons, none _ hold, none _ hnew]
  | learned r t style w reply command outer hq hstyle =>
    refine ⟨fun q => absurd q (hq tag), fun _ => ?_⟩
    have none (progress : Progress) :
        accepted tag (.operate r (.transfer t style), progress) = false := by
      cases style with
      | callback tag => exact absurd rfl (hstyle tag)
      | waiting | future => cases progress with
        | ended reply => cases reply <;> rfl
        | begun | framing | waiting => rfl
    rw [List.countP_cons, List.countP_cons, none, none]
  | queued r t tag' command below outer he hc hq =>
    rw [List.countP_cons, List.countP_cons]
    constructor
    · rintro ⟨_, _, _, _, _, he', -⟩
      rw [he] at he'
      cases he'
      have hnew : accepted tag (.operate r (.transfer t (.callback tag)), .ended (.ok [])) = true :=
        beq_self_eq_true tag
      rw [hnew]
      rfl
    · intro hother
      have hne : (tag' == tag) = false := by
        refine beq_eq_false_iff_ne.2 fun heq => hother ?_
        exact heq ▸ hq
      have hnew :
          accepted tag (.operate r (.transfer t (.callback tag')), .ended (.ok [])) = false :=
        hne
      rw [hnew]
      rfl

/-- A turn at which no callback returns is counted as none. -/
theorem ends_eq_false
    (hback : m = .back → ∀ tag reply below, e.stack ≠ .notify tag reply :: below) :
    Turn.ends tag ⟨e, m, e'⟩ = false := by
  unfold Turn.ends
  split
  · rename_i task below hm hs
    cases task with
    | notify tag' reply => exact absurd hs (hback hm tag' reply below)
    | _ => rfl
  · rfl

/-- When a callback returns, it is counted among those that have, and is due no more. -/
theorem due_of_back (tag : Nat) {tag' : Nat} {reply : Reply} {below : List Task}
    (hm : e.move? .back = some e') (hs : e.stack = .notify tag' reply :: below) :
    (if Turn.ends tag ⟨e, .back, e'⟩ then 1 else 0) + e'.due tag = e.due tag ∧
      e'.armed tag ⊆ e.armed tag := by
  have hpop : e' = { e with stack := below } := by
    have hm : e.returned? = some e' := hm
    unfold returned? at hm
    rw [hs] at hm
    exact (Option.some.inj hm).symm
  subst hpop
  have harmed : ({ e with stack := below } : Engine).armed tag = e.armed tag := by
    ext c
    show _ ∧ (_ ∨ ∃ r, Task.expire r c ∈ below) ↔ _ ∧ (_ ∨ ∃ r, Task.expire r c ∈ e.stack)
    rw [hs]
    simp only [List.mem_cons, reduceCtorEq, false_or]
    exact Iff.rfl
  refine ⟨?_, harmed.subset⟩
  have hends : Turn.ends tag ⟨e, .back, { e with stack := below }⟩ = (tag' == tag) := by
    unfold Turn.ends
    simp only [hs]
    rfl
  unfold due
  rw [harmed, hends, hs, List.countP_cons]
  show _ + (below.countP _ + _) = below.countP _ + (if (tag' == tag) = true then 1 else 0) + _
  omega

theorem armed_opening (settings : Settings) (tag : Nat) : (opening settings).armed tag = ∅ := by
  refine Set.eq_empty_iff_forall_notMem.2 fun c hc => ?_
  obtain ⟨⟨command, hcommand, -⟩, -⟩ := hc
  rw [command?_opening] at hcommand
  cases hcommand

/-- **The books of a run balance.** A callback has returned, is running or is going to run as often
as it has been passed on. -/
theorem Run.balance (h : Run settings turns e) (tag : Nat) :
    ∃ standing, e.Stacked standing e.stack ∧ standing.map (·.1) = openCalls settings turns ∧
      turns.countP (Turn.ends tag) + e.due tag =
        standing.countP (accepted tag) + (returns settings turns).countP (granted tag) := by
  refine Run.standing (P := fun turns e standing => turns.countP (Turn.ends tag) + e.due tag =
    standing.countP (accepted tag) + (returns settings turns).countP (granted tag)) ?_ ?_ ?_ ?_ h
  · have hruns : (opening settings).stack.countP (Task.runs tag) = 0 := by
      rcases stack_opening settings with hs | ⟨failure, hs⟩ <;> rw [hs] <;> rfl
    unfold due
    rw [armed_opening, hruns, Set.ncard_empty]
    rfl
  · intro turns e m e' standing standing' prior _ hbooks hcollect hcall hm k proceeds
    obtain ⟨hqueued, hkept⟩ := proceeds.countP_accepted tag
    rw [returns_of_inner hcollect, List.countP_cons]
    by_cases hback : m = .back ∧ ∃ tag reply below, e.stack = .notify tag reply :: below
    · obtain ⟨rfl, tag', reply, below, hs⟩ := hback
      obtain ⟨hdue, -⟩ := due_of_back tag hm hs
      rw [hkept (not_queues_of_head e' hs (by simp) tag)]
      omega
    · have hnot : m = .back → ∀ tag reply below, e.stack ≠ .notify tag reply :: below :=
        fun hm tag reply below hs => hback ⟨hm, tag, reply, below, hs⟩
      rw [ends_eq_false hnot]
      by_cases hq : e.Queues tag e'
      · rw [hqueued hq, hq.owes.1]
        simp only [Bool.false_eq_true, if_false]
        omega
      · rw [hkept hq, (prior.sound.owes_inner k hq hnot).due]
        simp only [Bool.false_eq_true, if_false]
        omega
  · intro turns e call e' standing progress prior _ hbooks k hprogress
    have hnone : accepted tag (call, progress) = false := by
      unfold accepted
      split
      · rename_i heq
        cases heq
        exact absurd rfl (hprogress _)
      · rfl
    have hends : Turn.ends tag ⟨e, .call call, e'⟩ = false := rfl
    rw [returns_of_called, List.countP_cons, List.countP_cons, hends, hnone,
      (prior.sound.owes_called k).due]
    simp only [Bool.false_eq_true, if_false]
    omega
  · intro turns e result below e' call progress standing prior hopen hbooks he he' a hresult
    have hsame := granted_eq_accepted tag hresult
    have hends : Turn.ends tag ⟨e, .collect, e'⟩ = false := rfl
    have s : e.Hushed e' := hushed [.answer result] [] he he' (by simp [Task.isSilent]) (by simp)
    rw [List.countP_cons] at hbooks
    rw [returns_of_collected he hopen.symm, List.countP_cons, List.countP_cons,
      hends, (a.owes s).due, hsame]
    simp only [Bool.false_eq_true, if_false]
    omega

/-! ## Whose commands they are -/

/-- A command that a callback listens to was made for a call that passes the callback on. -/
def Engine.Meant (e : Engine) (turns : List Turn) (tag : Nat) (c : CommandRef) : Prop :=
  ∃ r t command, .operate r (.transfer t (.callback tag)) ∈ calls turns ∧
    e.command? c = some command ∧ e.Carries r t command

theorem Engine.Meant.mono {turns' : List Turn} {c : CommandRef} (h : e.Meant turns tag c)
    (x : e.Extends e') (hcalls : ∀ call ∈ calls turns, call ∈ calls turns') :
    e'.Meant turns' tag c := by
  obtain ⟨r, t, command, hcall, hc, hcarries⟩ := h
  obtain ⟨command', hc', hm, -⟩ := x.commands c command hc
  exact ⟨r, t, command', hcalls _ hcall, hc', hcarries.mono x hm⟩

theorem mem_calls_of_open (h : Run settings turns e) :
    ∀ call ∈ openCalls settings turns, call = .attachRoot settings ∨ call ∈ calls turns := by
  intro call hcall
  classical
  by_cases hroot : call = .attachRoot settings
  · exact .inl hroot
  · have hcount := countP_calls (p := fun c => decide (c = call)) h
      (decide_eq_false fun heq => hroot heq.symm)
    have hpos : 0 < (openCalls settings turns).countP fun c => decide (c = call) :=
      List.countP_pos_iff.2 ⟨call, hcall, decide_eq_true rfl⟩
    have hmade : 0 < (calls turns).countP fun c => decide (c = call) := by omega
    obtain ⟨c, hc, heq⟩ := List.countP_pos_iff.1 hmade
    exact .inr (of_decide_eq_true heq ▸ hc)

theorem mem_calls_of_returned {result : Outcome Answer} {call : Call} (h : Run settings turns e)
    (hret : (call, result) ∈ returns settings turns) (hroot : call ≠ .attachRoot settings) :
    call ∈ calls turns := by
  have hcount := countP_calls (p := fun c => decide (c = call)) h
    (decide_eq_false fun heq => hroot heq.symm)
  have hpos : 0 < (returns settings turns).countP fun c => decide (c.1 = call) :=
    List.countP_pos_iff.2 ⟨_, hret, decide_eq_true rfl⟩
  have hmade : 0 < (calls turns).countP fun c => decide (c = call) := by omega
  obtain ⟨c, hc, heq⟩ := List.countP_pos_iff.1 hmade
  exact of_decide_eq_true heq ▸ hc

/-- Whatever is going to be told to a callback comes from a command of a call that passes it on. -/
theorem Run.meant (h : Run settings turns e) (tag : Nat) :
    ∀ c ∈ e.armed tag, e.Meant turns tag c := by
  have books : ∃ standing, e.Stacked standing e.stack ∧
      standing.map (·.1) = openCalls settings turns ∧ ∀ c ∈ e.armed tag, e.Meant turns tag c := by
    refine Run.standing (P := fun turns e _ => ∀ c ∈ e.armed tag, e.Meant turns tag c) ?_ ?_ ?_ ?_ h
    · intro c hc
      rw [armed_opening] at hc
      cases hc
    · intro turns e m e' standing standing' prior hopen hmeant hcollect hcall hm k proceeds c hc
      have x := prior.sound.extends_inner k
      have hcalls : ∀ call ∈ calls turns, call ∈ calls (⟨e, m, e'⟩ :: turns) := by
        intro call hc
        rw [calls_of_inner hcall]
        exact hc
      by_cases hback : m = .back ∧ ∃ tag reply below, e.stack = .notify tag reply :: below
      · obtain ⟨rfl, tag', reply, below, hs⟩ := hback
        exact (hmeant c ((due_of_back tag hm hs).2 hc)).mono x hcalls
      · have hnot : m = .back → ∀ tag reply below, e.stack ≠ .notify tag reply :: below :=
          fun hm tag reply below hs => hback ⟨hm, tag, reply, below, hs⟩
        by_cases hq : e.Queues tag e'
        · rw [hq.owes.2] at hc
          rcases hc with rfl | hc
          · cases proceeds with
            | stays _ hnone => exact absurd hq (hnone tag)
            | goes _ _ _ _ hnone => exact absurd hq (hnone tag)
            | learned _ _ _ _ _ _ _ hnone => exact absurd hq (hnone tag)
            | queued r' t tag' command' below' outer htop hcarries =>
              obtain ⟨r, command, below, mid, router, he, he', hd, added, begun⟩ := hq
              rw [he] at htop
              cases htop
              obtain ⟨new, hnew, hsub, -⟩ := begun.after
              refine ⟨r', t, new, hcalls _ ?_, hnew,
                hcarries.mono x ((Command.made_of_substance hsub).trans rfl)⟩
              have hmem : (.operate r' (.transfer t (.callback tag)) : Call) ∈
                  openCalls settings turns := hopen ▸ List.mem_cons_self
              exact (mem_calls_of_open prior _ hmem).resolve_left nofun
          · exact (hmeant c hc).mono x hcalls
        · exact (hmeant c ((prior.sound.owes_inner k hq hnot).armed hc)).mono x hcalls
    · intro turns e call e' standing progress prior _ hmeant k _ c hc
      exact (hmeant c ((prior.sound.owes_called k).armed hc)).mono (prior.sound.extends_called k)
        fun _ => List.mem_cons_of_mem call
    · intro turns e result below e' call progress standing _ _ hmeant he he' a _ c hc
      have s : e.Hushed e' := hushed [.answer result] [] he he' (by simp [Task.isSilent]) (by simp)
      exact (hmeant c ((a.owes s).armed hc)).mono a.extends fun _ => id
  obtain ⟨-, -, -, hmeant⟩ := books
  exact hmeant

/-! ## What becomes of a callback -/

/-- The command of a transfer with a callback holds the slot of the router or is in its line. -/
def Engine.Awaits (e : Engine) (r : RouterRef) (t : Transfer) (tag : Nat) : Prop :=
  ∃ c command, ((e.queue r).slot = some c ∨ c ∈ (e.queue r).pending) ∧
    e.command? c = some command ∧ command.listener = .callback tag ∧ command.kind = t.kind ∧
    t.address = .ok command.address

theorem eq_of_countP_le_one {α : Type} {p : α → Bool} {l : List α} (h : l.countP p ≤ 1) {a b : α}
    (ha : a ∈ l) (hb : b ∈ l) (hpa : p a = true) (hpb : p b = true) : a = b := by
  induction l with
  | nil => cases ha
  | cons x l ih =>
    rw [List.countP_cons] at h
    have hnone (y : α) (hx : p x = true) (hy : p y = true) : y ∉ l := by
      intro hmem
      have hpos := List.countP_pos_iff.2 ⟨y, hmem, hy⟩
      rw [if_pos hx] at h
      omega
    rcases List.mem_cons.1 ha with hax | hal
    · rcases List.mem_cons.1 hb with hbx | hbl
      · exact hax.trans hbx.symm
      · exact absurd hbl (hnone b (hax ▸ hpa) hpb)
    · rcases List.mem_cons.1 hb with hbx | hbl
      · exact absurd hal (hnone a (hbx ▸ hpb) hpa)
      · exact ih (by omega) hal hbl

theorem countP_lt_of_mem {α : Type} {p q : α → Bool} {l : List α} (h : ∀ x ∈ l, p x → q x) {a : α}
    (ha : a ∈ l) (hp : p a = false) (hq : q a = true) : l.countP p < l.countP q := by
  induction l with
  | nil => cases ha
  | cons x l ih =>
    have hrest : ∀ y ∈ l, p y → q y := fun y hy => h y (List.mem_cons_of_mem x hy)
    rw [List.countP_cons, List.countP_cons]
    rcases List.mem_cons.1 ha with rfl | hmem
    · have hle := List.countP_mono_left hrest
      rw [hp, hq]
      simp only [Bool.false_eq_true, if_false, if_true]
      omega
    · have hlt := ih hrest hmem
      have hx := h x List.mem_cons_self
      split
      · rename_i hpx
        rw [if_pos (hx hpx)]
        omega
      · omega

/-- At rest, what a callback that only one call uses waits for is in the queue of its router. -/
theorem Run.awaits_iff {r : RouterRef} {t : Transfer} (h : Run settings turns e)
    (hone : (calls turns).countP (Call.passes tag) ≤ 1)
    (hcall : .operate r (.transfer t (.callback tag)) ∈ calls turns)
    (hrest : openCalls settings turns = []) : e.Awaits r t tag ↔ (e.armed tag).ncard ≠ 0 := by
  have hfinite := e.armed_finite tag
  constructor
  · rintro ⟨c, command, hqueue, hc, hl, -⟩
    have hqueued : e.Queued c := ⟨r, Queue.mem_members.2 hqueue⟩
    have hmem : c ∈ e.armed tag := ⟨⟨command, hc, hl⟩, .inl hqueued⟩
    intro hzero
    rw [Set.ncard_eq_zero hfinite] at hzero
    rw [hzero] at hmem
    cases hmem
  · intro hcard
    obtain ⟨c, hmem⟩ := Set.nonempty_of_ncard_ne_zero hcard
    obtain ⟨r', t', command, hcall', hc, hcarries⟩ := h.meant tag c hmem
    -- only one call uses the callback, so the command is of this call
    have hsame := eq_of_countP_le_one hone hcall' hcall (Call.passes_iff.2 ⟨r', t', rfl⟩)
      (Call.passes_iff.2 ⟨r, t, rfl⟩)
    cases hsame
    obtain ⟨⟨command', hc', hl⟩, hlives⟩ := hmem
    rw [hc] at hc'
    cases hc'
    -- nothing is about to end, for that is work of a call
    obtain ⟨standing, hstacked, hopen, -⟩ := h.balance tag
    have hnone : standing = [] := List.map_eq_nil_iff.1 (hopen.trans hrest)
    subst hnone
    have hqueued : e.Queued c := by
      rcases hlives with hq | ⟨r'', hexpire⟩
      · exact hq
      · cases hstacked.loose _ hexpire
    obtain ⟨r'', hmember⟩ := hqueued
    obtain ⟨command'', hc'', ⟨hnode, -⟩, -⟩ := h.sound.toStored.members r'' c hmember
    rw [hc] at hc''
    cases hc''
    have hrouter : r'' = r := by
      rw [ref_eq_iff]
      exact congrArg (·.number) (hnode.symm.trans hcarries.1.1)
    rw [hrouter] at hmember
    exact ⟨c, command, Queue.mem_members.1 hmember, hc, hl, hcarries.2⟩

/-- **A callback runs once, or its command waits.** If the call has failed, its callback is never
invoked. If it has succeeded, the callback is invoked at most once; and whenever no call is in
progress, either it has been invoked or the command is in its router's slot or line. -/
theorem Run.callback_once {r : RouterRef} {t : Transfer} {result : Outcome Answer}
    (h : Run settings turns e) (hone : (calls turns).countP (Call.passes tag) ≤ 1)
    (hret : (.operate r (.transfer t (.callback tag)), result) ∈ returns settings turns) :
    (∀ failure, result = .error failure → invocations turns e tag = 0) ∧
      ∀ answer, result = .ok answer → invocations turns e tag ≤ 1 ∧
        (openCalls settings turns = [] →
          (invocations turns e tag = 1 ∧ ¬ e.Awaits r t tag) ∨
          (invocations turns e tag = 0 ∧ e.Awaits r t tag)) := by
  obtain ⟨standing, hstacked, hopen, hbooks⟩ := h.balance tag
  have hpasses : Call.passes tag (.operate r (.transfer t (.callback tag))) = true :=
    Call.passes_iff.2 ⟨r, t, rfl⟩
  have hinvoked : invocations turns e tag + (e.armed tag).ncard =
      standing.countP (accepted tag) + (returns settings turns).countP (granted tag) := by
    rw [← hbooks]
    unfold invocations due
    omega
  -- at most one call uses the callback, in progress or answered
  have hcalls := countP_calls (p := Call.passes tag) h rfl
  have hstanding : standing.countP (accepted tag) ≤
      (openCalls settings turns).countP (Call.passes tag) := by
    rw [← hopen, List.countP_map]
    refine List.countP_mono_left fun entry _ haccepted => ?_
    unfold accepted at haccepted
    split at haccepted
    · exact haccepted
    · cases haccepted
  have hgranted :
      ∀ entry ∈ returns settings turns, granted tag entry → Call.passes tag entry.1 := by
    intro entry _ haccepted
    unfold granted at haccepted
    split at haccepted
    · exact haccepted
    · cases haccepted
  refine ⟨fun failure herror => ?_, fun answer hok => ?_⟩
  · subst herror
    have hless := countP_lt_of_mem hgranted hret rfl hpasses
    omega
  · subst hok
    have hpos : 0 < (returns settings turns).countP (granted tag) :=
      List.countP_pos_iff.2 ⟨_, hret, hpasses⟩
    have hmost := List.countP_mono_left hgranted
    refine ⟨by omega, fun hrest => ?_⟩
    have hcall := mem_calls_of_returned h hret nofun
    rw [h.awaits_iff hone hcall hrest]
    omega

/-- A word is read from the host router with a callback, which is told of the answer. -/
def callbackMoves : List Move :=
  hostMoves hostWords ++
  ([.call (.operate ⟨0⟩ (.transfer (.read .router 0 64 1) (.callback 7))), .proceed,
    .grant (.ok ()), .proceed, .grant (.ok ()), .proceed, .proceed, .proceed, .collect,
    .receive (.sent (some (.command ⟨0⟩ ⟨2⟩ 1))), .collect,
    .receive (.received .read .read
      (ReadResponse.encode ⟨Route.root, ⟨.router, 0, 64, 1, 1⟩, [5]⟩)),
    .back, .proceed, .proceed, .proceed, .proceed, .collect] : List Move)

/-- The callback has run, and its command waits no more. -/
theorem callback_runs : ∃ turns e, Run {} turns e ∧ invocations turns e 7 = 1 ∧
    ¬ e.Awaits ⟨0⟩ (.read .router 0 64 1) 7 := by
  have played : (replay? {} callbackMoves.reverse).any (fun (turns, e) =>
      decide ((calls turns).countP (Call.passes 7) ≤ 1) &&
      decide ((.operate ⟨0⟩ (.transfer (.read .router 0 64 1) (.callback 7)), .ok .nothing) ∈
        returns {} turns) &&
      decide (openCalls {} turns = []) && decide (invocations turns e 7 = 1)) = true := by
    decide +kernel
  obtain ⟨turns, e, run, hcheck⟩ := exists_of_replay? played
  simp only [Bool.and_eq_true, decide_eq_true_eq] at hcheck
  obtain ⟨⟨⟨hone, hret⟩, hrest⟩, hinvoked⟩ := hcheck
  obtain ⟨-, hgood⟩ := run.callback_once hone hret
  rcases (hgood _ rfl).2 hrest with ⟨-, hawaits⟩ | ⟨hzero, -⟩
  · exact ⟨turns, e, run, hinvoked, hawaits⟩
  · omega

end RouterFabric
