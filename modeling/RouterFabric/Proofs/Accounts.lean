import Mathlib.Algebra.Ring.Nat
import RouterFabric.Proofs.Crowds
import RouterFabric.Proofs.Engine.Books
import RouterFabric.Proofs.Engine.Flow

/-!
# Every attempt and every request is counted

Any number of callers use a topology. An attempt may end while another caller is handing its request
to the transport: by a signal, by its own caller giving up, by a caller that waits behind it, or by
a detachment; and each of these counts it in another place. Still no attempt is counted twice and
none is missed. What every turn posts to the account of a router agrees with what is seen of the
turn, and so the counters agree with what is seen of all turns.

* `Turn.sight` : the attempts and requests of a router that are seen in a turn
* `Engine.Sound.posts` : what every turn posts to the account of a router
* `Accounted` : the counters of a router agree with what was seen of it
* `Crowd.accounts` : they always do
-/

namespace RouterFabric

open Engine

/-! ## What is seen of a run -/

namespace Turn

variable (turn : Turn) (r : RouterRef)

/-- The number of attempts that enter the queue of a router in a turn. -/
def entered : Nat :=
  (turn.after.queue r).members.countP (· ∉ (turn.before.queue r).members)

/-- The number of requests of a router that are handed to the transport in a turn. -/
def handed : Nat :=
  turn.offers?.toList.countP fun offered => offered.1 = r

/-- The request that the transport refuses in a turn, other than for want of capacity. -/
def refusal? : Option (RouterRef × CommandRef × TransportFault) :=
  match turn.move, turn.before.stack with
  | .grant (.error fault), .offer r c :: _ => if fault = .busy then none else some (r, c, fault)
  | _, _ => none

/-- The number of requests of a router that are refused in a turn. -/
def refused : Nat :=
  turn.refusal?.toList.countP fun refusal => refusal.1 = r

/-- The number of attempts on a router that end in a turn because their request is refused. -/
def failed : Nat :=
  turn.refusal?.toList.countP fun (r', c, fault) =>
    r' = r ∧ c ∈ (turn.before.queue r).members ∧ c ∉ (turn.after.queue r).members ∧
      (turn.after.command? c).any (·.ending = some (.refused fault))

/-- What is seen of a router in a turn. -/
def sight : Sight where
  entered := turn.entered r
  handed := turn.handed r
  refused := turn.refused r
  failed := turn.failed r

end Turn

theorem Turn.offers?_of_handed {turn : Turn} {r : RouterRef} (h : turn.handed r ≠ 0) :
    ∃ c command, turn.offers? = some (r, c, command) := by
  unfold Turn.handed at h
  cases ho : turn.offers? with
  | none =>
    rw [ho] at h
    exact absurd rfl h
  | some offered =>
    obtain ⟨r', c, command⟩ := offered
    rw [ho] at h
    have same : r' = r := by
      by_contra other
      exact h (by simp [other])
    exact ⟨c, command, by rw [same]⟩

/-- The number of attempts that ever entered the queue of a router. -/
def entries (turns : List Turn) (r : RouterRef) : Nat :=
  (turns.map (·.entered r)).sum

/-- The number of requests of a router that were ever handed to the transport. -/
def requests (turns : List Turn) (r : RouterRef) : Nat :=
  (handed turns).countP (·.router = r)

/-- The number of requests of a router that the transport refused. -/
def refusals (turns : List Turn) (r : RouterRef) : Nat :=
  (turns.map (·.refused r)).sum

/-- The number of attempts on a router that ended because their request was refused. -/
def failures (turns : List Turn) (r : RouterRef) : Nat :=
  (turns.map (·.failed r)).sum

variable {settings : Settings} {turns : List Turn} {e e' rest : Engine} {m : Move}
  {r x : RouterRef} {router : Router} {c : CommandRef} {t : Task} {w : Waiter}
  {below stack : List Task} {others : List (List Task)} {a b : Account} {s : Sight}

/-! ## What a move posts -/

namespace Engine

/-- A caller has nothing under way for routers that are not there. -/
def Staffed (e : Engine) (stack : List Task) : Prop :=
  ∀ r, e.router? r = none →
    stack.countP (Task.expires r) = 0 ∧ stack.countP (Task.offers r) = 0

/-- A router that is not there has an account with nothing in it. -/
theorem Staffed.account (h : e.Staffed e.stack) (hr : e.router? r = none) : e.account r = {} := by
  obtain ⟨hexpires, hoffers⟩ := h r hr
  unfold Engine.account
  rw [hr, queue_of_none hr, hexpires, hoffers]
  rfl

theorem Staffed.mono (h : e.Staffed stack) (x : e.Extends e') : e'.Staffed stack := by
  refine fun r hr' => h r ?_
  cases hr : e.router? r with
  | none => rfl
  | some router =>
    obtain ⟨router', hr, -⟩ := x.routers r router hr
    cases hr'.symm.trans hr

/-- Something has happened to the accounts, but no request was refused. -/
def Unrefused (e e' : Engine) : Prop :=
  ∀ r, ∃ s, Posted (e.account r) s (e'.account r) ∧ s.refused = 0 ∧ s.failed = 0

theorem Unseen.unrefused (u : e.Unseen e') : e.Unrefused e' :=
  fun r => ⟨_, u r, rfl, rfl⟩

theorem Level.unrefused (l : e.Level e') : e.Unrefused e' :=
  l.unseen.unrefused

theorem Books.unrefused (k : e.Books e' r a) (p : Posted (e.account r) s a)
    (hrefused : s.refused = 0) (hfailed : s.failed = 0) : e.Unrefused e' := by
  refine fun x => ⟨_, k.posted p x, ?_⟩
  split
  · exact ⟨hrefused, hfailed⟩
  · exact ⟨rfl, rfl⟩

theorem Level.trans_unrefused (l : e.Level rest) (u : rest.Unrefused e') : e.Unrefused e' :=
  fun r => l r ▸ u r

/-- A change of one account, seen from another state of the same account. -/
theorem Books.replace (k : rest.Books e r b) (k' : rest.Books e' r a) : e.Books e' r a := by
  intro x
  rw [k', k]
  split <;> rfl

theorem unrefused_launch {mid : Engine} (hmid : e.Level mid) (hr : mid.router? r = some router)
    (c : CommandRef) (next : List Task) (hnext : ∀ t ∈ next, t.isBooked = false) :
    e.Unrefused (mid.launch r c next) := by
  rcases books_launch hr c next hnext with level | entered
  · exact (hmid.trans level).unrefused
  · exact hmid.trans_unrefused (entered.unrefused (.entered _) rfl rfl)

theorem Sound.unrefused_retry (h : e.Sound) (hs : e.stack = .attempt w :: below) :
    e.Unrefused (({ e with stack := below } : Engine).retry w) := by
  obtain ⟨⟨⟨hk, -⟩, -⟩, -⟩ := h.tasks (.attempt w) (by rw [hs]; exact List.mem_cons_self)
  obtain ⟨router, hr⟩ := router_of_known h.toStored hk
  have popped := level_pop hs rfl
  unfold retry
  split
  · exact (popped.push _ (by simp)).unrefused
  · exact unrefused_launch popped hr w.command _ (by simp)
  · exact unrefused_launch popped hr w.command _ (by simp)

theorem Sound.unrefused_drain (h : e.Sound) (hs : e.stack = .drain r :: below) :
    e.Unrefused (({ e with stack := below } : Engine).drain r) := by
  have popped := level_pop hs rfl
  have hpop : e.stack = [Task.drain r] ++ below := hs
  rcases (h.pop hpop).toStored.books_drain r with level | handed
  · exact (popped.trans level).unrefused
  · exact popped.trans_unrefused (handed.unrefused (.handed _) rfl rfl)

/-- An attempt that was taken out of its slot ends, and is counted. -/
theorem Staffed.unrefused_expire (hv : e.Staffed e.stack) (hs : e.stack = .expire r c :: below)
    (ending : Ending) : e.Unrefused
      (((({ e with stack := below } : Engine).count r fun stats =>
        { stats with timeouts := stats.timeouts + 1 }).push [.hold [r] [c]]).finish c ending) := by
  have before := account_expire hs
  have hsome : (({ e with stack := below } : Engine).router? r).isSome := by
    rw [Option.isSome_iff_ne_none]
    intro hnone
    have vacant := before.on
    rw [hv.account hnone] at vacant
    exact Nat.succ_ne_zero _ (congrArg Account.expiring vacant).symm
  have counted := ((account_count hsome fun stats =>
    { stats with timeouts := stats.timeouts + 1 }).push [.hold [r] [c]]
      (by simp)).level (level_finish _ c ending)
  refine (before.replace counted).unrefused (s := {}) ?_ rfl rfl
  rw [before.on]
  exact .expired rfl

theorem Staffed.isSome_of_offer (hv : e.Staffed e.stack) (hs : e.stack = .offer r c :: below) :
    (({ e with stack := below } : Engine).router? r).isSome := by
  rw [Option.isSome_iff_ne_none]
  intro hnone
  have vacant := (account_offer hs).on
  rw [hv.account hnone] at vacant
  exact Nat.succ_ne_zero _ (congrArg Account.offered vacant).symm

/-- The transport accepts a request, or has no capacity for it. -/
theorem Staffed.unrefused_offer (hv : e.Staffed e.stack) (hs : e.stack = .offer r c :: below)
    {answer : Except TransportFault Unit} (ha : answer = .ok () ∨ answer = .error .busy) :
    e.Unrefused (({ e with stack := below } : Engine).answerOffer r c answer) := by
  have hsome := hv.isSome_of_offer hs
  have before := account_offer hs
  rcases ha with rfl | rfl
  · refine (before.replace (books_accepted hsome c)).unrefused (s := {}) ?_ rfl rfl
    rw [before.on]
    exact .accepted rfl
  · refine (before.replace (books_deferred hsome c)).unrefused (s := {}) ?_ rfl rfl
    rw [before.on]
    exact .deferred rfl

/-- A command that has its frame. -/
theorem Sound.unrefused_begin {style : Style} {command : Command} (h : e.Sound)
    (hs : e.stack = .allocate r command style :: below) :
    e.Unrefused (({ e with stack := below } : Engine).begin r command style) := by
  obtain ⟨⟨hk, -⟩, -⟩ := h.tasks (.allocate r command style) (by rw [hs]; exact List.mem_cons_self)
  obtain ⟨router, hr⟩ := router_of_known h.toStored hk
  have popped := level_pop hs rfl
  unfold Engine.begin
  cases style with
  | waiting watching =>
    have added : e.Level { e with stack := below, commands := _ } := popped
    exact (added.push _ (by simp)).unrefused
  | callback tag =>
    have added : e.Level { e with
        stack := below
        commands := (e.commands.add { command with listener := .callback tag }).2 } := popped
    exact unrefused_launch added hr _ _ (by simp)
  | future =>
    have added : e.Level { e with
        stack := below
        commands := (e.commands.add { command with listener := .future none }).2 } := popped
    exact unrefused_launch added hr _ _ (by simp)

/-- A caller's attempt is given up, or it has been claimed in the meantime. -/
theorem Sound.unrefused_withdraw {deadline : Nat} (h : e.Sound)
    (hs : e.stack = .await w deadline :: below) :
    e.Unrefused (({ e with stack := below } : Engine).withdraw w) := by
  obtain ⟨hattends, -⟩ := h.tasks (.await w deadline) (by rw [hs]; exact List.mem_cons_self)
  obtain ⟨router, hr⟩ := router_of_known h.toStored hattends.1
  have withdrawn : ({ e with stack := below } : Engine).Unseen _ := unseen_withdraw hr
  exact ((level_pop hs rfl).trans_unseen withdrawn).unrefused

theorem unrefused_called {call : Call} (ha : e.Allows call) : e.Unrefused (e.call call) := by
  cases call with
  | attachRoot settings => exact ha.elim
  | attachChild parent route => exact (e.level_attachChild parent route).unrefused
  | detach r => exact (e.unseen_detach r).unrefused
  | resume r => exact (e.level_resume r).unrefused
  | operate r operation => exact (e.level_operate r operation).unrefused

/-- A move that is no refusal posts nothing of a refusal. -/
theorem Sound.unrefused (h : e.Sound) (hv : e.Staffed e.stack)
    (ha : ∀ call, m = .call call → e.Allows call) (hm : e.move? m = some e')
    (hno : (Turn.mk e m e').refusal? = none) : e.Unrefused e' := by
  cases acts_of_move? hm with
  | dropped hs hd => exact (level_pop hs (by cases hd <;> rfl)).unrefused
  | concluded hs => exact ((level_pop hs rfl).push _ (by simp)).unrefused
  | asked hs =>
    exact (((level_pop hs rfl).push _ (by simp)).trans (level_meet _ _ _)).unrefused
  | replied hs => exact ((level_pop hs rfl).trans (level_passOn _ _)).unrefused
  | retried hs => exact h.unrefused_retry hs
  | watched hs => exact ((level_pop hs rfl).push _ (by simp)).unrefused
  | settled hs ht hsettle =>
    refine ((level_pop hs ?_).trans (level_settle? hsettle)).unrefused
    rcases ht with rfl | ⟨deadline, rfl⟩ <;> rfl
  | drained hs => exact h.unrefused_drain hs
  | kicked hs => exact ((level_pop hs rfl).trans (level_kick _)).unrefused
  | toured hs => exact ((level_pop hs rfl).trans (level_drainFirst _ _)).unrefused
  | expired hs => exact hv.unrefused_expire hs .expired
  | announced hs | acknowledged hs => exact Level.unrefused fun x => level_pop hs rfl x
  | framed hs => exact h.unrefused_begin hs
  | unframed hs | unregistered hs | acknowledging hs =>
    exact ((level_pop hs rfl).push _ (by simp)).unrefused
  | @answered r c answer below hs =>
    refine hv.unrefused_offer hs ?_
    cases answer with
    | ok done => exact .inl rfl
    | error fault =>
      right
      simp only [Turn.refusal?, hs] at hno
      split at hno
      · rename_i hbusy
        rw [hbusy]
      · cases hno
  | registered hs => exact ((level_pop hs rfl).trans (level_linkRoot _)).unrefused
  | gaveUp hs => exact h.unrefused_withdraw hs
  | collected hs => exact (level_pop hs rfl).unrefused
  | called call => exact unrefused_called (ha call rfl)
  | received arrival => exact (e.unseen_receive arrival).unrefused
  | elapsed ms => exact Level.unrefused fun _ => rfl

/-- What a refusal is. -/
theorem refusal?_eq_some {fault : TransportFault}
    (h : (Turn.mk e m e').refusal? = some (r, c, fault)) (hm : e.move? m = some e') :
    fault ≠ .busy ∧ ∃ below, e.stack = .offer r c :: below ∧
      e' = ({ e with stack := below } : Engine).answerOffer r c (.error fault) := by
  unfold Turn.refusal? at h
  split at h
  · rename_i fault' r' c' below hmove hs
    split at h
    · cases h
    · rename_i hbusy
      cases h
      have hmove : m = .grant (.error fault) := hmove
      subst hmove
      have hg : e.granted? (.error fault) = some e' := hm
      have hs : e.stack = .offer r c :: below := hs
      unfold granted? at hg
      rw [hs] at hg
      exact ⟨hbusy, below, hs, (Option.some.inj hg).symm⟩
  · cases h

theorem Stored.members_answerOffer_refused (h : e.Stored) (hs : (e.queue r).slot = some c)
    {fault : TransportFault} (hf : fault ≠ .busy) :
    c ∉ ((e.answerOffer r c (.error fault)).queue r).members := by
  cases hr : e.router? r with
  | none =>
    rw [queue_of_none hr] at hs
    cases hs
  | some router =>
    obtain ⟨requeued, -⟩ := answerOffer_error hr c hf
    rw [requeued.on, Queue.reject_eq, if_pos hs, Queue.members_release]
    exact (h.orderly r).not_mem_pending hs

/-- An attempt whose request is refused leaves the queue and ends, if it still holds the slot. -/
theorem Sound.failed_eq {fault : TransportFault} (h : e.Sound)
    (hrefusal : (Turn.mk e m e').refusal? = some (r, c, fault)) (hm : e.move? m = some e')
    (x : RouterRef) :
    (Turn.mk e m e').failed x = if r = x ∧ (e.queue r).slot = some c then 1 else 0 := by
  have unfolded : (Turn.mk e m e').failed x = if r = x ∧ c ∈ (e.queue x).members ∧
      c ∉ (e'.queue x).members ∧ (e'.command? c).any (·.ending = some (.refused fault)) then 1
      else 0 := by
    unfold Turn.failed
    rw [hrefusal]
    simp [List.countP_cons]
  rw [unfolded]
  obtain ⟨hbusy, below, hs, rfl⟩ := refusal?_eq_some hrefusal hm
  have hpop : e.stack = [Task.offer r c] ++ below := hs
  have hstored := (h.pop hpop).toStored
  by_cases same : r = x
  swap
  · rw [if_neg fun k => same k.1, if_neg fun k => same k.1]
  subst same
  have kept_or_ended := hstored.answerOffer_refused r c hbusy
  by_cases hslot : (e.queue r).slot = some c
  · have hmem : c ∈ (e.queue r).members := Queue.mem_members.2 (.inl hslot)
    have left := hstored.members_answerOffer_refused hslot hbusy
    rcases kept_or_ended with ⟨alike, -⟩ | ⟨old, -, changed, -⟩
    · exact absurd ((alike.members r).symm ▸ hmem) left
    · have hending : (({ e with stack := below } : Engine).answerOffer r c
          (.error fault)).command? c = _ := changed.after
      rw [hending]
      simp [hslot, hmem, left, Command.finish]
  · have still : ¬ (c ∈ (e.queue r).members ∧ c ∉ ((({ e with stack := below } : Engine).answerOffer
        r c (.error fault)).queue r).members) := by
      rintro ⟨hmem, hnot⟩
      rcases kept_or_ended with ⟨alike, -⟩ | ⟨old, hslot', -⟩
      · exact hnot ((alike.members r).symm ▸ hmem)
      · exact hslot hslot'
    rw [if_neg fun k => still ⟨k.2.1, k.2.2.1⟩, if_neg fun k => hslot k.2]

/-- What is posted when a request is refused. -/
theorem Sound.posted_refusal {fault : TransportFault} (h : e.Sound)
    (hrefusal : (Turn.mk e m e').refusal? = some (r, c, fault)) (hm : e.move? m = some e')
    (x : RouterRef) : ∃ s, Posted (e.account x) s (e'.account x) ∧
      s.refused = (Turn.mk e m e').refused x ∧ s.failed = (Turn.mk e m e').failed x := by
  have hfailed := h.failed_eq hrefusal hm x
  have hrefused : (Turn.mk e m e').refused x = if r = x then 1 else 0 := by
    unfold Turn.refused
    rw [hrefusal]
    simp [List.countP_cons]
  rw [hrefused, hfailed]
  obtain ⟨hbusy, below, hs, rfl⟩ := refusal?_eq_some hrefusal hm
  have before := account_offer hs
  rcases books_refused { e with stack := below } r c hbusy with
    ⟨hslot, level⟩ | ⟨hslot, q, hq, books⟩
  · have hslot : (e.queue r).slot ≠ some c := hslot
    rw [level, before]
    by_cases same : r = x
    · subst same
      exact ⟨{ refused := 1 }, by rw [if_pos rfl]; exact .refused rfl, by simp, by simp [hslot]⟩
    · exact ⟨{}, by rw [if_neg same]; exact .level _, by simp [same], by simp [same]⟩
  · have hslot : (e.queue r).slot = some c := hslot
    rw [books, before]
    by_cases same : r = x
    · subst same
      exact ⟨{ refused := 1, failed := 1 }, by rw [if_pos rfl, if_pos rfl]; exact .failed rfl hq,
        by simp, by simp [hslot]⟩
    · exact ⟨{}, by rw [if_neg same, if_neg same]; exact .level _, by simp [same], by simp [same]⟩

/-- What a move posts, and what is seen of it if a request is refused. -/
theorem Sound.posted (h : e.Sound) (hv : e.Staffed e.stack)
    (ha : ∀ call, m = .call call → e.Allows call) (hm : e.move? m = some e') (x : RouterRef) :
    ∃ s, Posted (e.account x) s (e'.account x) ∧ s.refused = (Turn.mk e m e').refused x ∧
      s.failed = (Turn.mk e m e').failed x := by
  cases hrefusal : (Turn.mk e m e').refusal? with
  | none =>
    have none_seen : (Turn.mk e m e').refused x = 0 ∧ (Turn.mk e m e').failed x = 0 := by
      unfold Turn.refused Turn.failed
      rw [hrefusal]
      exact ⟨rfl, rfl⟩
    rw [none_seen.1, none_seen.2]
    exact h.unrefused hv ha hm hrefusal x
  | some refusal => exact h.posted_refusal hrefusal hm x

/-! ## What is seen of a move -/

/-- Where no offer is new, no request is seen to be handed over. -/
theorem Swapped.offers?_eq_none {gone tasks : List Task} (k : e.Swapped e' gone tasks below)
    (hno : ∀ t ∈ tasks, t.isOffer = false) : (Turn.mk e m e').offers? = none := by
  unfold Turn.offers?
  split
  · rename_i r below' r' c rest hmove hbefore hafter
    simp only at hbefore hafter
    refine if_neg fun hlength => ?_
    rw [k.before] at hbefore
    rw [k.after] at hafter
    cases tasks with
    | cons t tasks =>
      obtain ⟨rfl, -⟩ := List.cons.inj hafter
      exact Bool.false_ne_true (hno _ List.mem_cons_self).symm
    | nil =>
      have hafter : below = .offer r' c :: rest := hafter
      cases gone with
      | nil =>
        rw [hafter] at hbefore
        cases hbefore
      | cons t gone =>
        have hlengths := congrArg List.length hbefore
        rw [hafter] at hlengths
        simp only [List.length_append, List.length_cons] at hlengths
        omega
  · rfl

/-- The requests that are seen to be handed over are those by which the unanswered become more. -/
theorem Sound.handed_eq (h : e.Sound) (ha : ∀ call, m = .call call → e.Allows call)
    (hm : e.move? m = some e') (x : RouterRef) :
    (Turn.mk e m e').handed x = (e'.account x).offered - (e.account x).offered := by
  obtain ⟨gone, tasks, below, swapped, flow⟩ := h.flow ha hm
  have offered (e : Engine) : (e.account x).offered = e.stack.countP (Task.offers x) := rfl
  rw [offered, offered, swapped.before, swapped.after, List.countP_append, List.countP_append]
  rcases flow.offers with hno | ⟨r, c, rest, rfl, rfl, rfl, -, -, requeued⟩
  · have nothing : tasks.countP (Task.offers x) = 0 := by
      refine List.countP_eq_zero.2 fun t ht hoffers => ?_
      have hoffer := hno t ht
      cases t <;> first | cases hoffers | cases hoffer
    unfold Turn.handed
    rw [swapped.offers?_eq_none hno, nothing]
    simp
  · have hmem : c ∈ (e'.queue r).members := by
      rw [requeued.on]
      exact Queue.mem_members.2 (.inl rfl)
    obtain ⟨command, hc, -⟩ := (h.of_moved ha (h.moved ha hm)).members r c hmem
    have seen : (Turn.mk e .proceed e').offers? = some (r, c, command) := by
      simp [Turn.offers?, swapped.before, swapped.after, hc]
    unfold Turn.handed
    rw [seen]
    simp [List.countP_cons, Task.offers]

/-! ## What a turn posts -/

/-- The attempts that are seen to enter a queue are those by which it grows. -/
theorem Sound.entered_eq (h : e.Sound) (ha : ∀ call, m = .call call → e.Allows call)
    (hm : e.move? m = some e') (r : RouterRef) :
    (Turn.mk e m e').entered r = (e'.account r).queued - (e.account r).queued := by
  have queued (e : Engine) : (e.account r).queued = (e.queue r).members.length := rfl
  rw [queued, queued]
  have left (hsub : (e'.queue r).members.Sublist (e.queue r).members) :
      (Turn.mk e m e').entered r = (e'.queue r).members.length - (e.queue r).members.length := by
    have hle := hsub.length_le
    have nobody : (Turn.mk e m e').entered r = 0 :=
      List.countP_eq_zero.2 fun c hc => by simpa using hsub.subset hc
    omega
  rcases h.attempts ha hm with s | ⟨r', c, k⟩ | ⟨r', c, old, signal, words, -, -, a⟩
  · exact left (s.members r)
  · rcases k.members r with same | ⟨rfl, grown⟩
    · exact left (by rw [same])
    · have fresh : c ∉ (e.queue r').members := fun hc => k.fresh ⟨r', hc⟩
      unfold Turn.entered
      simp only
      rw [grown, List.countP_append, List.length_append]
      have others : (e.queue r').members.countP (· ∉ (e.queue r').members) = 0 :=
        List.countP_eq_zero.2 fun c hc => by simpa using hc
      rw [others]
      simp [fresh]
  · exact left (by rw [a.members, if_neg Bool.false_ne_true])

/-- Nothing comes to be under way for a router that is not there. -/
theorem Sound.staffed_next (h : e.Sound) (hv : e.Staffed e.stack)
    (ha : ∀ call, m = .call call → e.Allows call) (hm : e.move? m = some e') :
    e'.Staffed e'.stack := by
  intro r hnone'
  have hqueue := queue_of_none hnone'
  have hnone : e.router? r = none := by
    cases hr : e.router? r with
    | none => rfl
    | some router =>
      obtain ⟨router', hr', -⟩ := (h.extends ha hm).routers r router hr
      cases hnone'.symm.trans hr'
  obtain ⟨s, posted, -⟩ := h.posted hv ha hm r
  have handed := h.handed_eq ha hm r
  rw [hv.account hnone] at posted handed
  have hempty : e'.account r = {} := by
    refine posted.vacant ?_ ?_ ?_
    · unfold Engine.account
      rw [hnone']
      rfl
    · show (e'.queue r).outstanding = 0
      rw [hqueue]
      rfl
    · by_contra hoffered
      have hpos : (Turn.mk e m e').handed r ≠ 0 := by
        rw [handed]
        exact hoffered
      obtain ⟨c, command, ho⟩ := Turn.offers?_of_handed hpos
      obtain ⟨-, hslot, -⟩ := h.offers?_spec hm ho
      rw [hqueue] at hslot
      cases hslot
  exact ⟨congrArg Account.expiring hempty, congrArg Account.offered hempty⟩

/-- **What a turn posts to the account of a router agrees with what is seen of the turn.** -/
theorem Sound.posts (h : e.Sound) (hv : e.Staffed e.stack)
    (ha : ∀ call, m = .call call → e.Allows call) (hm : e.move? m = some e') (r : RouterRef) :
    Posted (e.account r) ((Turn.mk e m e').sight r) (e'.account r) := by
  obtain ⟨⟨entered, handed, refused, failed⟩, posted, rfl, rfl⟩ := h.posted hv ha hm r
  have hentered : entered = _ := posted.entered_eq
  have hhanded : handed = _ := posted.handed_eq
  rw [← h.entered_eq ha hm r] at hentered
  rw [← h.handed_eq ha hm r] at hhanded
  subst hentered hhanded
  exact posted

end Engine

/-! ## What has been counted -/

theorem requests_cons (turn : Turn) (turns : List Turn) (r : RouterRef) :
    requests (turn :: turns) r = turn.handed r + requests turns r := by
  unfold requests Turn.handed
  rw [handed]
  cases turn.offers? with
  | none => simp
  | some offered => simp [List.countP_cons, Nat.add_comm]

/-- Every attempt that ever entered the queue of a router, and every request that was ever handed to
the transport for it, is in one place of its account or was seen to be refused. -/
structure Accounted (turns : List Turn) (r : RouterRef) (a : Account) : Prop where
  attempts : entries turns r =
    a.stats.completed + a.stats.timeouts + failures turns r + a.queued + a.expiring
  requests : requests turns r =
    a.stats.submitted + a.stats.busyDeferrals + refusals turns r + a.offered

/-- The account of a router, with what these other callers have under way for it. -/
def Account.beside (a : Account) (r : RouterRef) (others : List (List Task)) : Account :=
  { a with
    expiring := a.expiring + others.flatten.countP (Task.expires r)
    offered := a.offered + others.flatten.countP (Task.offers r) }

/-- What others have under way is not changed by a move. -/
theorem Accounted.of_posted {turn : Turn} (h : Accounted turns r (a.beside r others))
    (p : Posted a (turn.sight r) b) : Accounted (turn :: turns) r (b.beside r others) := by
  obtain ⟨hattempts, hrequests⟩ := h
  have attempts : _ + turn.failed r + _ + _ = _ + turn.entered r := p.attempts
  have requests : _ + turn.refused r + _ = _ + turn.handed r := p.requests
  refine ⟨?_, ?_⟩
  · simp only [entries, failures, List.map_cons, List.sum_cons, Account.beside] at hattempts ⊢
    omega
  · rw [requests_cons]
    simp only [refusals, List.map_cons, List.sum_cons, Account.beside] at hrequests ⊢
    omega

/-- The account of a router with what all callers have under way for it. -/
theorem Engine.account_beside (e : Engine) (r : RouterRef) (others : List (List Task)) :
    (e.account r).beside r others = ⟨(e.account r).stats, (e.queue r).outstanding,
      (e.stack :: others).flatten.countP (Task.expires r),
      (e.stack :: others).flatten.countP (Task.offers r)⟩ := by
  rw [List.flatten_cons, List.countP_append, List.countP_append]
  rfl

section crowds

variable (h : Crowd settings turns e others)
include h

/-- No caller has anything under way for a router that is not there. -/
theorem Crowd.staffed : ∀ stack ∈ e.stack :: others, e.Staffed stack := by
  induction h with
  | start n =>
    refine List.forall_mem_cons.2 ⟨fun r _ => ?_, fun stack hstack r _ => ?_⟩
    · rcases stack_opening settings with hs | ⟨failure, hs⟩ <;>
      · rw [hs]
        exact countP_unbooked (by simp) r
    · rw [List.eq_of_mem_replicate hstack]
      exact ⟨rfl, rfl⟩
  | next prior ha hm ih =>
    obtain ⟨hcontrol, hothers⟩ := List.forall_mem_cons.1 ih
    exact List.forall_mem_cons.2 ⟨prior.sound.staffed_next hcontrol ha hm,
      fun stack hstack => (hothers stack hstack).mono (prior.sound.extends ha hm)⟩
  | passes i _ hi ih => exact fun stack hstack => ih stack ((perm_passes _ hi).mem_iff.2 hstack)

theorem Crowd.accounted (r : RouterRef) : Accounted turns r ((e.account r).beside r others) := by
  induction h with
  | start n =>
    have hempty := ((Crowd.start n).staffed _ List.mem_cons_self).account
      (router?_opening settings r)
    rw [hempty, Account.beside, List.flatten_replicate_nil]
    exact ⟨rfl, rfl⟩
  | next prior ha hm ih =>
    exact ih.of_posted (prior.sound.posts (prior.staffed _ List.mem_cons_self) ha hm r)
  | @passes turns e others stack i prior hi ih =>
    have hflat := (perm_passes e.stack hi).flatten
    rw [account_beside, hflat.countP_eq, hflat.countP_eq] at ih
    rw [account_beside]
    exact ih

theorem Crowd.all_posted (r : RouterRef) :
    ∀ turn ∈ turns, Posted (turn.before.account r) (turn.sight r) (turn.after.account r) := by
  induction h with
  | start => exact List.forall_mem_nil _
  | next prior ha hm ih =>
    exact List.forall_mem_cons.2
      ⟨prior.sound.posts (prior.staffed _ List.mem_cons_self) ha hm r, ih⟩
  | passes _ _ _ ih => exact ih

/-- With no call in progress, no attempt is about to time out. -/
theorem Crowd.none_expiring (hcalls : inProgress turns = 0) (r : RouterRef) :
    (e.stack :: others).flatten.countP (Task.expires r) = 0 := by
  have hbases := h.bases
  rw [hcalls, List.countP_eq_zero] at hbases
  refine List.countP_eq_zero.2 fun t ht hexpires => ?_
  obtain ⟨stack, hstack, ht⟩ := List.mem_flatten.1 ht
  obtain ⟨standing, hstacked⟩ := h.peopled.stacked stack hstack
  have hidle : stack.countP Task.isBase = 0 :=
    List.countP_eq_zero.2 fun t ht => hbases t (List.mem_flatten.2 ⟨stack, hstack, ht⟩)
  rw [hstacked.countP_base, List.length_eq_zero_iff] at hidle
  subst hidle
  have hloose := hstacked.loose t ht
  cases t <;> first | cases hexpires | cases hloose

/-- **Every attempt and every request of a router is counted once**, however many callers there are
and whatever they are in the midst of when control passes. In every turn, whatever leaves the queue
or is answered is counted in one way; and in every state, the counters agree with what was seen of
the router, but for what the callers still have under way. No attempt is there when no call is in
progress, and nothing at all when no caller has anything under way. -/
theorem Crowd.accounts (hr : e.router? r = some router) :
    (∀ turn ∈ turns, Posted (turn.before.account r) (turn.sight r) (turn.after.account r)) ∧
      Accounted turns r ⟨router.stats, router.queue.outstanding,
        (e.stack :: others).flatten.countP (Task.expires r),
        (e.stack :: others).flatten.countP (Task.offers r)⟩ ∧
      (inProgress turns = 0 → entries turns r = router.stats.completed +
        router.stats.timeouts + failures turns r + router.queue.outstanding) ∧
      ((∀ stack ∈ e.stack :: others, stack = []) →
        entries turns r = router.stats.completed + router.stats.timeouts + failures turns r +
          router.queue.outstanding ∧
        requests turns r = router.stats.submitted + router.stats.busyDeferrals +
          refusals turns r) := by
  have accounted := h.accounted r
  have stats : (e.account r).stats = router.stats := by
    unfold Engine.account
    rw [hr]
    rfl
  rw [account_beside, stats, queue_of_router? hr] at accounted
  refine ⟨h.all_posted r, accounted, fun hcalls => ?_, fun hidle => ?_⟩
  · have attempts := accounted.attempts
    rw [h.none_expiring hcalls r] at attempts
    exact attempts
  · rw [List.flatten_eq_nil_iff.2 hidle] at accounted
    exact ⟨accounted.attempts, accounted.requests⟩

end crowds

/-- Two callers use the host router. One has read a word with a callback, and waits with a second
read behind it; the other one sees to the answer of the first, and so comes to hand the second over.
While it does, the second is given up, and then the transport is busy. -/
def crowdedActs : List Act :=
  (hostMoves hostWords ++
  ([.call (.operate ⟨0⟩ (.transfer (.read .router 0 64 1) (.callback 1))), .proceed,
    .grant (.ok ()), .proceed, .grant (.ok ()), .proceed, .proceed, .proceed, .collect,
    .call (.operate ⟨0⟩ (.transfer (.read .router 0 80 1) (.waiting .woken))), .proceed,
    .grant (.ok ()), .proceed, .proceed, .proceed] : List Move)).map Act.moves ++
  .passes 0 :: ([.receive (.sent (some (.command ⟨0⟩ ⟨2⟩ 1))), .collect,
    .receive (.received .read .read
      (ReadResponse.encode ⟨Route.root, ⟨.router, 0, 64, 1, 1⟩, [5]⟩)), .back, .proceed] :
    List Move).map Act.moves ++
  .passes 0 :: ([.elapse 2000, .giveUp] : List Move).map Act.moves ++
  .passes 0 :: ([.grant (.error .busy), .proceed, .proceed, .proceed, .proceed, .proceed,
    .collect] : List Move).map Act.moves ++
  .passes 0 :: ([.proceed, .proceed, .proceed, .proceed, .proceed, .proceed, .collect] :
    List Move).map Act.moves

/-- Of three more reads, the first is refused; the second finds the transport busy, is accepted
later, and is expired by the third, which gives up behind it. -/
def furtherActs : List Act :=
  ([.call (.operate ⟨0⟩ (.transfer (.read .router 0 64 1) (.callback 2))), .proceed,
    .grant (.ok ()), .proceed, .grant (.error .closed), .back, .proceed, .proceed, .proceed,
    .proceed, .collect,
    .call (.operate ⟨0⟩ (.transfer (.read .router 0 64 1) (.callback 3))), .proceed,
    .grant (.ok ()), .proceed, .grant (.error .busy), .proceed, .proceed, .collect,
    .call (.operate ⟨0⟩ (.transfer (.read .router 0 64 1) (.waiting .woken))), .proceed,
    .grant (.ok ()), .proceed, .proceed, .grant (.ok ()), .proceed, .proceed, .elapse 10000,
    .giveUp, .proceed, .back, .proceed, .proceed, .proceed, .proceed, .proceed, .proceed, .proceed,
    .proceed, .proceed, .collect] : List Move).map Act.moves

/-- The transport finds itself busy with an attempt that is not in a queue any more. -/
def Turn.dropsBusy (turn : Turn) (r : RouterRef) : Bool :=
  match turn.move with
  | .grant (.error .busy) => (turn.before.queue r).members.isEmpty
  | _ => false

/-- Two attempts are completed, three timed out and one failed, of which one was given up while
another caller was handing it over; three requests are accepted, two find the transport busy and one
is refused. -/
theorem six_attempts_counted : ∃ turns e others router, Crowd { retries := 0 } turns e others ∧
    e.router? ⟨0⟩ = some router ∧ router.stats = ⟨3, 2, 3, 2, 0⟩ ∧ router.queue.outstanding = 0 ∧
    entries turns ⟨0⟩ = 6 ∧ requests turns ⟨0⟩ = 6 ∧
    ∃ turn ∈ turns, turn.dropsBusy ⟨0⟩ = true := by
  have played : (enact? { retries := 0 } 1 (crowdedActs ++ furtherActs).reverse).any
      (fun (turns, e, others) => decide (∀ stack ∈ e.stack :: others, stack.isEmpty) &&
        decide (failures turns ⟨0⟩ = 1) && decide (refusals turns ⟨0⟩ = 1) &&
        turns.any (·.dropsBusy ⟨0⟩) &&
        (e.router? ⟨0⟩).any fun router =>
          decide (router.stats = ⟨3, 2, 3, 2, 0⟩) && decide (router.queue.outstanding = 0)) =
      true := by
    decide +kernel
  obtain ⟨turns, e, others, crowd, hcheck⟩ := exists_of_enact? played
  simp only [Bool.and_eq_true, List.isEmpty_iff, decide_eq_true_eq, Option.any_eq_true,
    List.any_eq_true] at hcheck
  obtain ⟨⟨⟨⟨hidle, hfailures⟩, hrefusals⟩, hdropped⟩, router, hr, hstats, houtstanding⟩ := hcheck
  obtain ⟨-, -, -, balanced⟩ := crowd.accounts hr
  obtain ⟨hentries, hrequests⟩ := balanced hidle
  rw [hstats, hfailures, houtstanding] at hentries
  rw [hstats, hrefusals] at hrequests
  exact ⟨turns, e, others, router, crowd, hr, hstats, houtstanding, hentries, hrequests, hdropped⟩

end RouterFabric
