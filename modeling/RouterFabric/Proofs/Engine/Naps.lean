import RouterFabric.Proofs.Engine.Acts
import RouterFabric.Proofs.Store

/-!
# Who is asleep

A router is marked as asleep by the program that has put it to sleep, and awake again by a call. No
section of the engine besides these two touches the mark, whatever becomes of the router's queue.

* `Engine.naps` : the marks of all routers
* `naps_launch`, `naps_complete`, … : the sections that leave the marks alone
* `Asleep.moved` : a router stays asleep until it is resumed
* `Asleep.was` : a router falls asleep when a program asks for it
-/

namespace RouterFabric.Engine

variable {e e' : Engine} {m : Move} {r : RouterRef} {w : Waiter}

/-- Which routers are marked as asleep. -/
def naps (e : Engine) : List Bool :=
  e.routers.map Router.suspended

/-- What becomes of the marks, when one router changes. -/
theorem naps_updateRouter (e : Engine) (r : RouterRef) {f : Router → Router} {g : Bool → Bool}
    (hf : ∀ router, (f router).suspended = g router.suspended) :
    (e.updateRouter r f).naps = e.naps.modify r.index g :=
  map_modify hf e.routers r.index

theorem naps_kept (e : Engine) (r : RouterRef) {f : Router → Router}
    (hf : ∀ router, (f router).suspended = router.suspended) :
    (e.updateRouter r f).naps = e.naps := by
  rw [naps_updateRouter e r (g := id) hf, List.modify_id]

@[simp] theorem naps_push (e : Engine) (tasks : List Task) : (e.push tasks).naps = e.naps := rfl

@[simp] theorem naps_count (e : Engine) (r : RouterRef) (f : Statistics → Statistics) :
    (e.count r f).naps = e.naps :=
  naps_kept e r fun _ => rfl

@[simp] theorem naps_setQueue (e : Engine) (r : RouterRef) (q : Queue) :
    (e.setQueue r q).naps = e.naps :=
  naps_kept e r fun _ => rfl

@[simp] theorem naps_setLine (e : Engine) (r : RouterRef) (line : Queue × Commands) :
    (e.setLine r line).naps = e.naps :=
  naps_setQueue e r line.1

@[simp] theorem naps_withTopology (e : Engine) (t : Topology) :
    ({ e with topology := t } : Engine).naps = e.naps := rfl

@[simp] theorem naps_withCommands (e : Engine) (cs : Commands) :
    ({ e with commands := cs } : Engine).naps = e.naps := rfl

/-! ## Sections that leave the marks alone -/

@[simp] theorem naps_finish (e : Engine) (c : CommandRef) (ending : Ending) :
    (e.finish c ending).naps = e.naps := by
  unfold finish
  split
  · rfl
  · simp only
    split <;> simp

@[simp] theorem naps_launch (e : Engine) (r : RouterRef) (c : CommandRef) (next : List Task) :
    (e.launch r c next).naps = e.naps := by
  unfold launch
  split
  · rfl
  · simp only
    split
    · rw [naps_push]
      exact naps_kept e r fun _ => rfl
    · rw [naps_push, naps_setLine]
      exact naps_kept e r fun _ => rfl

@[simp] theorem naps_complete (e : Engine) (r : RouterRef) (c : CommandRef) (generation : Nat)
    (ending : Ending) : (e.complete r c generation ending).naps = e.naps := by
  unfold complete
  split
  · rfl
  · split <;> simp

theorem naps_settle? (h : e.settle? w = some e') : e'.naps = e.naps := by
  unfold settle? at h
  split at h
  · cases h
  · split at h
    · split at h
      · cases h
        rfl
      · cases h
    · split at h
      · simp only at h
        split at h <;> (cases h; rfl)
      · cases h

@[simp] theorem naps_retry (e : Engine) (w : Waiter) : (e.retry w).naps = e.naps := by
  unfold retry
  split <;> simp

@[simp] theorem naps_withdraw (e : Engine) (w : Waiter) : (e.withdraw w).naps = e.naps := by
  unfold withdraw
  split
  · rfl
  · split <;> simp

@[simp] theorem naps_drain (e : Engine) (r : RouterRef) : (e.drain r).naps = e.naps := by
  rw [drain_eq]
  split
  · rfl
  · split <;> simp

@[simp] theorem naps_answerOffer (e : Engine) (r : RouterRef) (c : CommandRef)
    (answer : Except TransportFault Unit) : (e.answerOffer r c answer).naps = e.naps := by
  rw [answerOffer_eq]
  split
  · rfl
  · split
    · simp
    · simp
    · split
      · simp
      · simp only
        split <;> simp

@[simp] theorem naps_drainFirst (e : Engine) (ids : List NodeId) :
    (e.drainFirst ids).naps = e.naps := by
  cases ids <;> rfl

@[simp] theorem naps_passOn (e : Engine) (reply : Reply) : (e.passOn reply).naps = e.naps := by
  unfold passOn
  split <;> rfl

@[simp] theorem naps_begin (e : Engine) (r : RouterRef) (command : Command) (style : Style) :
    (e.begin r command style).naps = e.naps := by
  unfold begin
  split <;> simp

@[simp] theorem naps_issue (e : Engine) (r : RouterRef) (t : Transfer) (style : Style) :
    (e.issue r t style).naps = e.naps := by
  unfold issue
  simp only
  split
  · rfl
  · split
    · rfl
    · split
      · rfl
      · split
        · rfl
        · split <;> rfl

@[simp] theorem naps_enrol (e : Engine) (r : RouterRef) (identity : Identity) :
    (e.enrol r identity).naps = e.naps := by
  unfold enrol
  split
  · rfl
  · split
    · rfl
    · exact naps_kept e r fun _ => rfl

@[simp] theorem naps_unlink (e : Engine) (r : RouterRef) : (e.unlink r).naps = e.naps := by
  unfold unlink
  split
  · rfl
  · exact naps_kept e r fun _ => rfl

@[simp] theorem naps_signal (e : Engine) (r : RouterRef) (c : CommandRef) (generation : Nat)
    (signal : Signal) (words : Option (List UInt32)) :
    (e.signal r c generation signal words).naps = e.naps := by
  unfold Engine.signal
  simp only
  split <;> simp

theorem naps_heard {arrival : Arrival} (h : e.Heard arrival e') : e'.naps = e.naps := by
  cases h with
  | ignored => rfl
  | discarded r => exact naps_count e r _
  | sent | answered => exact naps_signal ..
  | interrupted event =>
    simp only
    split <;> simp
  | plugged event => rfl

theorem naps_expireEach (e : Engine) (rs : List RouterRef) :
    (e.expireEach rs).2.naps = e.naps := by
  induction rs generalizing e with
  | nil => rfl
  | cons r rest ih =>
    unfold expireEach
    split
    · exact ih e
    · exact (ih _).trans (naps_setLine e r _)

theorem naps_removeEach (e : Engine) (l : List (NodeId × RouterRef)) :
    (e.removeEach l).2.naps = e.naps := by
  induction l generalizing e with
  | nil => rfl
  | cons p rest ih =>
    have marked : (e.updateRouter p.2 fun router => { router with detached := true }).naps =
        e.naps := naps_kept e p.2 fun _ => rfl
    unfold removeEach
    simp only
    split
    · exact marked
    · exact (ih _).trans marked

theorem naps_detach (e : Engine) (r : RouterRef) : (e.detach r).naps = e.naps := by
  unfold detach
  simp only
  split
  · rfl
  · rw [naps_push]
    unfold removeSubtree
    split
    · exact naps_expireEach e _
    · exact (naps_removeEach _ _).trans (naps_expireEach e _)

/-! ## Moves -/

/-- The router is marked as asleep. -/
def Asleep (e : Engine) (r : RouterRef) : Prop :=
  ∃ router, e.router? r = some router ∧ router.suspended = true

theorem asleep_iff : e.Asleep r ↔ e.naps[r.index]? = some true := by
  unfold Asleep naps
  rw [List.getElem?_map, Option.map_eq_some_iff]
  rfl

theorem Asleep.of_naps (h : e.Asleep r) (hn : e'.naps = e.naps) : e'.Asleep r := by
  rw [asleep_iff] at h ⊢
  rw [hn]
  exact h

/-- Marking a router leaves those asleep that the mark is no change for. -/
theorem Asleep.of_modify {r' : RouterRef} {g : Bool → Bool} (h : e.Asleep r)
    (hn : e'.naps = e.naps.modify r'.index g) (hg : r' = r → g true = true) : e'.Asleep r := by
  rw [asleep_iff] at h ⊢
  rw [hn, List.getElem?_modify, h]
  show some (if r'.index = r.index then g true else true) = some true
  split
  · rename_i heq
    rw [hg (congrArg RouterRef.mk heq)]
  · rfl

theorem Asleep.of_append {added : List Bool} (h : e.Asleep r) (hn : e'.naps = e.naps ++ added) :
    e'.Asleep r := by
  rw [asleep_iff] at h ⊢
  obtain ⟨hlt, -⟩ := List.getElem?_eq_some_iff.1 h
  rw [hn, List.getElem?_append_left hlt]
  exact h

theorem Asleep.meet {r' : RouterRef} {request : Request} (h : e.Asleep r) :
    (e.meet r' request).Asleep r := by
  cases request with
  | transfer t style => exact h.of_naps (naps_issue ..)
  | pause ms => exact h.of_naps (naps_push ..)
  | fallAsleep =>
    exact h.of_modify (g := fun _ => true) (naps_updateRouter e r' fun _ => rfl) fun _ => rfl
  | enrol identity => exact h.of_naps (naps_enrol ..)
  | unlink => exact h.of_naps (naps_unlink ..)

theorem naps_linkRoot (e : Engine) : (e.linkRoot).naps = e.naps ++ [false] := by
  have added (id : NodeId) : ((e.addRouter id Route.root).2).naps = e.naps ++ [false] :=
    List.map_append
  unfold linkRoot
  simp only
  split <;> exact added _

theorem naps_attachChild (e : Engine) (parent : RouterRef) (route : Route) :
    ∃ added, (e.attachChild parent route).naps = e.naps ++ added ∧ true ∉ added := by
  have added (id : NodeId) : ((e.addRouter id route).2).naps = e.naps ++ [false] :=
    List.map_append
  unfold attachChild
  split
  · exact ⟨[], (List.append_nil _).symm, List.not_mem_nil⟩
  · simp only
    split <;> exact ⟨_, added _, by simp⟩

theorem Asleep.call {call : Call} (h : e.Asleep r) (hno : call ≠ .resume r) :
    (e.call call).Asleep r := by
  cases call with
  | attachRoot settings =>
    show (e.attachRoot settings).Asleep r
    unfold attachRoot
    simp only
    split <;> exact h.of_naps rfl
  | attachChild parent route =>
    obtain ⟨added, hn, -⟩ := naps_attachChild e parent route
    exact h.of_append hn
  | detach r' => exact h.of_naps (naps_detach e r')
  | resume r' =>
    show (e.resume r').Asleep r
    unfold resume
    split
    · exact h.of_naps rfl
    · split
      · exact h.of_naps rfl
      · refine h.of_modify (g := fun _ => false) (naps_updateRouter e r' fun _ => rfl) ?_
        rintro rfl
        exact absurd rfl hno
  | operate r' operation =>
    show (e.operate r' operation).Asleep r
    unfold operate
    split <;> exact h.of_naps rfl

/-- **A router stays asleep until it is resumed.** -/
theorem Asleep.moved (h : e.Asleep r) (hm : e.move? m = some e') (hno : m ≠ .call (.resume r)) :
    e'.Asleep r := by
  cases acts_of_move? hm with
  | dropped | concluded | watched | kicked | announced | unframed | unregistered | acknowledging
  | acknowledged | collected | elapsed => exact h.of_naps rfl
  | asked => exact Asleep.meet (h.of_naps rfl)
  | replied => exact h.of_naps (naps_passOn ..)
  | retried => exact h.of_naps (naps_retry ..)
  | settled hs ht hsettle => exact h.of_naps ((naps_settle? hsettle).trans rfl)
  | drained => exact h.of_naps (naps_drain ..)
  | toured => exact h.of_naps (naps_drainFirst ..)
  | expired =>
    refine h.of_naps ((naps_finish ..).trans ?_)
    rw [naps_push]
    exact naps_count ..
  | framed => exact h.of_naps (naps_begin ..)
  | answered => exact h.of_naps (naps_answerOffer ..)
  | registered => exact h.of_append (naps_linkRoot _)
  | gaveUp => exact h.of_naps (naps_withdraw ..)
  | called call =>
    refine h.call ?_
    rintro rfl
    exact absurd rfl hno
  | received arrival => exact h.of_naps ((naps_heard (heard_receive e arrival)).trans rfl)

/-! ## Falling asleep -/

/-- A change of the mark of one router puts nobody to sleep that it leaves awake. -/
theorem Asleep.unmodified {r' : RouterRef} {g : Bool → Bool} (h : e'.Asleep r)
    (hn : e'.naps = e.naps.modify r'.index g) (hg : r' = r → g false = false) : e.Asleep r := by
  rw [asleep_iff] at h ⊢
  rw [hn, List.getElem?_modify, Option.map_eq_map, Option.map_eq_some_iff] at h
  obtain ⟨nap, hnap, heq⟩ := h
  rw [hnap]
  split at heq
  · rename_i hindex
    cases nap with
    | true => rfl
    | false => exact absurd heq (by simp [hg (congrArg RouterRef.mk hindex)])
  · exact congrArg some heq

/-- Routers that are added are awake. -/
theorem Asleep.unappended {added : List Bool} (h : e'.Asleep r)
    (hn : e'.naps = e.naps ++ added) (hadded : true ∉ added) : e.Asleep r := by
  rw [asleep_iff] at h ⊢
  rw [hn, List.getElem?_append] at h
  split at h
  · exact h
  · exact absurd (List.mem_of_getElem? h) hadded

theorem Asleep.of_meet {r' : RouterRef} {request : Request} (h : (e.meet r' request).Asleep r) :
    e.Asleep r ∨ r' = r ∧ request = .fallAsleep := by
  cases request with
  | transfer t style => exact .inl (h.of_naps (naps_issue ..).symm)
  | pause ms => exact .inl (h.of_naps (naps_push ..).symm)
  | fallAsleep =>
    by_cases hsame : r' = r
    · exact .inr ⟨hsame, rfl⟩
    · exact .inl (h.unmodified (g := fun _ => true) (naps_updateRouter e r' fun _ => rfl)
        fun heq => absurd heq hsame)
  | enrol identity => exact .inl (h.of_naps (naps_enrol ..).symm)
  | unlink => exact .inl (h.of_naps (naps_unlink ..).symm)

theorem Asleep.of_call {call : Call} (h : (e.call call).Asleep r) : e.Asleep r := by
  cases call with
  | attachRoot settings =>
    have hn : (e.attachRoot settings).naps = e.naps := by
      unfold attachRoot
      simp only
      split <;> rfl
    exact h.of_naps hn.symm
  | attachChild parent route =>
    obtain ⟨added, hn, hadded⟩ := naps_attachChild e parent route
    exact h.unappended hn hadded
  | detach r' => exact h.of_naps (naps_detach e r').symm
  | resume r' =>
    change (e.resume r').Asleep r at h
    unfold resume at h
    split at h
    · exact h.of_naps rfl
    · split at h
      · exact h.of_naps rfl
      · exact h.unmodified (g := fun _ => false) (naps_updateRouter e r' fun _ => rfl) fun _ => rfl
  | operate r' operation =>
    have hn : (e.operate r' operation).naps = e.naps := by
      unfold operate
      split <;> rfl
    exact h.of_naps hn.symm

/-- **A router falls asleep when the program at work asks for it.** -/
theorem Asleep.was (h : e'.Asleep r) (hm : e.move? m = some e') : e.Asleep r ∨
    m = .proceed ∧ ∃ next below, e.stack = .perform r (.ask .fallAsleep next) :: below := by
  have kept (hn : e'.naps = e.naps) : e.Asleep r ∨ m = .proceed ∧ ∃ next below,
      e.stack = .perform r (.ask .fallAsleep next) :: below := .inl (h.of_naps hn.symm)
  cases acts_of_move? hm with
  | dropped | concluded | watched | kicked | announced | unframed | unregistered | acknowledging
  | acknowledged | collected | elapsed => exact kept rfl
  | asked hs =>
    rcases h.of_meet with hasleep | ⟨rfl, rfl⟩
    · exact .inl (hasleep.of_naps rfl)
    · exact .inr ⟨rfl, _, _, hs⟩
  | replied => exact kept (naps_passOn ..)
  | retried => exact kept (naps_retry ..)
  | settled hs ht hsettle => exact kept ((naps_settle? hsettle).trans rfl)
  | drained => exact kept (naps_drain ..)
  | toured => exact kept (naps_drainFirst ..)
  | expired =>
    refine kept ((naps_finish ..).trans ?_)
    rw [naps_push]
    exact naps_count ..
  | framed => exact kept (naps_begin ..)
  | answered => exact kept (naps_answerOffer ..)
  | registered => exact .inl (h.unappended (naps_linkRoot _) (by simp))
  | gaveUp => exact kept (naps_withdraw ..)
  | called call => exact .inl h.of_call
  | received arrival => exact kept ((naps_heard (heard_receive e arrival)).trans rfl)

end RouterFabric.Engine
