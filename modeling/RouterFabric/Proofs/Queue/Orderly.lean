import RouterFabric.Proofs.Store

/-!
# What every queue operation keeps

A queue is orderly when its slot is marked free exactly if nothing holds it, no command is in it
twice, and the phase of each command says where in the queue it is. Every operation keeps a queue
orderly, and each says what becomes of `members`, the slot followed by the line.

* `Queue.Orderly` : the invariant
* `Orderly.enqueue`, `Orderly.beginDrain`, `Orderly.defer`, `Orderly.release`, `Orderly.abandon` :
  each operation keeps it
* `Orderly.frame` : and so does a change to commands that leaves the phases of its members alone
-/

namespace RouterFabric.Queue

variable {q : Queue} {cs cs' : Commands} {c : CommandRef} {command : Command}

/-- The state of a queue at rest between two operations. -/
structure Orderly (q : Queue) (cs : Commands) : Prop where
  idle_iff : q.state = .idle ↔ q.slot = none
  nodup : q.members.Nodup
  queued : ∀ c ∈ q.pending, ∃ command, cs.get? c = some command ∧ command.phase = .queued
  inflight : ∀ c, q.slot = some c → ∃ command, cs.get? c = some command ∧ command.phase = .inflight

/-! ## Members -/

theorem mem_members : c ∈ q.members ↔ q.slot = some c ∨ c ∈ q.pending := by
  unfold members
  simp

theorem holds_iff : q.holds c = true ↔ q.slot = some c := by
  unfold holds
  simp

@[simp] theorem members_empty : ({} : Queue).members = [] := rfl

@[simp] theorem members_release (q : Queue) : q.release.members = q.pending := by
  unfold members release
  simp

theorem members_of_slot (h : q.slot = some c) : q.members = c :: q.pending := by
  unfold members
  simp [h]

theorem members_of_free (h : q.slot = none) : q.members = q.pending := by
  unfold members
  simp [h]

theorem outstanding_eq_zero_iff : q.outstanding = 0 ↔ q.members = [] := by
  unfold outstanding
  exact List.length_eq_zero_iff

/-! ## Operations -/

theorem orderly_empty (cs : Commands) : ({} : Queue).Orderly cs where
  idle_iff := by simp
  nodup := by simp
  queued := by simp
  inflight := by simp

theorem Orderly.mem (h : q.Orderly cs) (m : c ∈ q.members) :
    ∃ command, cs.get? c = some command ∧
      (command.phase = .queued ∨ command.phase = .inflight) := by
  rcases mem_members.1 m with m | m
  · obtain ⟨command, hg, hp⟩ := h.inflight c m
    exact ⟨command, hg, .inr hp⟩
  · obtain ⟨command, hg, hp⟩ := h.queued c m
    exact ⟨command, hg, .inl hp⟩

theorem Orderly.not_mem_pending (h : q.Orderly cs) (hs : q.slot = some c) : c ∉ q.pending := by
  have := h.nodup
  rw [members_of_slot hs] at this
  exact (List.nodup_cons.1 this).1

/-- Only the phases of the members count. -/
theorem Orderly.frame (h : q.Orderly cs)
    (same : ∀ c ∈ q.members, ∀ command, cs.get? c = some command →
      ∃ command', cs'.get? c = some command' ∧ command'.phase = command.phase) : q.Orderly cs' where
  idle_iff := h.idle_iff
  nodup := h.nodup
  queued c hc := by
    obtain ⟨command, hg, hp⟩ := h.queued c hc
    obtain ⟨command', hg', hp'⟩ := same c (mem_members.2 (.inr hc)) command hg
    exact ⟨command', hg', hp'.trans hp⟩
  inflight c hc := by
    obtain ⟨command, hg, hp⟩ := h.inflight c hc
    obtain ⟨command', hg', hp'⟩ := same c (mem_members.2 (.inl hc)) command hg
    exact ⟨command', hg', hp'.trans hp⟩

/-- A change to a command outside the queue leaves it orderly. -/
theorem Orderly.update_of_not_mem (h : q.Orderly cs) (f : Command → Command) (hc : c ∉ q.members) :
    q.Orderly (cs.update c f) := by
  refine h.frame fun c' m command hg => ⟨command, ?_, rfl⟩
  rw [Commands.get?_update, if_neg (by rintro rfl; exact hc m), hg]

@[simp] theorem members_enqueue (q : Queue) (cs : Commands) (c : CommandRef) :
    (q.enqueue cs c).1.members = q.members ++ [c] := by
  unfold members enqueue
  simp

theorem Orderly.enqueue (h : q.Orderly cs) (hc : c ∉ q.members) (hg : cs.get? c = some command) :
    (q.enqueue cs c).1.Orderly (q.enqueue cs c).2 where
  idle_iff := h.idle_iff
  nodup := by
    rw [members_enqueue]
    exact List.nodup_append.2 ⟨h.nodup, by simp, fun a ha b hb => by
      rw [List.mem_singleton.1 hb]
      exact fun e => hc (e ▸ ha)⟩
  queued c' hc' := by
    have same := (h.update_of_not_mem (·.setPhase .queued 0) hc).queued
    rcases List.mem_append.1 hc' with hc' | hc'
    · exact same c' hc'
    · rw [List.mem_singleton.1 hc']
      refine ⟨command.setPhase .queued 0, ?_, rfl⟩
      show (cs.update c (·.setPhase .queued 0)).get? c = _
      rw [Commands.get?_update, if_pos rfl, hg]
      rfl
  inflight := (h.update_of_not_mem (·.setPhase .queued 0) hc).inflight

/-- What `beginDrain` gives: the head of the line, moved into the free slot. -/
theorem beginDrain_eq_some {now : Nat} {line : Queue × Commands}
    (hb : q.beginDrain cs now = some (c, line)) :
    q.state = .idle ∧ ∃ rest, q.pending = c :: rest ∧
      line = ({ pending := rest, slot := some c, state := .draining },
        cs.update c (·.setPhase .inflight now)) := by
  unfold beginDrain at hb
  split at hb
  · rename_i c' rest hs hp
    simp only [Option.some.injEq, Prod.mk.injEq] at hb
    obtain ⟨rfl, rfl⟩ := hb
    exact ⟨hs, rest, hp, rfl⟩
  · cases hb

theorem Orderly.members_beginDrain {now : Nat} {line : Queue × Commands} (h : q.Orderly cs)
    (hb : q.beginDrain cs now = some (c, line)) : line.1.members = q.members := by
  obtain ⟨hs, rest, hp, rfl⟩ := beginDrain_eq_some hb
  rw [members_of_free (h.idle_iff.1 hs), members_of_slot rfl, hp]

theorem Orderly.beginDrain {now : Nat} {line : Queue × Commands} (h : q.Orderly cs)
    (hb : q.beginDrain cs now = some (c, line)) : line.1.Orderly line.2 := by
  have hm := h.members_beginDrain hb
  obtain ⟨hs, rest, hp, rfl⟩ := beginDrain_eq_some hb
  have hn := h.nodup
  rw [members_of_free (h.idle_iff.1 hs), hp, List.nodup_cons] at hn
  refine ⟨by simp, hm ▸ h.nodup, fun c' hc' => ?_, fun c' hc' => ?_⟩
  · obtain ⟨command, hg, hphase⟩ := h.queued c' (by rw [hp]; exact List.mem_cons_of_mem _ hc')
    refine ⟨command, ?_, hphase⟩
    rw [Commands.get?_update, if_neg (by rintro rfl; exact hn.1 hc'), hg]
  · obtain rfl : c = c' := by simpa using hc'
    obtain ⟨command, hg, -⟩ := h.queued c (by rw [hp]; exact List.mem_cons_self)
    refine ⟨command.setPhase .inflight now, ?_, rfl⟩
    rw [Commands.get?_update, if_pos rfl, hg]
    rfl

@[simp] theorem members_submitted (q : Queue) (c : CommandRef) :
    (q.submitted c).members = q.members := by
  unfold submitted
  split <;> rfl

theorem Orderly.submitted (h : q.Orderly cs) (c : CommandRef) : (q.submitted c).Orderly cs := by
  unfold Queue.submitted
  split
  · rename_i hc
    have hs : q.slot = some c := holds_iff.1 (Bool.and_eq_true_iff.1 hc).1
    exact ⟨by simp [hs], h.nodup, h.queued, h.inflight⟩
  · exact h

theorem members_defer (q : Queue) (cs : Commands) (c : CommandRef) :
    (q.defer cs c).2.1.members = q.members := by
  unfold defer
  split
  · rename_i hc
    rw [members_of_slot (holds_iff.1 hc), members_of_free rfl]
  · rfl

theorem Orderly.defer (h : q.Orderly cs) (c : CommandRef) :
    (q.defer cs c).2.1.Orderly (q.defer cs c).2.2 := by
  have hm := members_defer q cs c
  unfold Queue.defer at hm ⊢
  split
  · rename_i hc
    rw [if_pos hc] at hm
    have hs := holds_iff.1 hc
    obtain ⟨command, hg, -⟩ := h.inflight c hs
    refine ⟨by simp [release], hm ▸ h.nodup, fun c' hc' => ?_, by simp [release]⟩
    rcases List.mem_cons.1 hc' with rfl | hc'
    · refine ⟨command.setPhase .queued 0, ?_, rfl⟩
      rw [Commands.get?_update, if_pos rfl, hg]
      rfl
    · obtain ⟨command', hg', hp'⟩ := h.queued c' hc'
      refine ⟨command', ?_, hp'⟩
      rw [Commands.get?_update, if_neg (by rintro rfl; exact h.not_mem_pending hs hc'), hg']
  · exact h

/-- Freeing the slot takes its command out of the queue. -/
theorem Orderly.release (h : q.Orderly cs) : q.release.Orderly cs where
  idle_iff := by simp [Queue.release]
  nodup := by
    rw [members_release]
    exact h.nodup.sublist (List.sublist_append_right _ _)
  queued := h.queued
  inflight := by simp [Queue.release]

/-- Withdrawing a command: from the slot, or from wherever it stands in the line. -/
theorem abandon_eq (q : Queue) (c : CommandRef) :
    (q.abandon c).1 = decide (c ∈ q.members) ∧
      (q.slot = some c → (q.abandon c).2 = q.release) ∧
      (q.slot ≠ some c → (q.abandon c).2 = { q with pending := q.pending.erase c }) := by
  unfold abandon
  by_cases hs : q.slot = some c
  · have hh : q.holds c = true := holds_iff.2 hs
    simp [hh, mem_members, hs]
  · have hh : ¬ q.holds c = true := fun e => hs (holds_iff.1 e)
    by_cases hp : c ∈ q.pending
    · simp [hh, mem_members, hs, hp]
    · simp [hh, mem_members, hs, hp, List.erase_of_not_mem hp]

theorem members_abandon (q : Queue) (c : CommandRef) :
    (q.abandon c).2.members = q.members.erase c := by
  obtain ⟨-, hslot, hline⟩ := abandon_eq q c
  by_cases hs : q.slot = some c
  · rw [hslot hs, members_release, members_of_slot hs, List.erase_cons_head]
  · rw [hline hs]
    cases hf : q.slot with
    | none => rw [members_of_free hf, members_of_free rfl]
    | some other =>
      have : other ≠ c := fun e => hs (e ▸ hf)
      rw [members_of_slot hf, members_of_slot rfl, List.erase_cons_tail (by simpa using this)]

theorem Orderly.abandon (h : q.Orderly cs) (c : CommandRef) : (q.abandon c).2.Orderly cs := by
  obtain ⟨-, hslot, hline⟩ := abandon_eq q c
  by_cases hs : q.slot = some c
  · rw [hslot hs]
    exact h.release
  · have hm := members_abandon q c
    rw [hline hs] at hm ⊢
    refine ⟨h.idle_iff, hm ▸ h.nodup.erase c, fun c' hc' => h.queued c' (List.mem_of_mem_erase hc'),
      h.inflight⟩

/-! ## The end of an attempt -/

theorem reject_eq (q : Queue) (c : CommandRef) :
    q.reject c = if q.slot = some c then (true, q.release) else (false, q) := by
  unfold reject
  simp only [holds_iff]

theorem complete_eq (q : Queue) (cs : Commands) (c : CommandRef) (generation : Nat) :
    q.complete cs c generation =
      if q.slot = some c ∧
          ∃ command, cs.get? c = some command ∧ command.generation = generation then
        (true, q.release)
      else
        (false, q) := by
  unfold complete
  simp [holds_iff, Option.any_eq_true]

/-- An expiry does nothing, or it claims the slot's command for its caller and frees the slot. -/
theorem expire_cases (q : Queue) (cs : Commands) (limit now : Nat) :
    q.expire cs limit now = (none, q, cs) ∨
      ∃ c command, q.slot = some c ∧ cs.get? c = some command ∧ command.heldFor limit now = true ∧
        command.isComplete = false ∧
        q.expire cs limit now =
          (some c, q.release, cs.set c.index { command with sent := true, answered := true }) := by
  unfold expire
  split
  · exact .inl rfl
  · rename_i c hs
    split
    · exact .inl rfl
    · rename_i command hg
      unfold Command.markAll
      by_cases hh : command.heldFor limit now
      · cases hc : command.isComplete with
        | true => simp [hh]
        | false => exact .inr ⟨c, command, hs, hg, hh, hc, by simp [hh]⟩
      · simp [hh]

theorem Orderly.set_of_phase {changed : Command} (h : q.Orderly cs) (hg : cs.get? c = some command)
    (hp : changed.phase = command.phase) : q.Orderly (cs.set c.index changed) := by
  refine h.frame fun c' m command' hg' => ?_
  rw [Commands.get?_set hg]
  split
  · rename_i e
    subst e
    rw [hg] at hg'
    cases hg'
    exact ⟨changed, rfl, hp⟩
  · exact ⟨command', hg', rfl⟩

theorem Orderly.expire (h : q.Orderly cs) (limit now : Nat) :
    (q.expire cs limit now).2.1.Orderly (q.expire cs limit now).2.2 := by
  rcases expire_cases q cs limit now with he | ⟨c, command, -, hg, -, -, he⟩
  · rw [he]
    exact h
  · rw [he]
    exact h.release.set_of_phase hg rfl

end RouterFabric.Queue
