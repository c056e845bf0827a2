import RouterFabric.Proofs.Queue.Orderly

/-!
# First in, first accepted

A ledger follows a queue through any sequence of its operations. Every `enqueue` is an entry with
the next number, and the ledger notes which entries have been handed to the transport and which the
transport has accepted. The book is kept from what the operations report alone.

* `Line.members_after` : `enqueue` adds at the end, a reported removal deletes one command, and
  nothing else changes the slot followed by the line
* `Ledger.Reached.sound` : the book agrees with the queue, and nothing is noted ahead of an entry
  that is still in the queue before it
* `Ledger.Reached.disciplined` : hence entries are handed over and accepted in the order in which
  they came, and no two accepted ones are in the queue together
* `Ledger.accepted_twice` : an answer that comes late
-/

namespace RouterFabric.Queue

/-- The operations on a queue, with their arguments. -/
inductive Op
  | enqueue (c : CommandRef)
  | beginDrain (now : Nat)
  | submitted (c : CommandRef)
  | defer (c : CommandRef)
  | reject (c : CommandRef)
  | complete (c : CommandRef) (generation : Nat)
  | expire (limit now : Nat)
  | abandon (c : CommandRef)
  deriving DecidableEq, Repr

/-- A queue and the commands it refers to. -/
structure Line where
  queue : Queue
  commands : Commands
  deriving DecidableEq, Repr

namespace Line

/-- What an operation makes of a queue. -/
def after (l : Line) : Op → Line
  | .enqueue c => ⟨(l.queue.enqueue l.commands c).1, (l.queue.enqueue l.commands c).2⟩
  | .beginDrain now =>
    match l.queue.beginDrain l.commands now with
    | none => l
    | some (_, q, cs) => ⟨q, cs⟩
  | .submitted c => { l with queue := l.queue.submitted c }
  | .defer c => ⟨(l.queue.defer l.commands c).2.1, (l.queue.defer l.commands c).2.2⟩
  | .reject c => { l with queue := (l.queue.reject c).2 }
  | .complete c generation => { l with queue := (l.queue.complete l.commands c generation).2 }
  | .expire limit now =>
    ⟨(l.queue.expire l.commands limit now).2.1, (l.queue.expire l.commands limit now).2.2⟩
  | .abandon c => { l with queue := (l.queue.abandon c).2 }

/-- The command that an operation reports to have removed. -/
def removed? (l : Line) : Op → Option CommandRef
  | .reject c => if (l.queue.reject c).1 then some c else none
  | .complete c generation => if (l.queue.complete l.commands c generation).1 then some c else none
  | .expire limit now => (l.queue.expire l.commands limit now).1
  | .abandon c => if (l.queue.abandon c).1 then some c else none
  | _ => none

/-- Only a command that exists and is not in the queue may be enqueued; nothing else is asked. -/
def Admits (l : Line) : Op → Prop
  | .enqueue c => c ∉ l.queue.members ∧ ∃ command, l.commands.get? c = some command
  | _ => True

variable {l : Line}

/-- Every operation keeps a queue orderly. -/
theorem orderly_after (h : l.queue.Orderly l.commands) (op : Op) (ha : l.Admits op) :
    (l.after op).queue.Orderly (l.after op).commands := by
  cases op with
  | enqueue c =>
    obtain ⟨hc, command, hg⟩ := ha
    exact h.enqueue hc hg
  | beginDrain now =>
    simp only [after]
    split
    · exact h
    · rename_i c q cs hb
      exact h.beginDrain hb
  | submitted c => exact h.submitted c
  | defer c => exact h.defer c
  | reject c =>
    simp only [after, reject_eq]
    split
    · exact h.release
    · exact h
  | complete c generation =>
    simp only [after, complete_eq]
    split
    · exact h.release
    · exact h
  | expire limit now => exact h.expire limit now
  | abandon c => exact h.abandon c

theorem removed?_mem {c : CommandRef} {op : Op} (hr : l.removed? op = some c) :
    c ∈ l.queue.members := by
  cases op with
  | enqueue | beginDrain | submitted | defer => cases hr
  | reject c' =>
    simp only [removed?, reject_eq] at hr
    split at hr
    · rename_i hs
      cases hr
      exact mem_members.2 (.inl hs)
    · cases hr
  | complete c' generation =>
    simp only [removed?, complete_eq] at hr
    split at hr
    · rename_i hs
      cases hr
      exact mem_members.2 (.inl hs.1)
    · cases hr
  | expire limit now =>
    simp only [removed?] at hr
    rcases expire_cases l.queue l.commands limit now with he | ⟨c', command, hs, -, -, -, he⟩
    · rw [he] at hr
      cases hr
    · rw [he] at hr
      cases hr
      exact mem_members.2 (.inl hs)
  | abandon c' =>
    simp only [removed?, (abandon_eq l.queue c').1, decide_eq_true_eq] at hr
    split at hr
    · rename_i hm
      cases hr
      exact hm
    · cases hr

/-- What an operation makes of the slot followed by the line. -/
theorem members_after (h : l.queue.Orderly l.commands) (op : Op) :
    (l.after op).queue.members =
      match op, l.removed? op with
      | .enqueue c, _ => l.queue.members ++ [c]
      | _, some c => l.queue.members.erase c
      | _, none => l.queue.members := by
  have freed {c : CommandRef} (hs : l.queue.slot = some c) :
      l.queue.release.members = l.queue.members.erase c := by
    rw [members_release, members_of_slot hs, List.erase_cons_head]
  cases op with
  | enqueue c => exact members_enqueue _ l.commands _
  | beginDrain now =>
    simp only [after]
    split
    · rfl
    · rename_i c q cs hb
      exact h.members_beginDrain hb
  | submitted c => exact members_submitted _ _
  | defer c => exact members_defer _ l.commands _
  | reject c =>
    simp only [after, removed?, reject_eq]
    by_cases hs : l.queue.slot = some c
    · simp [hs, freed hs]
    · simp [hs]
  | complete c generation =>
    simp only [after, removed?, complete_eq]
    split
    · rename_i hs
      simp [freed hs.1]
    · rfl
  | expire limit now =>
    simp only [after, removed?]
    rcases expire_cases l.queue l.commands limit now with he | ⟨c, command, hs, -, -, -, he⟩
    · rw [he]
    · rw [he]
      exact freed hs
  | abandon c =>
    simp only [after, removed?, (abandon_eq l.queue c).1, members_abandon]
    by_cases hm : c ∈ l.queue.members
    · simp [hm]
    · simp [hm, List.erase_of_not_mem hm]

end Line

/-! ## The ledger -/

/-- A queue with the book of its entries. -/
structure Ledger where
  line : Line
  /-- the commands of the queue, each with the number of its entry -/
  entries : List (Nat × CommandRef) := []
  /-- the number of entries so far, which is the number of the next one -/
  entered : Nat := 0
  /-- the entries handed to the transport, in the order in which that happened -/
  offered : List Nat := []
  /-- the entries the transport has accepted, in the order in which that happened -/
  accepted : List Nat := []
  deriving DecidableEq, Repr

namespace Ledger

/-- The number under which a command stands in the queue. -/
def numberOf (l : Ledger) (c : CommandRef) : List Nat :=
  (l.entries.filter (·.2 = c)).map (·.1)

/-- Carries out an operation and books it. -/
def record (l : Ledger) (op : Op) : Ledger where
  line := l.line.after op
  entries :=
    match op, l.line.removed? op with
    | .enqueue c, _ => l.entries ++ [(l.entered, c)]
    | _, some c => l.entries.filter (·.2 ≠ c)
    | _, none => l.entries
  entered :=
    match op with
    | .enqueue _ => l.entered + 1
    | _ => l.entered
  offered :=
    match op with
    | .beginDrain now =>
      match l.line.queue.beginDrain l.line.commands now with
      | some (c, _) => l.offered ++ l.numberOf c
      | none => l.offered
    | _ => l.offered
  accepted :=
    match op with
    | .submitted c =>
      if l.line.queue.slot = some c ∧ l.line.queue.state = .draining then
        l.accepted ++ l.numberOf c
      else
        l.accepted
    | _ => l.accepted

/-- Another state of the commands in which those of the queue are still in the phases the queue has
put them in. Signals may come in between two operations, and new commands. -/
def SamePhases (l : Line) (cs : Commands) : Prop :=
  ∀ c ∈ l.queue.members, ∀ command, l.commands.get? c = some command →
    ∃ command', cs.get? c = some command' ∧ command'.phase = command.phase

/-- The ledgers that sequences of operations lead to, from an empty queue. -/
inductive Reached (cs : Commands) : Ledger → Prop
  | start : Reached cs { line := ⟨{}, cs⟩ }
  | next {l : Ledger} (op : Op) : Reached cs l → l.line.Admits op → Reached cs (l.record op)
  | other {l : Ledger} (cs' : Commands) : Reached cs l → SamePhases l.line cs' →
      Reached cs { l with line.commands := cs' }

/-- A list of entries, such as those accepted so far, in which nothing comes too early: it is in
order, and none of its entries is behind one that is still in the queue. -/
structure InTurn (noted : List Nat) (l : Ledger) : Prop where
  sorted : noted.Pairwise (· ≤ ·)
  known : ∀ n ∈ noted, n < l.entered
  first : ∀ n ∈ noted, ∀ e ∈ l.entries, n ≤ e.1

/-- The book agrees with the queue. -/
structure Sound (l : Ledger) : Prop where
  orderly : l.line.queue.Orderly l.line.commands
  members : l.entries.map (·.2) = l.line.queue.members
  sorted : l.entries.Pairwise (·.1 < ·.1)
  known : ∀ e ∈ l.entries, e.1 < l.entered
  offered : InTurn l.offered l
  accepted : InTurn l.accepted l

variable {l : Ledger} {cs : Commands} {noted : List Nat} {op : Op}

theorem InTurn.of_sublist {l' : Ledger} (h : InTurn noted l) (hn : l.entered = l'.entered)
    (hs : l'.entries.Sublist l.entries) : InTurn noted l' where
  sorted := h.sorted
  known := hn ▸ h.known
  first n hnoted e he := h.first n hnoted e (hs.mem he)

theorem InTurn.of_enter {l' : Ledger} {c : CommandRef} (h : InTurn noted l)
    (hn : l'.entered = l.entered + 1) (hs : l'.entries = l.entries ++ [(l.entered, c)]) :
    InTurn noted l' where
  sorted := h.sorted
  known n hnoted := by
    have := h.known n hnoted
    omega
  first n hnoted e he := by
    rw [hs] at he
    rcases List.mem_append.1 he with he | he
    · exact h.first n hnoted e he
    · rw [List.mem_singleton.1 he]
      exact Nat.le_of_lt (h.known n hnoted)

/-- The first entry may be noted next. -/
theorem InTurn.note {l' : Ledger} {e : Nat × CommandRef} {rest : List (Nat × CommandRef)}
    (h : InTurn noted l) (hs : l.Sound) (he : l.entries = e :: rest) (hn : l'.entered = l.entered)
    (hl : l'.entries = l.entries) : InTurn (noted ++ [e.1]) l' where
  sorted := by
    refine List.pairwise_append.2 ⟨h.sorted, List.pairwise_singleton _ _, fun n hnoted m hm => ?_⟩
    rw [List.mem_singleton.1 hm]
    exact h.first n hnoted e (by rw [he]; exact List.mem_cons_self)
  known n hnoted := by
    rw [hn]
    rcases List.mem_append.1 hnoted with hnoted | hnoted
    · exact h.known n hnoted
    · rw [List.mem_singleton.1 hnoted]
      exact hs.known e (by rw [he]; exact List.mem_cons_self)
  first n hnoted e' he' := by
    rw [hl] at he'
    rcases List.mem_append.1 hnoted with hnoted | hnoted
    · exact h.first n hnoted e' he'
    · rw [List.mem_singleton.1 hnoted]
      have hsorted := hs.sorted
      rw [he] at hsorted he'
      rcases List.mem_cons.1 he' with rfl | he'
      · exact Nat.le_refl _
      · exact Nat.le_of_lt ((List.pairwise_cons.1 hsorted).1 e' he')

/-- The command at the front of the queue has the number of the first entry. -/
theorem Sound.front {c : CommandRef} {others : List CommandRef} (h : l.Sound)
    (hm : l.line.queue.members = c :: others) :
    ∃ e rest, l.entries = e :: rest ∧ l.numberOf c = [e.1] := by
  have hmap := h.members
  rw [hm] at hmap
  obtain ⟨e, rest, he, rfl, rfl⟩ := List.map_eq_cons_iff.1 hmap
  have hn := h.orderly.nodup
  rw [hm, List.nodup_cons] at hn
  refine ⟨e, rest, he, ?_⟩
  have others : rest.filter (·.2 = e.2) = [] := by
    refine List.filter_eq_nil_iff.2 fun e' he' => ?_
    simp only [decide_eq_true_eq]
    exact fun same => hn.1 (same ▸ List.mem_map_of_mem he')
  unfold numberOf
  rw [he, List.filter_cons_of_pos (by simp), others]
  rfl

/-! ## Runs -/

theorem numbers_kept (h : l.Sound) (op : Op) :
    (l.record op).entries.map (·.2) = (l.record op).line.queue.members := by
  have hm := Line.members_after h.orderly op
  have hmap := h.members
  have hkeep (c : CommandRef) :
      (l.entries.filter (·.2 ≠ c)).map (·.2) = l.line.queue.members.erase c := by
    rw [h.orderly.nodup.erase_eq_filter, ← hmap, List.filter_map]
    congr 1
    refine List.filter_congr fun e _ => ?_
    simp [bne, Bool.beq_eq_decide_eq]
  simp only [record]
  rw [hm]
  cases op with
  | enqueue c => simp [hmap]
  | beginDrain | submitted | defer => exact hmap
  | reject | complete | expire | abandon =>
    split
    · rename_i heq
      cases heq
    · exact hkeep _
    · exact hmap

theorem entries_record (l : Ledger) (op : Op) :
    (∃ c, op = .enqueue c ∧ (l.record op).entered = l.entered + 1 ∧
        (l.record op).entries = l.entries ++ [(l.entered, c)]) ∨
      ((l.record op).entered = l.entered ∧ (l.record op).entries.Sublist l.entries) := by
  cases op with
  | enqueue c => exact .inl ⟨c, rfl, rfl, rfl⟩
  | beginDrain | submitted | defer => exact .inr ⟨rfl, List.Sublist.refl _⟩
  | reject | complete | expire | abandon =>
    refine .inr ⟨rfl, ?_⟩
    simp only [record]
    split
    · rename_i heq
      cases heq
    · exact List.filter_sublist
    · exact List.Sublist.refl _

/-- A note made before an operation is still in turn after it. -/
theorem InTurn.record (h : InTurn noted l) (op : Op) : InTurn noted (l.record op) := by
  rcases entries_record l op with ⟨c, -, hn, hs⟩ | ⟨hn, hs⟩
  · exact h.of_enter hn hs
  · exact h.of_sublist hn.symm hs

theorem offered_record (h : l.Sound) (op : Op) : InTurn (l.record op).offered (l.record op) := by
  cases op with
  | beginDrain now =>
    cases hb : l.line.queue.beginDrain l.line.commands now with
    | none =>
      have same : (l.record (.beginDrain now)).offered = l.offered := by simp [Ledger.record, hb]
      rw [same]
      exact h.offered.record _
    | some given =>
      obtain ⟨c, line⟩ := given
      obtain ⟨hs, rest, hp, -⟩ := beginDrain_eq_some hb
      have hfree := members_of_free (h.orderly.idle_iff.1 hs)
      obtain ⟨e, others, he, hnum⟩ := h.front (hfree.trans hp)
      have noted : (l.record (.beginDrain now)).offered = l.offered ++ [e.1] := by
        simp [Ledger.record, hb, hnum]
      rw [noted]
      exact h.offered.note h he rfl rfl
  | enqueue | submitted | defer | reject | complete | expire | abandon => exact h.offered.record _

theorem accepted_record (h : l.Sound) (op : Op) : InTurn (l.record op).accepted (l.record op) := by
  cases op with
  | submitted c =>
    by_cases hs : l.line.queue.slot = some c ∧ l.line.queue.state = .draining
    · obtain ⟨e, others, he, hnum⟩ := h.front (members_of_slot hs.1)
      have noted : (l.record (.submitted c)).accepted = l.accepted ++ [e.1] := by
        simp [Ledger.record, hs, hnum]
      rw [noted]
      exact h.accepted.note h he rfl rfl
    · have same : (l.record (.submitted c)).accepted = l.accepted := by simp [Ledger.record, hs]
      rw [same]
      exact h.accepted.record _
  | enqueue | beginDrain | defer | reject | complete | expire | abandon => exact h.accepted.record _

theorem sorted_record (h : l.Sound) (op : Op) :
    (l.record op).entries.Pairwise (·.1 < ·.1) ∧
      ∀ e ∈ (l.record op).entries, e.1 < (l.record op).entered := by
  rcases entries_record l op with ⟨c, -, hn, hs⟩ | ⟨hn, hs⟩
  · rw [hs, hn]
    refine ⟨List.pairwise_append.2 ⟨h.sorted, List.pairwise_singleton _ _, fun e he e' he' => ?_⟩,
      fun e he => ?_⟩
    · rw [List.mem_singleton.1 he']
      exact h.known e he
    · rcases List.mem_append.1 he with he | he
      · exact Nat.lt_succ_of_lt (h.known e he)
      · rw [List.mem_singleton.1 he]
        exact Nat.lt_succ_self _
  · exact ⟨h.sorted.sublist hs, fun e he => hn ▸ h.known e (hs.mem he)⟩

/-- One operation keeps the book right. -/
theorem Sound.record (h : l.Sound) (op : Op) (ha : l.line.Admits op) : (l.record op).Sound where
  orderly := Line.orderly_after h.orderly op ha
  members := numbers_kept h op
  sorted := (sorted_record h op).1
  known := (sorted_record h op).2
  offered := offered_record h op
  accepted := accepted_record h op

/-- What happens to the commands between two operations does not touch the book. -/
theorem Sound.other {cs' : Commands} (h : l.Sound) (same : SamePhases l.line cs') :
    Sound { l with line.commands := cs' } where
  orderly := h.orderly.frame same
  members := h.members
  sorted := h.sorted
  known := h.known
  offered := ⟨h.offered.sorted, h.offered.known, h.offered.first⟩
  accepted := ⟨h.accepted.sorted, h.accepted.known, h.accepted.first⟩

/-- The book is right after every sequence of operations. -/
theorem Reached.sound (h : Reached cs l) : l.Sound := by
  induction h with
  | start =>
    refine ⟨orderly_empty cs, rfl, List.Pairwise.nil, ?_, ⟨List.Pairwise.nil, ?_, ?_⟩,
      ⟨List.Pairwise.nil, ?_, ?_⟩⟩ <;> intro _ hn <;> cases hn
  | next op _ ha ih => exact ih.record op ha
  | other cs' _ same ih => exact ih.other same

/-- An operation deletes one command from a list and leaves the others as they stand. -/
def Deletes (c : CommandRef) (before after : List CommandRef) : Prop :=
  ∃ front back, before = front ++ c :: back ∧ after = front ++ back

/-- What the operation may do to the slot followed by the line. -/
def Effect (l : Line) (op : Op) : Prop :=
  let before := l.queue.members
  let after := (l.after op).queue.members
  match op with
  | .enqueue c => after = before ++ [c]
  | .beginDrain _ | .submitted _ | .defer _ => after = before
  | .reject _ | .complete _ _ | .expire _ _ | .abandon _ =>
    match l.removed? op with
    | some c => Deletes c before after
    | none => after = before

theorem effect_of_orderly {line : Line} (h : line.queue.Orderly line.commands) (op : Op) :
    Effect line op := by
  have hm := Line.members_after h op
  have hr : ∀ c, line.removed? op = some c →
      Deletes c line.queue.members (line.queue.members.erase c) := fun c hc => by
    obtain ⟨front, back, -, hb, he⟩ := List.exists_erase_eq (Line.removed?_mem hc)
    exact ⟨front, back, hb, he⟩
  unfold Effect
  cases op with
  | enqueue | beginDrain | submitted | defer => exact hm
  | reject | complete | expire | abandon =>
    simp only
    split
    · rename_i c hc
      rw [hc] at hm
      rw [hm]
      exact hr c hc
    · rename_i hc
      rw [hc] at hm
      exact hm

/-- What holds of a queue and the commands that went through it, after any operations. -/
structure Disciplined (l : Ledger) : Prop where
  /-- the state says whether the slot is free -/
  idle_iff : l.line.queue.state = .idle ↔ l.line.queue.slot = none
  /-- no command is in the queue twice -/
  nodup : l.line.queue.members.Nodup
  queued : ∀ c ∈ l.line.queue.pending,
    ∃ command, l.line.commands.get? c = some command ∧ command.phase = .queued
  inflight : ∀ c, l.line.queue.slot = some c →
    ∃ command, l.line.commands.get? c = some command ∧ command.phase = .inflight
  /-- what the next operation may do -/
  effect : ∀ op, Effect l.line op
  /-- the entries are those of the queue, in the order in which they came -/
  entries : l.entries.map (·.2) = l.line.queue.members ∧ l.entries.Pairwise (·.1 < ·.1)
  /-- handed over and accepted in the order of the entries, a deferred one perhaps again -/
  in_order : l.offered.Pairwise (· ≤ ·) ∧ l.accepted.Pairwise (· ≤ ·)
  /-- of the entries in the queue only the first can have been accepted -/
  one_accepted : ∀ e ∈ l.entries, e.1 ∈ l.accepted → l.entries.head? = some e

/-- **Whatever is done to a queue, and however often the transport is busy, its commands are
accepted in the order in which they came and never two at a time.** -/
theorem Reached.disciplined (h : Reached cs l) : l.Disciplined := by
  have hs := h.sound
  refine ⟨hs.orderly.idle_iff, hs.orderly.nodup, hs.orderly.queued, hs.orderly.inflight,
    effect_of_orderly hs.orderly, ⟨hs.members, hs.sorted⟩, ⟨hs.offered.sorted, hs.accepted.sorted⟩,
    fun e he hacc => ?_⟩
  cases hl : l.entries with
  | nil =>
    rw [hl] at he
    cases he
  | cons first rest =>
    have hsorted := hs.sorted
    rw [hl] at hsorted he
    rcases List.mem_cons.1 he with rfl | he
    · rfl
    · have hlt := (List.pairwise_cons.1 hsorted).1 e he
      have hle := hs.accepted.first e.1 hacc first (by rw [hl]; exact List.mem_cons_self)
      omega

/-- Two reads that no queue knows. -/
def twoReads : Commands :=
  [{ id := ⟨1⟩, node := ⟨0⟩, route := ⟨0⟩, kind := .read, address := ⟨.router, 0, 0, 1, 0⟩,
      payload := [] },
    { id := ⟨2⟩, node := ⟨0⟩, route := ⟨0⟩, kind := .read, address := ⟨.router, 0, 5, 1, 0⟩,
      payload := [] }]

/-- The transport is busy for the first of two commands, and a completion for the second comes too
early. -/
theorem disciplined_busy_once :
    ∃ l, Reached twoReads l ∧ l.offered = [0, 0, 1] ∧ l.accepted = [0, 1] ∧ l.Disciplined := by
  have begun : Reached twoReads { line := ⟨{}, twoReads⟩ } := .start
  have entered := (begun.next (.enqueue ⟨0⟩) ⟨by decide, _, rfl⟩).next (.enqueue ⟨1⟩)
    ⟨by decide, _, rfl⟩
  have deferred := (entered.next (.beginDrain 0) trivial).next (.defer ⟨0⟩) trivial
  have accepted := (deferred.next (.beginDrain 0) trivial).next (.submitted ⟨0⟩) trivial
  have freed := (accepted.next (.complete ⟨1⟩ 0) trivial).next (.complete ⟨0⟩ 0) trivial
  have last := (freed.next (.beginDrain 0) trivial).next (.submitted ⟨1⟩) trivial
  exact ⟨_, last, by decide, by decide, last.disciplined⟩

/-- The answer for an attempt is matched with the command alone. If it comes when the attempt has
been withdrawn and the next one accepted, a busy transport has that next one accepted twice. -/
theorem accepted_twice : ∃ l, Reached twoReads l ∧ l.accepted = [1, 1] := by
  have begun : Reached twoReads { line := ⟨{}, twoReads⟩ } := .start
  have offered := (begun.next (.enqueue ⟨0⟩) ⟨by decide, _, rfl⟩).next (.beginDrain 0) trivial
  have withdrawn := offered.next (.abandon ⟨0⟩) trivial
  have renewed := withdrawn.other (twoReads.update ⟨0⟩ (·.beginAttempt 1)) (List.forall_mem_nil _)
  have entered := renewed.next (.enqueue ⟨0⟩) ⟨by decide, _, rfl⟩
  have accepted := (entered.next (.beginDrain 0) trivial).next (.submitted ⟨0⟩) trivial
  -- the transport was busy for the attempt that has been withdrawn
  have deferred := accepted.next (.defer ⟨0⟩) trivial
  exact ⟨_, (deferred.next (.beginDrain 0) trivial).next (.submitted ⟨0⟩) trivial, by decide⟩

end Ledger

end RouterFabric.Queue
