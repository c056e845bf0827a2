import RouterFabric.Proofs.Attempts
import RouterFabric.Proofs.Engine.Armed
import RouterFabric.Proofs.Engine.Endings

/-!
# What becomes of a command

A command lives as long as it is in a queue or is about to end. Whatever changes an attempt changes
one that lives, and nothing brings a command back to life but its next attempt.

* `Engine.Fate` : what a move may do to a command
* `Run.fate` : every move does one of these things
* `Run.lives_was` : a command that lives has lived before, or has begun an attempt
-/

namespace RouterFabric

open Engine

namespace Engine

variable {e e' mid : Engine} {m : Move} {c c' : CommandRef} {old new : Command}

theorem Forced.spared {cs : List (RouterRef × CommandRef)} (f : Forced e cs e') (h : e.Stored)
    (hq : ¬ e.Queued c) : e.Spared e' c := by
  induction f with
  | none a => exact a.commands c
  | skip a _ ih =>
    exact (a.commands c).trans (ih (h.of_alike a) fun hq' => hq ((a.passes h).queued c hq'))
  | next hs hc _ ih =>
    refine (hc.others c ?_).trans (ih (hc.passes_forced h).stored fun hq' => hq (hc.queued hq'))
    rintro rfl
    exact hq (queued_of_slot hs)

theorem Forced.attempt {cs : List (RouterRef × CommandRef)} (f : Forced e cs e')
    (c : CommandRef) : e'.attempt c = e.attempt c := by
  have of_spared {e e' : Engine} (s : e.Spared e' c) := attempt_of_substance s.substance
  induction f with
  | none a => exact of_spared (a.commands c)
  | skip a _ ih => exact ih.trans (of_spared (a.commands c))
  | @next e e' e'' cs r c' old hs hc _ ih =>
    refine ih.trans ?_
    by_cases hne : c = c'
    · subst hne
      rw [attempt_of_command hc.before, attempt_of_command hc.after]
      rfl
    · exact of_spared (hc.others c hne)

theorem Cut.spared {rs : List RouterRef} (k : Cut e rs e') : e.Spared e' c := by
  induction k with
  | none a => exact a.commands c
  | next p _ ih =>
    refine Spared.trans (.of_eq ?_) ih
    unfold command?
    rw [p.commands]

/-- What becomes of a command: nothing but that the note of its end may be taken, or its next
attempt begins, or it was in the midst of an attempt and this may have ended. -/
inductive Fate (e e' : Engine) (c : CommandRef) : Prop
  | spared : e.Spared e' c → Fate e e' c
  | commences (r : RouterRef) : e.Commences e' r c → Fate e e' c
  | lived : e.Lives c → e'.attempt c = e.attempt c → Fate e e' c

theorem Changed.fate {left : Bool} (a : e.Changed e' c' old new left) (hlives : e.Lives c')
    (hgeneration : new.generation = old.generation) (hseq : new.seq = old.seq) (c : CommandRef) :
    e.Fate e' c := by
  by_cases hne : c = c'
  · subst hne
    refine .lived hlives ?_
    rw [attempt_of_command a.before, attempt_of_command a.after, hgeneration, hseq]
  · exact .spared (a.others c hne)

theorem Sound.fate_inner (h : e.Sound) (k : Inner e m e') (hlt : c.index < e.commands.length) :
    e.Fate e' c := by
  have hstored := h.toStored
  cases k with
  | quiet | returned | finished | asked | resumed | dropped | unframed | exhausted | watched
  | settled | unclaimed | unregistered =>
    rename_i a
    exact .spared (a.commands c)
  | expired r c' old tasks below he he' hquiet hfits a =>
    exact a.fate (.inr ⟨r, he ▸ List.mem_cons_self⟩) rfl rfl c
  | refused r c' old fault tasks below he he' hquiet hfits hslot a =>
    exact a.fate (.inl (queued_of_slot hslot)) rfl rfl c
  | noted r c' old signal words he' hslot signalled hdone a =>
    exact a.fate (.inl (queued_of_slot hslot)) rfl rfl c
  | completed r c' old signal words tasks he' hquiet hfits hslot signalled hdone a =>
    exact a.fate (.inl (queued_of_slot hslot)) rfl rfl c
  | interrupted r c' old event tasks he' hquiet hfits hslot a =>
    exact a.fate (.inl (queued_of_slot hslot)) rfl rfl c
  | unlinked r next below he he' parted hm =>
    exact .spared (.of_eq (congrArg (Commands.get? · c) parted.commands))
  | rooted linked t below he he' joined ht =>
    exact .spared (.of_eq (congrArg (Commands.get? · c) joined.commands))
  | framed r command watching below he he' added =>
    obtain ⟨command', hc⟩ := Option.isSome_iff_exists.1 (Commands.get?_isSome_iff.2 hlt)
    exact .spared (.of_eq ((added.command_kept hc).trans hc.symm))
  | issued r command style t mid router below he he' issued added begun =>
    obtain ⟨command', hc⟩ := Option.isSome_iff_exists.1 (Commands.get?_isSome_iff.2 hlt)
    have hne : c ≠ ⟨e.commands.length⟩ := by
      rintro rfl
      exact Nat.lt_irrefl _ hlt
    have first : e.Spared mid c := .of_eq ((added.command_kept hc).trans hc.symm)
    exact .spared (first.trans (begun.others c hne))
  | retried w watching left router old below he he' begun =>
    obtain ⟨⟨hattends, hfresh, -⟩, -⟩ := h.tasks (.attempt w) (he ▸ List.mem_cons_self)
    obtain ⟨-, command, hc, howns, -⟩ := hattends
    rw [begun.before] at hc
    cases hc
    by_cases hne : c = w.command
    · exact hne ▸ .commences w.router (begun.commences hfresh howns)
    · exact .spared (begun.others c hne)
  | withdrawn w deadline mid old expired t tasks below he he' hquiet hfits ht hmem changed forced =>
    have hmid := (changed.passes hstored rfl (fun _ => id) nofun).stored
    have hw : e.Queued w.command := ⟨w.router, hmem⟩
    by_cases hq : e.Queued c
    · refine .lived (.inl hq) ((forced.attempt c).trans ?_)
      by_cases hne : c = w.command
      · rw [hne, attempt_of_command changed.before, attempt_of_command changed.after]
      · exact attempt_of_substance (changed.others c hne).substance
    · refine .spared ((changed.others c ?_).trans (forced.spared hmid ?_))
      · rintro rfl
        exact hq hw
      · exact fun hq' => hq (changed.queued hq')

theorem Sound.fate_called {call : Call} (h : e.Sound) (k : Called e call e') (c : CommandRef) :
    e.Fate e' c := by
  cases k with
  | answered result hresult he' a => exact .spared (a.commands c)
  | operated r operation router settings hr he' a => exact .spared (a.commands c)
  | attached parent route linked t he' joined ht =>
    exact .spared (.of_eq (congrArg (Commands.get? · c) joined.commands))
  | detached r expired mid rs tasks result he' hquiet hfits forced cut hempty =>
    by_cases hq : e.Queued c
    · exact .lived (.inl hq) ((attempt_of_substance cut.spared.substance).trans (forced.attempt c))
    · exact .spared ((forced.spared h.toStored hq).trans cut.spared)

/-- A command that lives has lived before, unless its next attempt has begun. -/
theorem Arises.expire_was {r : RouterRef} (a : Arises e m e' (.expire r c)) : e.Lives c := by
  cases a with
  | kept ht => exact .inr ⟨r, ht⟩
  | plain hplain => cases hplain
  | asked r' request asked => cases asked
  | told old ending ht =>
    obtain ⟨tag, -, heq⟩ := List.mem_map.1 ht
    cases heq
  | forced r' c' heq hq =>
    cases heq
    exact .inl hq

end Engine

variable {settings : Settings} {turns : List Turn} {e e' : Engine} {m : Move} {c : CommandRef}

theorem Run.fate (h : Run settings turns e) (ha : ∀ call, m = .call call → e.Allows call)
    (hm : e.move? m = some e') (hlt : c.index < e.commands.length) : e.Fate e' c := by
  cases h.moved ha hm with
  | inner hcall hcollect k => exact h.sound.fate_inner k hlt
  | called k => exact h.sound.fate_called k c
  | collected result below he he' a => exact .spared (a.commands c)

theorem Run.lives_was (h : Run settings turns e) (ha : ∀ call, m = .call call → e.Allows call)
    (hm : e.move? m = some e') (hl : e'.Lives c) : e.Lives c ∨ ∃ r, e.Commences e' r c := by
  rcases hl with hq | ⟨r, ht⟩
  · rcases h.sound.attempts ha hm with
      steady | ⟨r, c', commences⟩ | ⟨r, c', old, signal, words, -, -, a⟩
    · exact .inl (.inl (steady.queued hq))
    · by_cases hne : c = c'
      · exact .inr ⟨r, hne ▸ commences⟩
      · exact .inl (.inl (commences.queued hq hne))
    · exact .inl (.inl (a.queued hq))
  · left
    cases h.moved ha hm with
    | inner hcall hcollect k => exact (k.arises h.sound.toStored ht).expire_was
    | called k => exact (k.arises h.sound.toStored ht).expire_was
    | collected result below he he' a =>
      refine .inr ⟨r, ?_⟩
      rw [he]
      exact List.mem_cons_of_mem _ (he' ▸ ht)

end RouterFabric
