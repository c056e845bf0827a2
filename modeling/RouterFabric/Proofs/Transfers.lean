import RouterFabric.Proofs.Attempts
import RouterFabric.Proofs.Engine.Endings

/-!
# What commands are made for

A command is made when a program asks for a transfer whose address is a valid one, and keeps what it
was made with. So whatever holds of valid addresses holds of the addresses of all commands.

* `Command.MadeFor` : the transfer that a command was made for
* `Inner.command_was` : where a command comes from
* `Run.made_for`, `Run.dwords_le` : every command was made for a transfer, and asks for no more
  words than a packet holds
-/

namespace RouterFabric

open Engine

/-- The command was made for a transfer whose address is a valid one. -/
def Command.MadeFor (command : Command) (t : Transfer) : Prop :=
  command.kind = t.kind ∧ t.address = .ok command.address

theorem Command.MadeFor.of_made {command command' : Command} {t : Transfer}
    (h : command.MadeFor t) (hm : command'.made = command.made) : command'.MadeFor t := by
  have hkind : command'.kind = command.kind := congrArg (·.kind) hm
  have haddress : command'.address = command.address := congrArg (·.address) hm
  refine ⟨hkind.trans h.1, ?_⟩
  rw [haddress]
  exact h.2

theorem Address.dwords_of_make {space : Space} {adapter offset dwords : Nat} {address : Address}
    (h : Address.make space adapter offset dwords = .ok address) :
    address.dwords ≤ Limit.maxDwords := by
  unfold Address.make at h
  split at h
  · cases h
  · split at h
    · cases h
    · split at h
      · cases h
      · split at h
        · cases h
        · cases h
          simp only
          omega

theorem Command.MadeFor.dwords_le {command : Command} {t : Transfer} (h : command.MadeFor t) :
    command.address.dwords ≤ Limit.maxDwords := by
  obtain ⟨-, haddress⟩ := h
  cases t with
  | read space adapter offset dwords => exact Address.dwords_of_make haddress
  | write space adapter offset data =>
    unfold Transfer.address at haddress
    simp only at haddress
    split at haddress
    · cases haddress
    · exact Address.dwords_of_make haddress

namespace Engine

variable {e e' : Engine} {m : Move} {c c' : CommandRef} {command old new : Command} {t : Task}

/-! ## Where commands come from -/

theorem Changed.command_was {left : Bool} (a : e.Changed e' c' old new left)
    (hc : e'.command? c = some command) : ∃ was, e.command? c = some was := by
  by_cases hcc : c = c'
  · exact ⟨old, hcc ▸ a.before⟩
  · obtain ⟨was, hwas, -⟩ := (a.others c hcc).was hc
    exact ⟨was, hwas⟩

theorem Mute.command_was (h : e.Mute e') (hc : e'.command? c = some command) :
    ∃ was, e.command? c = some was := by
  obtain ⟨was, hwas, -⟩ := h c command hc
  exact ⟨was, hwas⟩

/-- A command has been there before, or is made of one that has waited for its frame. -/
theorem Inner.command_was (k : Inner e m e') (hc : e'.command? c = some command) :
    (∃ was, e.command? c = some was) ∨
      ∃ r waiting style, .allocate r waiting style ∈ e.stack ∧ command.made = waiting.made := by
  cases k with
  | quiet | returned | finished | asked | resumed | dropped | unframed | exhausted | watched
  | settled | unclaimed | unregistered =>
    rename_i a
    exact .inl (a.mute.command_was hc)
  | expired | refused | completed | interrupted | noted =>
    rename_i a
    exact .inl (a.command_was hc)
  | unlinked r next below he he' parted hm =>
    exact .inl ((mute_of_commands parted.commands).command_was hc)
  | framed r new watching below he he' added =>
    rcases added.was hc with hwas | ⟨-, rfl⟩
    · exact .inl ⟨command, hwas⟩
    · exact .inr ⟨r, command, _, he ▸ List.mem_cons_self, rfl⟩
  | issued r new style t mid router below he he' issued added begun =>
    obtain ⟨middle, hmid, -⟩ := begun.mute c command hc
    obtain ⟨command', hc', hmade, -⟩ := begun.extends.commands c middle hmid
    rw [hc, Option.some.injEq] at hc'
    subst hc'
    rcases added.was hmid with hwas | ⟨-, rfl⟩
    · exact .inl ⟨middle, hwas⟩
    · exact .inr ⟨r, new, style, he ▸ List.mem_cons_self, hmade⟩
  | retried w watching left router old below he he' begun =>
    exact .inl (begun.mute.command_was hc)
  | withdrawn w deadline mid old expired t tasks below he he' hquiet hfits ht hmem changed forced =>
    have first := mute_of_others changed.before changed.after (.refl old) changed.others
    exact .inl ((first.trans forced.mute).command_was hc)
  | rooted linked t below he he' joined ht =>
    exact .inl ((mute_of_commands joined.commands).command_was hc)

/-! ## Every command has its transfer -/

/-- Every command was made for a transfer, and so is every one that waits for its frame. -/
structure Purposed (e : Engine) : Prop where
  commands : ∀ c command, e.command? c = some command → ∃ t, command.MadeFor t
  waiting : ∀ r command style, .allocate r command style ∈ e.stack → ∃ t, command.MadeFor t

/-- A command that was there before was made for what it was made for. -/
theorem Purposed.kept (h : e.Purposed) (x : e.Extends e') {was : Command}
    (hwas : e.command? c = some was) (hc : e'.command? c = some command) :
    ∃ t, command.MadeFor t := by
  obtain ⟨t, ht⟩ := h.commands c was hwas
  obtain ⟨command', hc', hmade, -⟩ := x.commands c was hwas
  rw [hc, Option.some.injEq] at hc'
  subst hc'
  exact ⟨t, ht.of_made hmade⟩

/-- A command that waits for its frame has waited before, or a program has just asked for its
transfer. -/
theorem Purposed.arises {r : RouterRef} {style : Style} (h : e.Purposed)
    (a : Arises e m e' (.allocate r command style)) : ∃ t, command.MadeFor t := by
  cases a with
  | kept ht => exact h.waiting r command style ht
  | plain hplain => cases hplain
  | asked r' request asked =>
    cases asked with
    | transfer howns hmade hkind haddress => exact ⟨_, hkind, haddress⟩
  | told old ending ht =>
    obtain ⟨tag, -, heq⟩ := List.mem_map.1 ht
    cases heq
  | forced r' c' heq => cases heq

theorem Purposed.of_inner (h : e.Purposed) (hs : e.Stored) (x : e.Extends e')
    (k : Inner e m e') : e'.Purposed where
  commands c command hc := by
    rcases k.command_was hc with ⟨was, hwas⟩ | ⟨r, waiting, style, hwaits, hmade⟩
    · exact h.kept x hwas hc
    · obtain ⟨t, ht⟩ := h.waiting r waiting style hwaits
      exact ⟨t, ht.of_made hmade⟩
  waiting _ _ _ hwaits := h.arises (k.arises hs hwaits)

theorem Purposed.of_called {call : Call} (h : e.Purposed) (hs : e.Stored) (x : e.Extends e')
    (k : Called e call e') : e'.Purposed where
  commands c command hc := by
    obtain ⟨was, hwas⟩ := (mute_called k).command_was hc
    exact h.kept x hwas hc
  waiting _ _ _ hwaits := h.arises (k.arises hs hwaits)

end Engine

variable {settings : Settings} {turns : List Turn} {e : Engine} {c : CommandRef} {command : Command}

theorem Run.purposed (h : Run settings turns e) : e.Purposed := by
  induction h with
  | start =>
    refine ⟨fun c command hc => ?_, fun r command style hwaits => ?_⟩
    · rw [command?_opening] at hc
      cases hc
    · rcases stack_opening settings with hs | ⟨failure, hs⟩ <;> simp [hs] at hwaits
  | next prior ha hm ih =>
    have x := prior.sound.extends ha hm
    cases prior.moved ha hm with
    | inner hcall hcollect k => exact ih.of_inner prior.sound.toStored x k
    | called k => exact ih.of_called prior.sound.toStored x k
    | collected result below he he' a =>
      refine ⟨fun c command hc => ?_, fun r command style hwaits => ?_⟩
      · obtain ⟨was, hwas⟩ := a.mute.command_was hc
        exact ih.kept x hwas hc
      · refine ih.waiting r command style ?_
        rw [he]
        exact List.mem_cons_of_mem _ (he' ▸ hwaits)

/-- **Every command was made for a transfer** with a valid address, which it has kept. -/
theorem Run.made_for (h : Run settings turns e) (hc : e.command? c = some command) :
    ∃ t, command.MadeFor t :=
  h.purposed.commands c command hc

/-- No command asks for more words than a packet holds. -/
theorem Run.dwords_le (h : Run settings turns e) (hc : e.command? c = some command) :
    command.address.dwords ≤ Limit.maxDwords := by
  obtain ⟨t, ht⟩ := h.made_for hc
  exact ht.dwords_le

end RouterFabric
