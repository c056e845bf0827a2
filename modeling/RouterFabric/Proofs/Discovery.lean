import RouterFabric.Proofs.Detachments
import RouterFabric.Proofs.Provenance
import RouterFabric.Proofs.Tree.Leaf

/-!
# Attaching a router

A router is linked below another one before it is known to be there. Its discovery reads nine words
of its registers, and then either enrols it or takes it out of the tree again, whatever comes of the
read. While nobody else calls, nothing else happens to the tree; so an attachment that fails leaves
all routers where they were, and one that succeeds adds the one router.

* `Run.length_le_of_completes` : a read is given no more words than it asks for
* `Procedure.Discovers`, `discovers` : what follows the read of a discovery
* `Attachment.At`, `Attachment.At.further` : how far an attachment has come
* `Engine.Restores`, `Engine.Gains` : what an attachment comes to
* `Run.attaches` : an attachment fails and leaves everything as it was, or adds one router
-/

namespace RouterFabric

open Engine

variable {settings : Settings} {turns course more : List Turn} {e e' e₀ : Engine} {m : Move}
  {r parent : RouterRef} {c : CommandRef} {command old : Command} {words : List UInt32}
  {route : Route} {result : Outcome Answer} {identity : Identity} {failure : Failure}
  {reply : Reply} {chores part below : List Task} {w : Waiter} {t : Task}

/-! ## How many words a read is given -/

theorem Engine.Signalled.length_noted {signal : Signal} {received : Option (List UInt32)}
    (s : e.Signalled r old m signal received)
    (h : (old.response.getD []).length ≤ old.address.dwords) :
    ((old.noted signal received).response.getD []).length ≤ old.address.dwords := by
  cases s with
  | sent => exact h
  | answered =>
    cases hkind : old.kind with
    | write => simpa [Command.noted, hkind] using h
    | read => simp [Command.noted, hkind]

/-- The words that are noted for an attempt in a queue are no more than it asks for. -/
theorem Run.measured (h : Run settings turns e) : ∀ c command, e.Queued c →
    e.command? c = some command →
    (command.response.getD []).length ≤ command.address.dwords := by
  induction h with
  | start =>
    intro c command _ hc
    rw [command?_opening] at hc
    cases hc
  | @next turns e e' m prior ha hm ih =>
    intro c command hq hc
    -- an attempt as it was before
    have kept (hbefore : e.Queued c)
        (hs : (e'.command? c).map Command.substance = (e.command? c).map Command.substance) :
        (command.response.getD []).length ≤ command.address.dwords := by
      obtain ⟨old, hold, hsub⟩ := exists_of_map_eq hs.symm hc
      have hresponse : old.response = command.response := congrArg (·.response) hsub
      have haddress : old.address = command.address := congrArg (·.address) hsub
      rw [← hresponse, ← haddress]
      exact ih c old hbefore hold
    rcases prior.sound.attempts ha hm with
      s | ⟨r, c', k⟩ | ⟨r, c', old, signal, received, hslot, s, a⟩
    · exact kept (s.queued hq) (s.commands c hq)
    · by_cases hne : c = c'
      · subst hne
        rw [(k.current command hc).2.1]
        exact Nat.zero_le _
      · exact kept (k.queued hq hne) (k.others c hne)
    · by_cases hne : c = c'
      · subst hne
        rw [a.after] at hc
        cases hc
        exact s.length_noted (ih c old (a.queued hq) a.before)
      · exact kept (a.queued hq) (a.others c hne).substance

/-- **An attempt ends with no more words than it asked for.** -/
theorem Run.length_le_of_completes (h : Run settings turns e)
    (ha : ∀ call, m = .call call → e.Allows call) (hm : e.move? m = some e')
    (hdone : Turn.Completes ⟨e, m, e'⟩ r c words) (hc : e'.command? c = some command) :
    words.length ≤ command.address.dwords := by
  obtain ⟨hslot, command', hc', hpoll, hending⟩ := hdone
  cases hc.symm.trans hc'
  obtain ⟨old, finishes⟩ := (h.closes ha hm hc).finishes h.sound.toStored hslot hpoll hending
  obtain ⟨signal, received, s, -, hwords⟩ := finishes.signalled
  obtain ⟨new, hnew, hmade, -⟩ := finishes.after
  cases hc.symm.trans hnew
  have haddress : command.address = old.address := congrArg (·.address) hmade
  rw [hwords, haddress]
  exact s.length_noted
    (h.measured c old ⟨r, Queue.mem_members.2 (.inl hslot)⟩ finishes.before)

/-! ## What a discovery asks for -/

namespace Procedure

/-- The read of the basic registers of a router. -/
def basicRead : Transfer :=
  .read .router 0 Register.routerCs0 Register.basicDwords

/-- The program takes its router out of the tree again, and fails. -/
def Withdraws (failure : Failure) (p : Program Request Answer) : Prop :=
  ∃ last, p = .ask .unlink last ∧ last (.ok []) = .done (.error failure)

/-- The program enrols its router, whose reference is its answer. -/
def Enrols (r : RouterRef) (identity : Identity) (p : Program Request Answer) : Prop :=
  ∃ last, p = .ask (.enrol identity) last ∧ last (.ok []) = .done (.ok (.router r))

/-- What follows the read of a discovery. -/
structure Discovers (settings : Settings) (route : Route) (r : RouterRef)
    (next : Reply → Program Request Answer) : Prop where
  failed : ∀ failure, Withdraws failure (next (.error failure))
  unfit : ∀ words failure, identify settings route words = .error failure →
    Withdraws failure (next (.ok words))
  fit : ∀ words identity, identify settings route words = .ok identity →
    Enrols r identity (next (.ok words))

/-- Words that give no identity are not to blame for a slot that is taken. -/
theorem identify_ne_exists (h : identify settings route words = .error failure) :
    failure ≠ .alreadyExists := by
  unfold identify at h
  split at h
  · cases h
    nofun
  · split at h
    · cases h
    · cases h
      nofun

/-- Words that give an identity are nine at least. -/
theorem nine_le_of_identify (h : identify settings route words = .ok identity) :
    9 ≤ words.length := by
  unfold identify at h
  split at h
  · cases h
  · rename_i basic hbasic
    unfold BasicRegisters.ofWords? at hbasic
    split at hbasic
    · rename_i hlast
      exact (List.getElem?_eq_some_iff.1 hlast).1
    · cases hbasic

end Procedure

/-! ## How far an attachment has come -/

/-- The tree and what is known of the routers is as it was. -/
structure Engine.Charts (e e' : Engine) : Prop where
  tree : e'.topology.tree = e.topology.tree
  identities : e'.outline.identities = e.outline.identities

theorem Engine.charts_of_outline (h : e'.outline = e.outline) : e.Charts e' :=
  ⟨congrArg Outline.tree h, congrArg Outline.identities h⟩

/-- A router that is being attached. -/
structure Attachment where
  /-- the engine when it was called for -/
  before : Engine
  parent : RouterRef
  route : Route

namespace Attachment

variable {a : Attachment} {next : Reply → Program Request Answer}

def router (a : Attachment) : RouterRef :=
  ⟨a.before.routers.length⟩

/-- The router is linked, and nothing is known of it yet. -/
structure Placed (a : Attachment) (e : Engine) : Prop where
  sound : a.before.topology.tree.Sound
  nextId : a.before.topology.tree.nextId = a.before.routers.length
  linked : a.before.topology.tree.allocateId.2.insert ⟨a.parent.index⟩ ⟨a.router.index⟩ a.route
    a.router = .ok e.topology.tree
  identities : e.outline.identities = a.before.outline.identities ++ [none]

/-- An attempt of the read has ended with words that give this identity. -/
def Heard (a : Attachment) (settings : Settings) (turns : List Turn) (e : Engine)
    (identity : Identity) : Prop :=
  ∃ command words, e.Carries a.router Procedure.basicRead command ∧ Ended turns command words ∧
    Procedure.identify settings a.route words = .ok identity

/-- What the read comes to. -/
inductive Told (a : Attachment) (turns : List Turn) (e : Engine) : Reply → Prop
  | failed {failure : Failure} : failure ≠ .alreadyExists → Told a turns e (.error failure)
  | read {command : Command} {words : List UInt32} :
      e.Carries a.router Procedure.basicRead command → Ended turns command words →
      Told a turns e (.ok words)

/-- What the attachment comes to. -/
inductive Comes (a : Attachment) (settings : Settings) (turns : List Turn) (e : Engine) :
    Outcome Answer → Prop
  | failed {failure : Failure} :
      (failure = .alreadyExists → ∃ r, a.before.topology.lookup a.route = .ok r) →
      e.topology.tree.root = a.before.topology.tree.root →
      (∀ id, e.topology.tree.node? id = a.before.topology.tree.node? id) →
      e.outline.identities = a.before.outline.identities ++ [none] →
      Comes a settings turns e (.error failure)
  | attached {identity : Identity} :
      a.before.topology.tree.Gains e.topology.tree ⟨a.parent.index⟩ ⟨a.router.index⟩ a.route
        a.router (identity.maxAdapter + 1) →
      e.outline.identities = a.before.outline.identities ++ [some identity] →
      a.Heard settings turns e identity → Comes a settings turns e (.ok (.router a.router))

/-- The part of the stack that the call is at. -/
inductive Part (a : Attachment) (settings : Settings) (turns : List Turn) (e : Engine) :
    List Task → Prop
  /-- the read is about to be asked for -/
  | asking {next : Reply → Program Request Answer} : a.Placed e →
      Procedure.Discovers settings a.route a.router next →
      Part a settings turns e
        [.perform a.router (.ask (.transfer Procedure.basicRead (.waiting .polling)) next)]
  /-- it waits for its frame -/
  | framing {command : Command} {next : Reply → Program Request Answer} : a.Placed e →
      Procedure.Discovers settings a.route a.router next →
      e.Carries a.router Procedure.basicRead command →
      Part a settings turns e
        [.allocate a.router command (.waiting .polling), .resume a.router next]
  /-- it is being tried -/
  | waiting {t : Task} {w : Waiter} {left : Nat} {command : Command}
      {next : Reply → Program Request Answer} : a.Placed e →
      Procedure.Discovers settings a.route a.router next → t.waiter? = some w →
      w.patience = .retrying .polling left → e.command? w.command = some command →
      e.Carries a.router Procedure.basicRead command →
      Part a settings turns e [t, .resume a.router next]
  /-- its reply has come -/
  | replied {reply : Reply} {next : Reply → Program Request Answer} : a.Placed e →
      Procedure.Discovers settings a.route a.router next → a.Told turns e reply →
      Part a settings turns e [.reply reply, .resume a.router next]
  /-- the router is about to be taken out of the tree -/
  | withdrawing {failure : Failure} {p : Program Request Answer} : a.Placed e →
      failure ≠ .alreadyExists → Procedure.Withdraws failure p →
      Part a settings turns e [.perform a.router p]
  /-- the router is about to be enrolled -/
  | enrolling {identity : Identity} {p : Program Request Answer} : a.Placed e →
      a.Heard settings turns e identity → Procedure.Enrols a.router identity p →
      Part a settings turns e [.perform a.router p]
  /-- that has been done -/
  | closing {result : Outcome Answer} {last : Reply → Program Request Answer} :
      a.Comes settings turns e result → last (.ok []) = .done result →
      Part a settings turns e [.reply (.ok []), .resume a.router last]
  | closed {result : Outcome Answer} : a.Comes settings turns e result →
      Part a settings turns e [.perform a.router (.done result)]
  /-- the call is answered -/
  | answered {result : Outcome Answer} : a.Comes settings turns e result →
      Part a settings turns e [.answer result]

/-- The call is at some part of the stack, with chores before it. -/
def At (a : Attachment) (settings : Settings) (turns : List Turn) (e : Engine) : Prop :=
  ∃ chores part, e.stack = chores ++ (part ++ a.before.stack) ∧
    (∀ t ∈ chores, t.isChore = true) ∧ a.Part settings turns e part

/-! ### What stays -/

theorem Placed.stays (k : a.Placed e) (charts : e.Charts e') : a.Placed e' :=
  ⟨k.sound, k.nextId, charts.tree ▸ k.linked, charts.identities.trans k.identities⟩

section stays

variable {turn : Turn} (charts : e.Charts e') (x : e.Extends e')

include x

theorem Heard.later (k : a.Heard settings turns e identity) :
    a.Heard settings (turn :: turns) e' identity := by
  obtain ⟨command, words, hcarries, hended, hidentify⟩ := k
  obtain ⟨hcarries, hended⟩ := hended.later hcarries x
  exact ⟨command, words, hcarries, hended, hidentify⟩

theorem Told.later (k : a.Told turns e reply) : a.Told (turn :: turns) e' reply := by
  cases k with
  | failed hne => exact .failed hne
  | read hcarries hended =>
    obtain ⟨hcarries, hended⟩ := hended.later hcarries x
    exact .read hcarries hended

include charts

theorem Comes.stays (k : a.Comes settings turns e result) :
    a.Comes settings (turn :: turns) e' result := by
  cases k with
  | failed hexists hroot hnodes hids =>
    refine .failed hexists ?_ ?_ (charts.identities.trans hids)
    · rw [charts.tree]
      exact hroot
    · rw [charts.tree]
      exact hnodes
  | attached hgains hids heard =>
    refine .attached ?_ (charts.identities.trans hids) (heard.later x)
    rw [charts.tree]
    exact hgains

theorem Part.stays (k : a.Part settings turns e part) :
    a.Part settings (turn :: turns) e' part := by
  cases k with
  | asking placed hnext => exact .asking (placed.stays charts) hnext
  | framing placed hnext hcarries =>
    exact .framing (placed.stays charts) hnext (hcarries.mono x rfl)
  | waiting placed hnext hw hpatience hc hcarries =>
    obtain ⟨command', hc', hmade, -⟩ := x.commands _ _ hc
    exact .waiting (placed.stays charts) hnext hw hpatience hc' (hcarries.mono x hmade)
  | replied placed hnext told => exact .replied (placed.stays charts) hnext (told.later x)
  | withdrawing placed hne hp => exact .withdrawing (placed.stays charts) hne hp
  | enrolling placed heard hp => exact .enrolling (placed.stays charts) (heard.later x) hp
  | closing comes hlast => exact .closing (comes.stays charts x) hlast
  | closed comes => exact .closed (comes.stays charts x)
  | answered comes => exact .answered (comes.stays charts x)

/-- Chores leave the call where it is. -/
theorem Part.at (k : a.Part settings turns e part)
    (hs : e'.stack = chores ++ (part ++ a.before.stack))
    (hchores : ∀ t ∈ chores, t.isChore = true) : a.At settings (turn :: turns) e' :=
  ⟨chores, part, hs, hchores, k.stays charts x⟩

end stays

/-! ### The turns of the call -/

/-- The discovery asks for its read. -/
theorem Placed.asked (placed : a.Placed e) (h : e.Sound)
    (hnext : Procedure.Discovers settings a.route a.router next)
    (hs : e.stack = .perform a.router
      (.ask (.transfer Procedure.basicRead (.waiting .polling)) next) :: a.before.stack) :
    a.At settings more e.step := by
  obtain ⟨hknown, -⟩ := h.tasks _ (hs ▸ List.mem_cons_self)
  obtain ⟨router, hr⟩ := router_of_known h.toStored hknown
  have hr' : ({ e with stack := .resume a.router next :: a.before.stack } : Engine).router?
      a.router = some router := hr
  have haddress : Procedure.basicRead.address = .ok ⟨.router, 0, 0, 9, 0⟩ := rfl
  have hcheck : Command.checkPayload Procedure.basicRead.kind ⟨.router, 0, 0, 9, 0⟩
      Procedure.basicRead.payload = .ok () := rfl
  have hstep : e.step = ({ e with stack := .resume a.router next :: a.before.stack } :
      Engine).issue a.router Procedure.basicRead (.waiting .polling) := by
    unfold step
    rw [hs]
    rfl
  have refused (failure : Failure) (hne : failure ≠ .alreadyExists)
      (hstep : e.step = ({ e with stack := .resume a.router next :: a.before.stack } :
        Engine).push [.reply (.error failure)]) : a.At settings more e.step := by
    rw [hstep]
    exact ⟨[], _, rfl, List.forall_mem_nil _,
      .replied (placed.stays ⟨rfl, rfl⟩) hnext (.failed hne)⟩
  unfold issue at hstep
  simp only [haddress, hr'] at hstep
  split at hstep
  · exact refused .notFound nofun hstep
  · split at hstep
    · exact refused .suspended nofun hstep
    · simp only [hcheck] at hstep
      rw [hstep]
      exact ⟨[], _, rfl, List.forall_mem_nil _, .framing (placed.stays ⟨rfl, rfl⟩) hnext
        ⟨⟨h.ids _ router hr, router, hr, rfl⟩, rfl, haddress⟩⟩

/-- The read has its frame. -/
theorem Placed.framed (placed : a.Placed e)
    (hnext : Procedure.Discovers settings a.route a.router next)
    (hcarries : e.Carries a.router Procedure.basicRead command) :
    a.At settings more (({ e with stack := .resume a.router next :: a.before.stack } :
      Engine).begin a.router command (.waiting .polling)) := by
  refine ⟨[], _, rfl, List.forall_mem_nil _,
    .waiting (placed.stays ⟨rfl, rfl⟩) hnext rfl rfl ?_ hcarries⟩
  show Commands.get? (e.commands.add command).2 ⟨e.commands.length⟩ = _
  rw [Commands.get?_add, if_pos rfl]

/-- There is no frame for the read. -/
theorem Placed.unframed (placed : a.Placed e)
    (hnext : Procedure.Discovers settings a.route a.router next) (fault : TransportFault) :
    a.At settings more (({ e with stack := .resume a.router next :: a.before.stack } :
      Engine).push [.reply (.error (Failure.ofAllocation fault))]) := by
  refine ⟨[], _, rfl, List.forall_mem_nil _,
    .replied (placed.stays ⟨rfl, rfl⟩) hnext (.failed ?_)⟩
  cases fault <;> nofun

/-- The caller does something about its read. -/
theorem Placed.tried {left : Nat} (placed : a.Placed e) (h : Run settings turns e)
    (hi : e.Inward m) (hm : e.move? m = some e')
    (hnext : Procedure.Discovers settings a.route a.router next)
    (hs : e.stack = t :: .resume a.router next :: a.before.stack) (hw : t.waiter? = some w)
    (hpatience : w.patience = .retrying .polling left) (hc : e.command? w.command = some command)
    (hcarries : e.Carries a.router Procedure.basicRead command)
    (heeds : e.Heeds w (.resume a.router next :: a.before.stack) m t e') :
    a.At settings (⟨e, m, e'⟩ :: turns) e' := by
  have ha : ∀ call, m = .call call → e.Allows call := fun call heq => absurd heq (hi.1 call)
  have x := h.sound.extends ha hm
  have hpop : e.stack = [t] ++ .resume a.router next :: a.before.stack := hs
  have hrest := (h.sound.pop hpop).toStored
  have hscript : t.isScript = false := by
    cases t <;> first | rfl | cases hw
  have charts : e.Charts e' := by
    refine charts_of_outline (Eq.trans ?_ (outline_pop hs hscript))
    cases heeds with
    | retried => exact outline_retry _ w
    | watched => exact outline_push _ (by simp [Task.isScript])
    | settled _ hsettle => exact outline_settle? hsettle
    | gaveUp => exact outline_withdraw _ w
  obtain ⟨command', hc', hmade, -⟩ := x.commands _ _ hc
  have waits (chores : List Task) {t' : Task} {w' : Waiter} {left' : Nat}
      (hs' : e'.stack = chores ++ t' :: .resume a.router next :: a.before.stack)
      (hchores : ∀ t ∈ chores, t.isChore = true) (hw' : t'.waiter? = some w')
      (hsame : w'.command = w.command) (hpatience' : w'.patience = .retrying .polling left') :
      a.At settings (⟨e, m, e'⟩ :: turns) e' :=
    ⟨chores, _, hs', hchores, .waiting (placed.stays charts) hnext hw' hpatience'
      (hsame ▸ hc') (hcarries.mono x hmade)⟩
  have replies (reply : Reply)
      (hs' : e'.stack = .reply reply :: .resume a.router next :: a.before.stack)
      (told : a.Told (⟨e, m, e'⟩ :: turns) e' reply) : a.At settings (⟨e, m, e'⟩ :: turns) e' :=
    ⟨[], _, hs', List.forall_mem_nil _, .replied (placed.stays charts) hnext told⟩
  cases heeds with
  | retried =>
    obtain ⟨⟨⟨hknown, old, hold, -⟩, hq, -⟩, -⟩ := h.sound.tasks _ (hs ▸ List.mem_cons_self)
    cases left with
    | zero =>
      refine replies (.error .timeout) ?_ (.failed (by simp))
      unfold retry
      rw [hpatience]
      rfl
    | succ left =>
      obtain ⟨router, hr⟩ := router_of_known h.sound.toStored hknown
      obtain ⟨-, hstack⟩ := hrest.launch_spec hr hold hq
        [.watch { w with patience := .retrying .polling left }]
      have hretry : ({ e with stack := .resume a.router next :: a.before.stack } : Engine).retry w =
          ({ e with stack := .resume a.router next :: a.before.stack } : Engine).launch w.router
            w.command [.watch { w with patience := .retrying .polling left }] := by
        unfold retry
        rw [hpatience]
      rw [← hretry] at hstack
      cases hd : router.detached with
      | true =>
        rw [hd] at hstack
        exact replies _ hstack (.failed (by simp))
      | false =>
        rw [hd] at hstack
        exact waits [.drain w.router] hstack (List.forall_mem_singleton.2 rfl) rfl rfl
          rfl
  | watched => exact waits [] rfl (List.forall_mem_nil _) rfl rfl hpatience
  | settled _ hsettle =>
    obtain ⟨seen, hseen, -, ⟨reply, hstack, hcause⟩ | ⟨hstack, -⟩⟩ := hrest.settle?_spec hsettle
    · cases hc.symm.trans hseen
      refine replies _ hstack ?_
      rcases hcause with ⟨-, hfuture⟩ | ⟨ending, hending, rfl⟩
      · cases hpatience.symm.trans hfuture
      · cases ending with
        | completed words =>
          obtain ⟨standing, sourced⟩ := h.sourced
          have hended := sourced.reports w.command command words hc (.inl hending)
          exact .read (hcarries.mono x rfl) (hended.mono (List.suffix_cons _ _) rfl)
        | interrupted | refused | expired => exact .failed (by simp)
    · exact waits [] hstack (List.forall_mem_nil _) rfl rfl hpatience
  | gaveUp deadline =>
    obtain ⟨hattends, -⟩ := h.sound.tasks _ (hs ▸ List.mem_cons_self)
    obtain ⟨router, hr⟩ := router_of_known h.sound.toStored hattends.1
    rcases hrest.withdraw_spec hr with ⟨-, hstack⟩ | ⟨mid, old, expired, -, -, -, hstack⟩
    · exact waits [] hstack (List.forall_mem_nil _) rfl rfl hpatience
    · have hafter : afterTimeout w = [.attempt w] := by
        unfold afterTimeout
        rw [hpatience]
      rw [hafter, List.append_assoc] at hstack
      exact waits _ hstack (Task.isChore_withdrawn (by simp [Task.isQuiet]) w.router expired) rfl
        rfl hpatience

/-- The program goes on with the reply to its read. -/
theorem Placed.replied (placed : a.Placed e)
    (hnext : Procedure.Discovers settings a.route a.router next) (told : a.Told turns e reply)
    (hs : e.stack = .reply reply :: .resume a.router next :: a.before.stack) (x : e.Extends e.step)
    (turn : Turn) : a.At settings (turn :: turns) e.step := by
  have hstep : e.step = { e with stack := .perform a.router (next reply) :: a.before.stack } := by
    unfold step
    rw [hs]
    rfl
  have charts : e.Charts e.step := by
    rw [hstep]
    exact ⟨rfl, rfl⟩
  have hs' : e.step.stack = [] ++ ([Task.perform a.router (next reply)] ++ a.before.stack) := by
    rw [hstep]
    rfl
  refine ⟨[], _, hs', List.forall_mem_nil _, ?_⟩
  have placed := placed.stays charts
  cases told with
  | failed hne => exact .withdrawing placed hne (hnext.failed _)
  | @read command words hcarries hended =>
    cases hidentify : Procedure.identify settings a.route words with
    | error failure =>
      exact .withdrawing placed (Procedure.identify_ne_exists hidentify)
        (hnext.unfit words failure hidentify)
    | ok identity =>
      obtain ⟨hcarries, hended⟩ := hended.later hcarries x
      exact .enrolling placed ⟨command, words, hcarries, hended, hidentify⟩
        (hnext.fit words identity hidentify)

/-- What the tree was before has no place for the router. -/
theorem Placed.absent (placed : a.Placed e) :
    a.before.topology.tree.node? ⟨a.router.index⟩ = none ∧
      a.before.topology.tree.root ≠ some ⟨a.router.index⟩ := by
  have hfresh := placed.sound.node?_eq_none_of_fresh ⟨a.router.index⟩ (Nat.le_of_eq placed.nextId)
  refine ⟨hfresh, fun hroot => ?_⟩
  obtain ⟨node, hn, -⟩ := placed.sound.top _ hroot
  cases hfresh.symm.trans hn

/-- **The router is taken out again**, and the tree is as it was. -/
theorem Placed.withdrawn {p : Program Request Answer} (placed : a.Placed e) (h : e.Sound)
    (hne : failure ≠ .alreadyExists) (hp : Procedure.Withdraws failure p)
    (hs : e.stack = .perform a.router p :: a.before.stack) : a.At settings more e.step := by
  obtain ⟨last, rfl, hlast⟩ := hp
  obtain ⟨hknown, -⟩ := h.tasks _ (hs ▸ List.mem_cons_self)
  obtain ⟨router, hr⟩ := router_of_known h.toStored hknown
  have hr' : ({ e with stack := .resume a.router last :: a.before.stack } : Engine).router?
      a.router = some router := hr
  have hstep : e.step =
      ({ e with stack := .resume a.router last :: a.before.stack } : Engine).unlink a.router := by
    unfold step
    rw [hs]
    rfl
  have hs' : e.step.stack = .reply (.ok []) :: .resume a.router last :: a.before.stack := by
    rw [hstep]
    unfold unlink
    rw [hr']
    rfl
  obtain ⟨hfresh, hroot⟩ := placed.absent
  obtain ⟨restored, hremove, hroot', hnodes⟩ :=
    RouterTree.remove_insert (t := a.before.topology.tree.allocateId.2) hfresh hroot placed.linked
  rw [← h.ids _ router hr] at hremove
  obtain ⟨htree, hids⟩ : e.step.topology.tree = restored ∧
      e.step.outline.identities = e.outline.identities := by
    rcases outline_unlink hr' with ⟨failure, hfail, -⟩ | ⟨value, tree, hremoved, houtline⟩
    · cases hremove.symm.trans hfail
    · cases hremove.symm.trans hremoved
      rw [← hstep] at houtline
      exact ⟨congrArg Outline.tree houtline, (congrArg Outline.identities houtline).trans rfl⟩
  refine ⟨[], _, hs', List.forall_mem_nil _, .closing (.failed (fun heq => absurd heq hne) ?_ ?_
    (hids.trans placed.identities)) hlast⟩
  · rw [htree]
    exact hroot'
  · rw [htree]
    exact hnodes

/-- **The router is enrolled**, and nothing else has changed. -/
theorem Placed.enrolled {p : Program Request Answer} (placed : a.Placed e) (h : e.Sound)
    (heard : a.Heard settings turns e identity) (hp : Procedure.Enrols a.router identity p)
    (hs : e.stack = .perform a.router p :: a.before.stack) (x : e.Extends e.step) (turn : Turn) :
    a.At settings (turn :: turns) e.step := by
  obtain ⟨last, rfl, hlast⟩ := hp
  obtain ⟨hknown, -⟩ := h.tasks _ (hs ▸ List.mem_cons_self)
  obtain ⟨router, hr⟩ := router_of_known h.toStored hknown
  have hr' : ({ e with stack := .resume a.router last :: a.before.stack } : Engine).router?
      a.router = some router := hr
  have hstep : e.step = ({ e with stack := .resume a.router last :: a.before.stack } :
      Engine).enrol a.router identity := by
    unfold step
    rw [hs]
    rfl
  obtain ⟨tree, htree, gains⟩ :=
    RouterTree.gains_insert (t := a.before.topology.tree.allocateId.2) placed.sound.allocateId
      placed.absent.1 (Nat.lt_succ_of_le (Nat.le_of_eq placed.nextId.symm)) placed.linked
      identity.maxAdapter
  rw [← h.ids _ router hr] at htree
  have hs' : e.step.stack = .reply (.ok []) :: .resume a.router last :: a.before.stack := by
    rw [hstep]
    unfold enrol
    rw [hr']
    simp only [htree]
    rfl
  obtain ⟨hchanged, hids⟩ : e.step.topology.tree = tree ∧
      e.step.outline.identities = a.before.outline.identities ++ [some identity] := by
    rcases outline_enrol hr' identity with ⟨failure, hfail, -⟩ | ⟨tree', hdone, houtline⟩
    · cases htree.symm.trans hfail
    · cases htree.symm.trans hdone
      rw [← hstep] at houtline
      refine ⟨congrArg Outline.tree houtline, (congrArg Outline.identities houtline).trans ?_⟩
      show e.outline.identities.modify a.router.index _ = _
      have hlength : a.router.index = a.before.outline.identities.length :=
        (List.length_map ..).symm
      rw [placed.identities, hlength, modify_concat]
      rfl
  refine ⟨[], _, hs', List.forall_mem_nil _, .closing (.attached ?_ hids (heard.later x)) hlast⟩
  rw [hchanged]
  exact ⟨gains.absent, gains.root, gains.added, gains.hangs, gains.places, gains.rooms⟩

/-! ### Every move -/

/-- **A move with no call leaves the attachment where it is, or takes it further.** -/
theorem At.further (k : a.At settings turns e) (h : Run settings turns e) (hi : e.Inward m)
    (hm : e.move? m = some e') : a.At settings (⟨e, m, e'⟩ :: turns) e' := by
  obtain ⟨chores, part, hs, hchores, hpart⟩ := k
  have ha : ∀ call, m = .call call → e.Allows call := fun call heq => absurd heq (hi.1 call)
  have x := h.sound.extends ha hm
  have inner := h.inner_of_inward hi hm
  obtain ⟨task, rest, rfl, htask⟩ : ∃ task rest, part = task :: rest ∧ task.isQuiet = false := by
    cases hpart with
    | @waiting t _ _ _ _ _ _ hw =>
      refine ⟨_, _, rfl, ?_⟩
      cases t <;> first | rfl | cases hw
    | _ => exact ⟨_, _, rfl, rfl⟩
  have hs : e.stack = chores ++ task :: (rest ++ a.before.stack) := hs
  -- chores before the call, or before its answer, are all that is done
  have aside (hbusy : chores ≠ [] ∨ ∃ result, task = .answer result) :
      a.At settings (⟨e, m, e'⟩ :: turns) e' := by
    obtain ⟨⟨chores', hs', hmore⟩, -⟩ := inner.chores hs hchores htask hbusy
    have houtline : e'.outline = e.outline := by
      cases chores with
      | nil => exact outline_of_chore hi hm hs (.inr (hbusy.resolve_left fun hne => hne rfl))
      | cons t others => exact outline_of_chore hi hm hs (.inl (hchores t List.mem_cons_self))
    exact hpart.at (charts_of_outline houtline) x hs' fun t ht =>
      (hmore t ht).elim (hchores t) Task.isChore_of_loose
  by_cases hbusy : chores = []
  · subst hbusy
    -- what comes from elsewhere is put above the call
    have above (hm' : (∃ arrival, m = .receive arrival) ∨ ∃ ms, m = .elapse ms) :
        a.At settings (⟨e, m, e'⟩ :: turns) e' := by
      rcases hm' with ⟨arrival, rfl⟩ | ⟨ms, rfl⟩
      · obtain rfl := receive_of_receive hm
        obtain ⟨added, hstack, hadded⟩ := grows_receive e arrival
        exact hpart.at (charts_of_outline (outline_receive e arrival)) x
          (hstack.trans (by rw [hs]; rfl))
          fun t ht => Task.isChore_of_loose (Task.isLoose_of_minor (hadded t ht))
      · cases hm
        have charts : e.Charts { e with now := e.now + ms } := ⟨rfl, rfl⟩
        exact hpart.at charts x hs (List.forall_mem_nil _)
    have works (hw : e.pause = .working) (hstep : e.Extends e.step →
        ∀ turn, a.At settings (turn :: turns) e.step) :
        a.At settings (⟨e, m, e'⟩ :: turns) e' := by
      rcases working_cases hw hm with ⟨rfl, rfl⟩ | ⟨ms, rfl, -⟩
      · exact hstep x _
      · exact above (.inr ⟨ms, rfl⟩)
    have hs : e.stack = task :: (rest ++ a.before.stack) := hs
    cases hpart with
    | asking placed hnext =>
      exact works (by unfold pause; rw [hs]) fun _ _ => placed.asked h.sound hnext hs
    | @framing command next placed hnext hcarries =>
      cases m with
      | grant answer =>
        cases answer with
        | ok done =>
          obtain rfl : ({ e with stack := .resume a.router next :: a.before.stack } :
              Engine).begin a.router command (.waiting .polling) = e' := by
            simpa [move?, granted?, hs] using hm
          exact placed.framed hnext hcarries
        | error fault =>
          obtain rfl : ({ e with stack := .resume a.router next :: a.before.stack } :
              Engine).push [.reply (.error (Failure.ofAllocation fault))] = e' := by
            simpa [move?, granted?, hs] using hm
          exact placed.unframed hnext fault
      | proceed => simp [move?, canProceed, pause, hs] at hm
      | back => simp [move?, returned?, hs] at hm
      | giveUp => simp [move?, gaveUp?, hs] at hm
      | collect => simp [move?, collected?, hs] at hm
      | call call => exact absurd rfl (hi.1 call)
      | receive arrival => exact above (.inl ⟨arrival, rfl⟩)
      | elapse ms => exact above (.inr ⟨ms, rfl⟩)
    | waiting placed hnext hw hpatience hc hcarries =>
      by_cases hm' : (∃ arrival, m = .receive arrival) ∨ ∃ ms, m = .elapse ms
      · exact above hm'
      · exact placed.tried h hi hm hnext hs hw hpatience hc hcarries
          (heeds_of_move? hm hi.1 (fun arrival heq => hm' (.inl ⟨arrival, heq⟩))
            (fun ms heq => hm' (.inr ⟨ms, heq⟩)) hs hw)
    | replied placed hnext told =>
      exact works (by unfold pause; rw [hs]) fun x turn => placed.replied hnext told hs x turn
    | withdrawing placed hne hp =>
      exact works (by unfold pause; rw [hs]) fun _ _ =>
        placed.withdrawn h.sound hne hp hs
    | enrolling placed heard hp =>
      exact works (by unfold pause; rw [hs]) fun x turn =>
        placed.enrolled h.sound heard hp hs x turn
    | @closing result last comes hlast =>
      refine works (by unfold pause; rw [hs]) fun x turn => ?_
      have hstep : e.step =
          { e with stack := .perform a.router (.done result) :: a.before.stack } := by
        unfold step
        rw [hs, ← hlast]
        rfl
      exact ⟨[], _, by rw [hstep]; rfl, List.forall_mem_nil _,
        .closed (comes.stays (by rw [hstep]; exact ⟨rfl, rfl⟩) x)⟩
    | @closed result comes =>
      refine works (by unfold pause; rw [hs]) fun x turn => ?_
      have hstep : e.step = { e with stack := .answer result :: a.before.stack } := by
        unfold step
        rw [hs]
        rfl
      exact ⟨[], _, by rw [hstep]; rfl, List.forall_mem_nil _,
        .answered (comes.stays (by rw [hstep]; exact ⟨rfl, rfl⟩) x)⟩
    | answered => exact aside (.inr ⟨_, rfl⟩)
  · exact aside (.inl hbusy)

/-- So it is throughout a course in which nobody calls. -/
theorem At.along (k : a.At settings turns e) (h : Run settings turns e)
    (alone : Alone e course e') : a.At settings (course ++ turns) e' := by
  induction alone with
  | start => exact k
  | next prior hi hm ih => exact ih.further (prior.run h) hi hm

/-- Then it is answered with what it has come to. -/
theorem At.answered (k : a.At settings turns e) (hs : e.stack = .answer result :: a.before.stack) :
    a.Comes settings turns e result := by
  obtain ⟨chores, part, hs', hchores, hpart⟩ := k
  have hsame := hs.symm.trans hs'
  have hone : chores.length + part.length = 1 := by
    have hlength := congrArg List.length hsame
    simp only [List.length_cons, List.length_append] at hlength
    omega
  obtain ⟨task, rfl⟩ : ∃ task, part = [task] := by
    refine List.length_eq_one_iff.1 ?_
    cases hpart with
    | framing | waiting | replied | closing =>
      simp only [List.length_cons, List.length_nil] at hone
      omega
    | _ => rfl
  obtain rfl : chores = [] := List.length_eq_zero_iff.1 (Nat.succ.inj hone)
  obtain ⟨rfl, -⟩ := List.cons.inj hsame
  cases hpart with
  | answered comes => exact comes

end Attachment

/-! ## What an attachment comes to -/

/-- One router has been added: below its parent, at its route, and with its identity. -/
structure Engine.Gains (e e' : Engine) (parent r : RouterRef) (route : Route)
    (identity : Identity) : Prop where
  fresh : e.router? r = none
  tree : e.topology.tree.Gains e'.topology.tree ⟨parent.index⟩ ⟨r.index⟩ route r
    (identity.maxAdapter + 1)
  identity : (e'.router? r).map Router.identity = some (some identity)
  identities : ∀ r', r'.index < e.routers.length →
    (e'.router? r').map Router.identity = (e.router? r').map Router.identity
  lookup : ∀ route' r', e'.topology.lookup route' = .ok r' ↔
    e.topology.lookup route' = .ok r' ∨ route' = route ∧ r' = r

/-- An attempt of a read of the basic registers of a router ends with these words. -/
def Turn.Reads (turn : Turn) (r : RouterRef) (route : Route) (words : List UInt32) : Prop :=
  ∃ c command, turn.Completes r c words ∧ turn.after.command? c = some command ∧
    command.node = ⟨r.index⟩ ∧ command.route = route ∧ command.kind = .read ∧
    command.address = ⟨.router, 0, 0, 9, 0⟩

/-- A route leads to the router that has its place there. -/
theorem Engine.lookup_iff_place (ht : e.topology.tree.Rooted) :
    e.topology.lookup route = .ok r ↔
      ∃ id above, e.topology.tree.place? id = some (r, route, above) := by
  rw [lookup_eq_ok]
  refine exists_congr fun id => ?_
  rw [ht.lookup_eq_ok_iff, RouterTree.get?_eq_place, RouterTree.route?_eq_place]
  cases e.topology.tree.place? id with
  | none => simp
  | some place =>
    obtain ⟨value, route', above⟩ := place
    simp [and_comm]

theorem Engine.identities_getElem? (e : Engine) (r : RouterRef) :
    e.outline.identities[r.index]? = (e.router? r).map Router.identity :=
  List.getElem?_map ..

namespace Attachment

variable {a : Attachment}

/-- **An attachment that has succeeded has added one router.** -/
theorem Comes.gains {answer : Answer} (k : a.Comes settings turns e (.ok answer))
    (ht : a.before.topology.tree.Rooted) (ht' : e.topology.tree.Rooted) :
    answer = .router a.router ∧ ∃ identity, a.Heard settings turns e identity ∧
      a.before.Gains e a.parent a.router a.route identity := by
  cases k with
  | @attached identity gains hids heard =>
    refine ⟨rfl, identity, heard, List.getElem?_eq_none (Nat.le_refl _), gains, ?_,
      fun r hr => ?_, fun route r => ?_⟩
    · have hlength : a.router.index = a.before.outline.identities.length :=
        (List.length_map ..).symm
      rw [← identities_getElem?, hids, hlength, List.getElem?_concat_length]
    · rw [← identities_getElem?, ← identities_getElem?, hids, List.getElem?_append_left]
      exact (List.length_map ..).symm ▸ hr
    · have hadded : e.topology.tree.place? ⟨a.router.index⟩ =
          some (a.router, a.route, some ⟨a.parent.index⟩) := by
        unfold RouterTree.place?
        rw [gains.added]
        rfl
      have habsent : a.before.topology.tree.place? ⟨a.router.index⟩ = none := by
        unfold RouterTree.place?
        rw [gains.absent]
        rfl
      rw [lookup_iff_place ht, lookup_iff_place ht']
      constructor
      · rintro ⟨id, above, hplace⟩
        by_cases hid : id = ⟨a.router.index⟩
        · rw [hid, hadded] at hplace
          cases hplace
          exact .inr ⟨rfl, rfl⟩
        · exact .inl ⟨id, above, gains.places id hid ▸ hplace⟩
      · rintro (⟨id, above, hplace⟩ | ⟨rfl, rfl⟩)
        · refine ⟨id, above, (gains.places id ?_).trans hplace⟩
          rintro rfl
          cases habsent.symm.trans hplace
        · exact ⟨_, _, hadded⟩

end Attachment

/-- A suffix of two courses is one of the earlier, or begins in the later. -/
theorem mem_or_suffix {turn : Turn} {earlier rest : List Turn}
    (hs : turn :: earlier <:+ course ++ rest) : turn ∈ course ∨ turn :: earlier <:+ rest := by
  induction course with
  | nil => exact .inr hs
  | cons first course ih =>
    rcases List.suffix_cons_iff.1 hs with heq | hs
    · exact .inl ((List.cons.inj heq).1 ▸ List.mem_cons_self)
    · exact (ih hs).imp_left (List.mem_cons_of_mem _)

/-- The words that the identity has been made of are those of a read of the new router. -/
theorem Attachment.Heard.reads {a : Attachment} {turn₀ : Turn} {router : Router}
    (heard : a.Heard settings (course ++ turn₀ :: turns) e identity)
    (h : Run settings (course ++ turn₀ :: turns) e) (hbefore : turn₀.before = a.before)
    (hr : e.router? a.router = some router) (hroute : router.route = a.route) :
    ∃ turn ∈ course, ∃ words, turn.Reads a.router a.route words ∧ words.length = 9 ∧
      Procedure.identify settings a.route words = .ok identity := by
  obtain ⟨command, words, ⟨⟨hnode, router', hr', hroute'⟩, hkind, haddress⟩,
    ⟨turn, earlier, r', c, new, hs, hdone, hnew, hmade⟩, hidentify⟩ := heard
  cases hr.symm.trans hr'
  obtain ⟨hrun, hallows, hmove, -⟩ := h.of_suffix hs
  have x := hrun.sound.extends hallows hmove
  -- the attempt is one of the new router
  obtain ⟨old, hold, ⟨hnode', router'', hr'', -⟩, -⟩ :=
    hrun.sound.members r' c (Queue.mem_members.2 (.inl hdone.1))
  obtain ⟨new', hnew', hmade', -⟩ := x.commands c old hold
  cases hnew.symm.trans hnew'
  have hsame : r' = a.router := by
    have hindex : (⟨r'.index⟩ : NodeId) = ⟨a.router.index⟩ :=
      hnode'.symm.trans ((congrArg (·.node) (hmade'.symm.trans hmade)).trans hnode)
    cases r'
    cases hindex
    rfl
  subst hsame
  have hturn : turn ∈ course := by
    rcases mem_or_suffix hs with hturn | hs'
    · exact hturn
    · -- before the call there was no such router
      have hnone : turn₀.before.router? a.router = none := by
        rw [hbefore]
        exact List.getElem?_eq_none (Nat.le_refl _)
      rcases List.suffix_cons_iff.1 hs' with heq | hs''
      · obtain ⟨rfl, -⟩ := List.cons.inj heq
        cases hnone.symm.trans hr''
      · obtain ⟨prior, -⟩ := h.of_suffix (List.suffix_append course (turn₀ :: turns))
        obtain ⟨-, -, -, y⟩ := prior.of_suffix hs''
        obtain ⟨router₀, hr₀, -⟩ := (x.trans y).routers _ router'' hr''
        cases hnone.symm.trans hr₀
  have haddress' : command.address = ⟨.router, 0, 0, 9, 0⟩ := (Except.ok.inj haddress).symm
  have haddress : new.address = ⟨.router, 0, 0, 9, 0⟩ :=
    (congrArg (·.address) hmade).trans haddress'
  have hle := hrun.length_le_of_completes hallows hmove hdone hnew
  rw [haddress] at hle
  exact ⟨turn, hturn, words, ⟨c, new, hdone, hnew, (congrArg (·.node) hmade).trans hnode,
    (congrArg (·.route) hmade).trans (hroute'.trans hroute),
    (congrArg (·.kind) hmade).trans hkind, haddress⟩,
    Nat.le_antisymm hle (Procedure.nine_le_of_identify hidentify), hidentify⟩

end RouterFabric
