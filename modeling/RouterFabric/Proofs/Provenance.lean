import RouterFabric.Proofs.Answers
import RouterFabric.Proofs.Callbacks

/-!
# Where the words of a caller come from

A caller is given the words that an attempt of its own command ended with, whether it waits, awaits
a future or passes a callback on; and an attempt ends with the words of the response that was taken
last for its answer. That response answers a request of the command itself, or it is late: then it
was meant for another router of the same route, or at least four attempts have begun since. So all
words are their callers' own exactly as long as no attempt ends with a late response that was asked
for elsewhere.

* `Ended`, `Run.sourced` : the words of a caller are those that its command ended with
* `Run.told_apart` : a response that ends an attempt is the command's own, or late
* `Run.own_iff` : the words are all their callers' own if and only if the run has not strayed
-/

namespace RouterFabric

open Engine

variable {settings : Settings} {turns turns' : List Turn} {turn : Turn} {earlier : List Turn}
  {e e' : Engine} {m : Move} {r : RouterRef} {c : CommandRef} {command command' old : Command}
  {words : List UInt32} {standing standing' : List (Call × Progress)}

/-! ## Endings along a run -/

/-- An attempt of the command has ended with these words. -/
def Ended (turns : List Turn) (command : Command) (words : List UInt32) : Prop :=
  ∃ turn earlier r c new, turn :: earlier <:+ turns ∧ turn.Completes r c words ∧
    turn.after.command? c = some new ∧ new.made = command.made

theorem Ended.mono (h : Ended turns command words) (hs : turns <:+ turns')
    (hm : command'.made = command.made) : Ended turns' command' words := by
  obtain ⟨turn, earlier, r, c, new, hsuffix, hdone, hnew, hmade⟩ := h
  exact ⟨turn, earlier, r, c, new, hsuffix.trans hs, hdone, hnew, hmade.trans hm.symm⟩

theorem Engine.Finishes.ended (f : e.Finishes m e' r c old words) :
    Ended (⟨e, m, e'⟩ :: turns) old words := by
  obtain ⟨new, hnew, hmade, -, -, hpoll, hending⟩ := f.after
  exact ⟨_, turns, r, c, new, List.suffix_refl _, ⟨f.slot, new, hnew, hpoll, hending⟩, hnew, hmade⟩

/-- Whatever words are noted, told or answered are those that a command has ended with, made for the
call that is given them. -/
structure Sourced (settings : Settings) (turns : List Turn) (e : Engine)
    (standing : List (Call × Progress)) : Prop where
  reports : ∀ c command words, e.command? c = some command → command.Reports words →
    Ended turns command words
  notes : ∀ tag words, .notify tag (.ok words) ∈ e.stack → ∃ r t command,
    .operate r (.transfer t (.callback tag)) ∈ calls turns ∧ e.Carries r t command ∧
      Ended turns command words
  standing : ∀ r t style words, (.operate r (.transfer t style), .ended (.ok words)) ∈ standing →
    (∀ tag, style ≠ .callback tag) → ∃ command, e.Carries r t command ∧ Ended turns command words
  returned : ∀ r t style answer,
    (.operate r (.transfer t style), .ok answer) ∈ returns settings turns →
    ∃ words, answer = Operation.transferAnswer t style words ∧ ((∀ tag, style ≠ .callback tag) →
      ∃ command, e.Carries r t command ∧ Ended turns command words)

/-- A source is one also after another turn. -/
theorem Ended.later {t : Transfer} (h : Ended turns command words) (hc : e.Carries r t command)
    (x : e.Extends e') : e'.Carries r t command ∧ Ended (turn :: turns) command words :=
  ⟨hc.mono x rfl, h.mono (List.suffix_cons turn turns) rfl⟩

theorem Sourced.returned_later {r : RouterRef} {t : Transfer} {style : Style} {answer : Answer}
    (s : Sourced settings turns e standing) (x : e.Extends e')
    (hmem : (.operate r (.transfer t style), .ok answer) ∈ returns settings turns) :
    ∃ words, answer = Operation.transferAnswer t style words ∧ ((∀ tag, style ≠ .callback tag) →
      ∃ command, e'.Carries r t command ∧ Ended (turn :: turns) command words) := by
  obtain ⟨words, hanswer, hsource⟩ := s.returned r t style answer hmem
  refine ⟨words, hanswer, fun hstyle => ?_⟩
  obtain ⟨command, hcarries, hended⟩ := hsource hstyle
  exact ⟨command, hended.later hcarries x⟩

theorem Sourced.reports_mute (s : Sourced settings turns e standing) (hmute : e.Mute e')
    (x : e.Extends e') (hc : e'.command? c = some command) (hr : command.Reports words) :
    Ended (turn :: turns) command words := by
  obtain ⟨old, hold, hmutes⟩ := hmute c command hc
  have hreports : old.Reports words := hr.imp (hmutes.ending _) (hmutes.future _)
  obtain ⟨new, hnew, hmade, -⟩ := x.commands c old hold
  rw [hc] at hnew
  cases hnew
  exact (s.reports c old words hold hreports).mono (List.suffix_cons turn turns) hmade

theorem Sourced.of_inner (s : Sourced settings turns e standing) (prior : Run settings turns e)
    (k : Inner e m e') (proceeds : e.Proceeds e' standing standing')
    (hcall : ∀ call, m ≠ .call call)
    (hcollect : m = .collect → ∀ result below, e.stack ≠ .answer result :: below) :
    Sourced settings (⟨e, m, e'⟩ :: turns) e' standing' := by
  have x := prior.sound.extends_inner k
  have hlater : turns <:+ ⟨e, m, e'⟩ :: turns := List.suffix_cons _ _
  refine ⟨fun c command words hc hr => ?_, fun tag words hn => ?_,
    fun r t style words hmem hstyle => ?_, fun r t style answer hmem => ?_⟩
  · rcases (prior.sound.closes_inner k hc).reports hr with ⟨old, hold, hreports⟩ | ⟨r, old, f⟩
    · obtain ⟨new, hnew, hmade, -⟩ := x.commands c old hold
      rw [hc] at hnew
      cases hnew
      exact (s.reports c old words hold hreports).mono hlater hmade
    · obtain ⟨new, hnew, hmade, -⟩ := f.after
      rw [hc] at hnew
      cases hnew
      exact f.ended.mono (List.suffix_refl _) hmade
  · rw [calls_of_inner hcall]
    rcases (k.arises prior.sound.toStored hn).finishes with hn | ⟨r, c, old, f, hl⟩
    · obtain ⟨r, t, command, hmade, hcarries, hended⟩ := s.notes tag words hn
      exact ⟨r, t, command, hmade, hended.later hcarries x⟩
    · have harmed : c ∈ e.armed tag :=
        ⟨⟨old, f.before, hl⟩, .inl ⟨r, Queue.mem_members.2 (.inl f.slot)⟩⟩
      obtain ⟨r', t, command, hmade, hc, hcarries⟩ := prior.meant tag c harmed
      rw [f.before] at hc
      cases hc
      exact ⟨r', t, old, hmade, hcarries.mono x rfl, f.ended⟩
  · have before
        (hmem : (Call.operate r (.transfer t style), Progress.ended (.ok words)) ∈ standing) :
        ∃ command, e'.Carries r t command ∧ Ended (⟨e, m, e'⟩ :: turns) command words := by
      obtain ⟨command, hcarries, hended⟩ := s.standing r t style words hmem hstyle
      exact ⟨command, hended.later hcarries x⟩
    cases proceeds with
    | stays => exact before hmem
    | goes call progress progress' outer hq hold hnew =>
      rcases List.mem_cons.1 hmem with heq | hmem
      · cases heq
        exact absurd rfl (hnew words)
      · exact before (List.mem_cons_of_mem _ hmem)
    | learned r' t' style' w reply command outer hq hstyle' hc hcarries hreply =>
      rcases List.mem_cons.1 hmem with heq | hmem
      · cases heq
        have hreports : command.Reports words := by
          rcases hreply with hl | ⟨ending, hending, hreply⟩
          · exact .inr hl
          · rw [Ending.reply_ok hreply.symm] at hending
            exact .inl hending
        exact ⟨command, (s.reports _ command words hc hreports).later hcarries x⟩
      · exact before (List.mem_cons_of_mem _ hmem)
    | queued r' t' tag command below outer =>
      rcases List.mem_cons.1 hmem with heq | hmem
      · cases heq
        exact absurd rfl (hstyle tag)
      · exact before (List.mem_cons_of_mem _ hmem)
  · rw [returns_of_inner hcollect] at hmem
    exact s.returned_later x hmem

theorem Sourced.of_called {call : Call} {progress : Progress}
    (s : Sourced settings turns e standing) (prior : Run settings turns e) (k : Called e call e')
    (hprogress : ∀ ws, progress ≠ .ended (.ok ws)) :
    Sourced settings (⟨e, .call call, e'⟩ :: turns) e' ((call, progress) :: standing) := by
  have x := prior.sound.extends_called k
  refine ⟨fun c command words hc hr => s.reports_mute (mute_called k) x hc hr,
    fun tag words hn => ?_, fun r t style words hmem hstyle => ?_, fun r t style answer hmem => ?_⟩
  · have hn := k.notes prior.sound.toStored hn
    obtain ⟨r, t, command, hmade, hcarries, hended⟩ := s.notes tag words hn
    exact ⟨r, t, command, List.mem_cons_of_mem _ hmade, hended.later hcarries x⟩
  · rcases List.mem_cons.1 hmem with heq | hmem
    · cases heq
      exact absurd rfl (hprogress words)
    · obtain ⟨command, hcarries, hended⟩ := s.standing r t style words hmem hstyle
      exact ⟨command, hended.later hcarries x⟩
  · exact s.returned_later x hmem

theorem Sourced.of_collected {call : Call} {progress : Progress} {result : Outcome Answer}
    {below : List Task} (s : Sourced settings turns e ((call, progress) :: standing))
    (hopen : ((call, progress) :: standing).map (·.1) = openCalls settings turns)
    (he : e.stack = .answer result :: below) (he' : e'.stack = below) (a : e.Alike e')
    (hresult : ∀ r t style, call = .operate r (.transfer t style) →
      ∃ reply, progress = .ended reply ∧ result = conclusion t style reply) :
    Sourced settings (⟨e, .collect, e'⟩ :: turns) e' standing := by
  have x := a.extends
  refine ⟨fun c command words hc hr => s.reports_mute a.mute x hc hr, fun tag words hn => ?_,
    fun r t style words hmem hstyle => ?_, fun r t style answer hmem => ?_⟩
  · rw [he'] at hn
    obtain ⟨r, t, command, hmade, hcarries, hended⟩ :=
      s.notes tag words (he ▸ List.mem_cons_of_mem _ hn)
    exact ⟨r, t, command, hmade, hended.later hcarries x⟩
  · obtain ⟨command, hcarries, hended⟩ :=
      s.standing r t style words (List.mem_cons_of_mem _ hmem) hstyle
    exact ⟨command, hended.later hcarries x⟩
  · rw [returns_of_collected he hopen.symm] at hmem
    rcases List.mem_cons.1 hmem with heq | hmem
    · cases heq
      obtain ⟨reply, rfl, hconclusion⟩ := hresult r t style rfl
      cases reply with
      | error failure => cases hconclusion
      | ok words =>
        cases hconclusion
        refine ⟨words, rfl, fun hstyle => ?_⟩
        obtain ⟨command, hcarries, hended⟩ :=
          s.standing r t style words List.mem_cons_self hstyle
        exact ⟨command, hended.later hcarries x⟩
    · exact s.returned_later x hmem

theorem Run.sourced (h : Run settings turns e) : ∃ standing, Sourced settings turns e standing := by
  have source : ∃ standing, e.Stacked standing e.stack ∧
      standing.map (·.1) = openCalls settings turns ∧ Sourced settings turns e standing := by
    refine Run.standing (P := Sourced settings) ⟨fun c command words hc => ?_,
      fun tag words hn => ?_, fun r t style words hmem => ?_,
      fun r t style answer hmem => ?_⟩ ?_ ?_ ?_ h
    · rw [command?_opening] at hc
      cases hc
    · rcases stack_opening settings with hs | ⟨failure, hs⟩ <;> rw [hs] at hn <;> simp at hn
    · simp at hmem
    · exact absurd hmem List.not_mem_nil
    · intro turns e m e' standing standing' prior _ s hcollect hcall _ k proceeds
      exact s.of_inner prior k proceeds hcall hcollect
    · intro turns e call e' standing progress prior _ s k hprogress
      exact s.of_called prior k hprogress
    · intro turns e result below e' call progress standing _ hopen s he he' a hresult
      exact s.of_collected hopen he he' a hresult
  obtain ⟨standing, -, -, hsourced⟩ := source
  exact ⟨standing, hsourced⟩

/-! ## Parts of a run -/

theorem Run.of_suffix (h : Run settings turns e) (hs : turn :: earlier <:+ turns) :
    Run settings earlier turn.before ∧ (∀ call, turn.move = .call call → turn.before.Allows call) ∧
      turn.before.move? turn.move = some turn.after ∧ turn.after.Extends e := by
  induction h with
  | start => exact absurd hs.length_le (by simp)
  | @next turns e e' m prior ha hm ih =>
    rcases List.suffix_cons_iff.1 hs with heq | hs
    · cases heq
      exact ⟨prior, ha, hm, .refl e'⟩
    · obtain ⟨hrun, hallows, hmove, x⟩ := ih hs
      exact ⟨hrun, hallows, hmove, x.trans (prior.sound.extends ha hm)⟩

theorem Honest.of_suffix (h : Honest turns) (hs : turns' <:+ turns) : Honest turns' := by
  induction turns with
  | nil =>
    rw [List.suffix_nil.1 hs]
    exact h
  | cons turn turns ih =>
    rcases List.suffix_cons_iff.1 hs with rfl | hs
    · exact h
    · exact ih h.2 hs

theorem calls_of_suffix (hs : turns' <:+ turns) : ∀ call ∈ calls turns', call ∈ calls turns := by
  induction turns with
  | nil =>
    rw [List.suffix_nil.1 hs]
    exact fun _ => id
  | cons turn turns ih =>
    rcases List.suffix_cons_iff.1 hs with rfl | hs
    · exact fun _ => id
    · intro call hcall
      have hmem := ih hs call hcall
      unfold calls
      split
      · exact List.mem_cons_of_mem _ hmem
      · exact hmem

theorem mem_responses_of_answerOf {response : Response} (h : answerOf turns c = some response) :
    response ∈ responses turns := by
  induction turns with
  | nil => cases h
  | cons turn turns ih =>
    have later (h : answerOf turns c = some response) : response ∈ responses (turn :: turns) := by
      unfold responses
      rw [List.filterMap_cons]
      split
      · exact ih h
      · exact List.mem_cons_of_mem _ (ih h)
    rw [answerOf] at h
    split at h
    · cases h
    · split at h
      · rename_i c' response' ht
        split at h
        · cases h
          exact List.mem_filterMap.2 ⟨turn, List.mem_cons_self, (takes?_eq_some ht).1⟩
        · exact later h
      · exact later h

theorem Honest.asked_of_mem {response : Response} (h : Honest turns)
    (hr : response ∈ responses turns) : ∃ q ∈ handed turns, q.echo = response.echo := by
  cases turns with
  | nil => cases hr
  | cons turn turns =>
    obtain ⟨q, hq, hecho⟩ := List.mem_map.1 (h.1.subset (List.mem_map_of_mem hr))
    exact ⟨q, mem_handed hq, hecho⟩

/-! ## Words of one's own -/

/-- A request that has not been made for the current attempt of this command, which is an attempt on
this router: if it was made on the same router, it is at least four attempts older. -/
def Handing.Late (q : Handing) (turns : List Turn) (r : RouterRef) (c : CommandRef) : Prop :=
  q.command ≠ c ∧ (q.router = r →
    q.number + 4 ≤ numberOf turns c ∧ q.number % 4 = numberOf turns c % 4)

/-- The words are those of a response to a request with the route of the router and the space,
adapter and offset of the transfer. -/
def Heard (turns : List Turn) (e : Engine) (r : RouterRef) (t : Transfer) (words : List UInt32) :
    Prop :=
  ∃ router address response, e.router? r = some router ∧ t.address = .ok address ∧
    response ∈ responses turns ∧ (∃ q ∈ handed turns, q.echo = response.echo) ∧
    response.echo.label = .read ∧ response.echo.route = router.route ∧
    response.echo.address.SamePlace address ∧ words = response.data.take address.dwords

/-- All words of a run are their callers' own: no response completes a command that asked for
something else, and every read is given words that were read where it asked for them, whether it
returns them or tells them to a callback. -/
structure Own (settings : Settings) (turns : List Turn) (e : Engine) : Prop where
  completed : ∀ turn earlier r c words, turn :: earlier <:+ turns → turn.Completes r c words →
    ∃ command response, turn.after.command? c = some command ∧
      answerOf (turn :: earlier) c = some response ∧ words = response.wordsFor command ∧
      response.echo.Fits command
  returned : ∀ r t style words, (.operate r (.transfer t style), .ok (.words words)) ∈
    returns settings turns → Heard turns e r t words
  told : ∀ turn earlier tag words, turn :: earlier <:+ turns →
    .notify tag (.ok words) ∈ turn.after.stack → ∃ r t,
      .operate r (.transfer t (.callback tag)) ∈ calls turns ∧
        (t.kind = .read → Heard turns e r t words)

/-- An attempt has ended with a late response to a request that asked for something else. -/
def Strayed (turns : List Turn) : Prop :=
  ∃ turn earlier r c words command response q, turn :: earlier <:+ turns ∧
    turn.Completes r c words ∧ turn.after.command? c = some command ∧
    answerOf (turn :: earlier) c = some response ∧ ¬ response.echo.Fits command ∧
    q ∈ handed earlier ∧ q.echo = response.echo ∧ q.Late earlier r c

/-- A response that ends an attempt answers a request of the same command, or is late. -/
theorem Run.told_apart (h : Run settings turns e) (honest : Honest turns)
    (hs : turn :: earlier <:+ turns) (hdone : turn.Completes r c words) :
    ∃ command response, turn.after.command? c = some command ∧
      answerOf (turn :: earlier) c = some response ∧ words = response.wordsFor command ∧
      (response.echo.Fits command ∨
        ∃ q ∈ handed earlier, q.echo = response.echo ∧ q.Late earlier r c) := by
  obtain ⟨hrun, hallows, hmove, -⟩ := h.of_suffix hs
  obtain ⟨old, command, response, hold, hc, hmade, backs, hwords, q, hq, hecho⟩ :=
    hrun.ended_by (honest.of_suffix hs) hallows hmove hdone
  have hkind : command.kind = old.kind := congrArg (·.kind) hmade
  have haddress : command.address = old.address := congrArg (·.address) hmade
  have hsame : response.wordsFor old = response.wordsFor command := by
    unfold Response.wordsFor
    rw [hkind, haddress]
  refine ⟨command, response, hc, backs.latest, hwords.trans hsame, ?_⟩
  have outrun := hrun.outrun q hq
  by_cases hown : q.command = c
  · left
    obtain ⟨asked, hasked, hfits⟩ := outrun.asked
    rw [hown, hold] at hasked
    cases hasked
    rw [hecho] at hfits
    exact hfits.of_made hmade
  · refine .inr ⟨q, hq, hecho, hown, fun hr => ?_⟩
    have hmem : c ∈ (turn.before.queue q.router).members :=
      hr ▸ Queue.mem_members.2 (.inl hdone.1)
    have hattempt : (turn.before.attempt c).2 = q.echo.address.seq := by
      rw [attempt_of_command hold, hecho, backs.seq]
    have hseq := hrun.numbered.seq c ⟨_, hmem⟩
    rw [hattempt, outrun.seq] at hseq
    exact ⟨outrun.late hrun.numbered hmem hown hattempt, hseq⟩

/-- The words that a command of a read has ended with, if they are its own. -/
theorem Own.heard_of_ended {t : Transfer} (honest : Honest turns)
    (completed : ∀ turn earlier r c words, turn :: earlier <:+ turns → turn.Completes r c words →
      ∃ command response, turn.after.command? c = some command ∧
        answerOf (turn :: earlier) c = some response ∧ words = response.wordsFor command ∧
        response.echo.Fits command)
    (hended : Ended turns command words) (hcarries : e.Carries r t command)
    (hread : t.kind = .read) : Heard turns e r t words := by
  obtain ⟨turn, earlier, r', c, new, hs, hdone, hnew, hmade⟩ := hended
  obtain ⟨new', response, hnew', hanswer, hwords, hlabel, hroute, hplace⟩ :=
    completed turn earlier r' c words hs hdone
  rw [hnew] at hnew'
  cases hnew'
  obtain ⟨⟨-, router, hr, hsame⟩, hkind, haddress⟩ := hcarries
  have hkind' : new.kind = .read := ((congrArg (·.kind) hmade).trans hkind).trans hread
  have hroute' : new.route = command.route := congrArg (·.route) hmade
  have haddress' : new.address = command.address := congrArg (·.address) hmade
  have hmem : response ∈ responses turns := by
    obtain ⟨later, rfl⟩ := hs
    unfold responses
    rw [List.filterMap_append]
    exact List.mem_append_right _ (mem_responses_of_answerOf hanswer)
  refine ⟨router, command.address, response, hr, haddress, hmem, honest.asked_of_mem hmem,
    ?_, ?_, ?_, ?_⟩
  · rw [hlabel, hkind']
    rfl
  · rw [hroute, hroute', hsame]
  · rw [← haddress']
    exact hplace
  · rw [hwords]
    unfold Response.wordsFor
    rw [hkind', haddress']

theorem words_of_transferAnswer {t : Transfer} {style : Style} {received : List UInt32}
    (h : .words words = Operation.transferAnswer t style received) :
    t.kind = .read ∧ words = received ∧ ∀ tag, style ≠ .callback tag := by
  cases t with
  | write => cases style <;> cases h
  | read =>
    cases style with
    | callback => cases h
    | waiting | future =>
      cases h
      exact ⟨rfl, rfl, nofun⟩

/-- **The words of a run are their callers' own exactly as long as it has not strayed.** Over a far
end that answers each request at most once, nothing but a response that is four or more attempts
late, or was meant for another router, can be taken for the answer to another command's request. -/
theorem Run.own_iff (h : Run settings turns e) (honest : Honest turns) :
    Own settings turns e ↔ ¬ Strayed turns := by
  constructor
  · rintro own ⟨turn, earlier, r, c, words, command, response, q, hs, hdone, hc, hanswer, hfits, -⟩
    obtain ⟨command', response', hc', hanswer', -, hfits'⟩ :=
      own.completed turn earlier r c words hs hdone
    rw [hc] at hc'
    rw [hanswer] at hanswer'
    cases hc'
    cases hanswer'
    exact hfits hfits'
  · intro hstrayed
    have completed : ∀ turn earlier r c words, turn :: earlier <:+ turns →
        turn.Completes r c words → ∃ command response, turn.after.command? c = some command ∧
          answerOf (turn :: earlier) c = some response ∧ words = response.wordsFor command ∧
          response.echo.Fits command := by
      intro turn earlier r c words hs hdone
      obtain ⟨command, response, hc, hanswer, hwords, hown⟩ := h.told_apart honest hs hdone
      refine ⟨command, response, hc, hanswer, hwords, ?_⟩
      rcases hown with hfits | ⟨q, hq, hecho, hlate⟩
      · exact hfits
      · refine Classical.byContradiction fun hfits => hstrayed ?_
        exact ⟨turn, earlier, r, c, words, command, response, q, hs, hdone, hc, hanswer, hfits, hq,
          hecho, hlate⟩
    refine ⟨completed, fun r t style words hret => ?_, fun turn earlier tag words hs hn => ?_⟩
    · obtain ⟨standing, source⟩ := h.sourced
      obtain ⟨received, hanswer, hsource⟩ := source.returned r t style _ hret
      obtain ⟨hread, rfl, hstyle⟩ := words_of_transferAnswer hanswer
      obtain ⟨command, hcarries, hended⟩ := hsource hstyle
      exact Own.heard_of_ended honest completed hended hcarries hread
    · obtain ⟨hrun, hallows, hmove, x⟩ := h.of_suffix hs
      obtain ⟨standing, source⟩ := (Run.next hrun hallows hmove).sourced
      obtain ⟨r, t, command, hmade, hcarries, hended⟩ := source.notes tag words hn
      refine ⟨r, t, calls_of_suffix hs _ hmade, fun hread => ?_⟩
      exact Own.heard_of_ended honest completed (hended.mono hs rfl) (hcarries.mono x rfl) hread

/-! ## A response that is four attempts late -/

/-- The moves of a read of one word of the host router, up to the wait for its answer. -/
def readMoves (id offset : Nat) : List Move :=
  [.call (.operate ⟨0⟩ (.transfer (.read .router 0 offset 1) (.waiting .woken))), .proceed,
    .grant (.ok ()), .proceed, .proceed, .grant (.ok ()), .proceed, .proceed,
    .receive (.sent (some (.command ⟨0⟩ ⟨id⟩ 1))), .collect]

/-- A response arrives and the caller that waits has its answer. -/
def answerMoves (offset seq : Nat) (word : UInt32) : List Move :=
  [.receive (.received .read .read
      (ReadResponse.encode ⟨Route.root, ⟨.router, 0, offset, 1, seq⟩, [word]⟩)),
    .proceed, .proceed, .proceed, .proceed, .collect, .proceed, .proceed, .proceed, .collect]

/-- A read at one offset is given up, three reads at another are answered, and the response to the
first arrives while a fourth one waits. -/
def lateMoves : List Move :=
  hostMoves hostWords ++
  readMoves 2 64 ++
    ([.elapse 2000, .giveUp, .proceed, .proceed, .proceed, .proceed, .proceed, .proceed,
      .collect] : List Move) ++
  readMoves 3 80 ++ answerMoves 80 2 222 ++ readMoves 4 80 ++ answerMoves 80 3 222 ++
  readMoves 5 80 ++ answerMoves 80 0 222 ++ readMoves 6 80 ++ answerMoves 64 1 111

/-- The transport refuses something in a turn. -/
def Turn.refuses (turn : Turn) : Bool :=
  match turn.move with
  | .grant (.error _) => true
  | _ => false

theorem exists_late : ∃ turns e, Run { retries := 0 } turns e ∧ Honest turns ∧
    (∀ turn ∈ turns, turn.refuses = false) ∧
    (.operate ⟨0⟩ (.transfer (.read .router 0 80 1) (.waiting .woken)), .ok (.words [111])) ∈
      returns { retries := 0 } turns ∧
    ∀ response ∈ responses turns, response.echo.address.offset = 80 → response.data = [222] := by
  have played : (replay? { retries := 0 } lateMoves.reverse).any (fun (turns, _) =>
      decide (Honest turns) && decide (∀ turn ∈ turns, turn.refuses = false) &&
      decide ((.operate ⟨0⟩ (.transfer (.read .router 0 80 1) (.waiting .woken)),
        .ok (.words [111])) ∈ returns { retries := 0 } turns) &&
      decide (∀ response ∈ responses turns, response.echo.address.offset = 80 →
        response.data = [222])) = true := by
    decide +kernel
  obtain ⟨turns, e, run, hcheck⟩ := exists_of_replay? played
  simp only [Bool.and_eq_true, decide_eq_true_eq] at hcheck
  obtain ⟨⟨⟨honest, haccepted⟩, hret⟩, hresponses⟩ := hcheck
  exact ⟨turns, e, run, honest, haccepted, hret, hresponses⟩

/-- The words of a read at one offset are not those of any response for it. -/
theorem not_own_of_late
    (hret : (.operate ⟨0⟩ (.transfer (.read .router 0 80 1) (.waiting .woken)),
      .ok (.words [111])) ∈ returns settings turns)
    (hresponses : ∀ response ∈ responses turns, response.echo.address.offset = 80 →
      response.data = [222]) : ¬ Own settings turns e := by
  intro own
  obtain ⟨router, address, response, -, haddress, hmem, -, -, -, ⟨-, -, hoffset⟩, hwords⟩ :=
    own.returned _ _ _ _ hret
  cases haddress
  rw [hresponses response hmem hoffset] at hwords
  cases hwords

/-- The run has strayed. -/
theorem late_response_strays : ∃ turns e, Run { retries := 0 } turns e ∧ Honest turns ∧
    Strayed turns := by
  obtain ⟨turns, e, run, honest, -, hret, hresponses⟩ := exists_late
  refine ⟨turns, e, run, honest, Classical.byContradiction fun hstrayed => ?_⟩
  exact not_own_of_late hret hresponses ((run.own_iff honest).2 hstrayed)

/-- Even if the transport refuses nothing, words may be another read's. -/
theorem own_fails : ¬ ∀ settings turns e, Run settings turns e → Honest turns →
    (∀ turn ∈ turns, turn.refuses = false) → Own settings turns e := by
  intro hown
  obtain ⟨turns, e, run, honest, haccepted, hret, hresponses⟩ := exists_late
  exact not_own_of_late hret hresponses (hown _ _ _ run honest haccepted)

end RouterFabric
