import Mathlib.Data.List.Range
import RouterFabric.Command

/-!
# One call completes an attempt

Many parties act on one command: its transport reports the request as sent, an answer arrives, a
notification or an expiry ends the attempt by force, and a caller begins the next one. Each of them
names the attempt it means. Whatever they do and in whichever order, an attempt is completed by one
of their calls, that call is told so, and a call that means another attempt changes nothing.

The attempts of a command are told apart by their generations alone, so what carries the proofs is
what one call does to the generation and to the two signals (`Visit.Sound`). A run of calls is
followed from its first one on.

* `Command.Touch`, `Command.touch` : a call of any party, and what it does
* `Command.visits` : the calls of a run, each with the command it found and the one it left
* `Command.Unused.completed_once` : the attempts of a command, and who completes each of them
* `Command.takeResponse_afterAll` : which words an attempt is answered with
-/

namespace RouterFabric

namespace Command

/-! ## Calls -/

/-- A call of any party on a command. No other call comes between what it reads and what it
writes. -/
inductive Touch
  | beginAttempt (seq : Nat)
  | mark (generation : Nat) (signal : Signal) (words : Option (List UInt32))
  | markAll (generation : Nat)
  | takeResponse
  | setPhase (phase : Phase) (now : Nat)
  | finish (ending : Ending)
  | takeEnding
  deriving DecidableEq, Repr

/-- The attempt that a signal is meant for. -/
def Touch.meant? : Touch → Option Nat
  | .mark generation _ _ => some generation
  | .markAll generation => some generation
  | _ => none

/-- Whether the call begins an attempt. -/
def Touch.begins : Touch → Bool
  | .beginAttempt _ => true
  | _ => false

/-- Whether the party is told that it has completed the attempt, and what becomes of the command. -/
def touch (c : Command) : Touch → Bool × Command
  | .beginAttempt seq => (false, c.beginAttempt seq)
  | .mark generation signal words => c.mark generation signal words
  | .markAll generation => c.markAll generation
  | .takeResponse => (false, c.takeResponse.2)
  | .setPhase phase now => (false, c.setPhase phase now)
  | .finish ending => (false, c.finish ending)
  | .takeEnding => (false, c.takeEnding.2)

/-- One call of a run. -/
structure Visit where
  touch : Touch
  /-- the command that the call found -/
  before : Command
  /-- whether the party was told that it completed the attempt -/
  told : Bool
  /-- the command that the call left -/
  after : Command
  deriving DecidableEq, Repr

/-- The calls of a run, in their order. -/
def visits (c : Command) : List Touch → List Visit
  | [] => []
  | t :: later => ⟨t, c, (c.touch t).1, (c.touch t).2⟩ :: visits (c.touch t).2 later

/-- The generation that the call began. -/
def Visit.begun? (v : Visit) : Option Nat :=
  if v.touch.begins then some v.after.generation else none

/-- The generation that the call was told to have completed. -/
def Visit.completed? (v : Visit) : Option Nat :=
  if v.told then some v.after.generation else none

/-! ## One call -/

/-- What one call does to the generation of a command and to its signals. -/
structure Visit.Sound (v : Visit) : Prop where
  /-- beginning an attempt is what raises the generation -/
  generation : v.after.generation = v.before.generation + v.touch.begins.toNat
  /-- an attempt begins without its signals -/
  begun : v.touch.begins = true → v.after.isComplete = false
  /-- signals stay as long as the attempt lasts -/
  kept : v.touch.begins = false → v.before.isComplete = true → v.after.isComplete = true
  told : v.told = true ↔ v.before.isComplete = false ∧ v.after.isComplete = true
  /-- whoever is told so meant the current attempt -/
  meant : v.told = true → v.touch.meant? = some v.before.generation
  /-- a signal of another attempt does nothing -/
  stray : ∀ g, v.touch.meant? = some g → g ≠ v.before.generation →
    v.told = false ∧ v.after = v.before

variable {c : Command}

/-- A call that names no attempt, begins none and leaves the signals alone. -/
theorem sound_of_aside {t : Touch} {c' : Command} (hm : t.meant? = none) (hb : t.begins = false)
    (hg : c'.generation = c.generation) (hc : c'.isComplete = c.isComplete) :
    (⟨t, c, false, c'⟩ : Visit).Sound where
  generation := by simp [hg, hb]
  begun h := by simp [hb] at h
  kept _ h := hc.trans h
  told := by simp [hc]
  meant h := by cases h
  stray g h := by simp [hm] at h

theorem sound_mark (c : Command) (g : Nat) (signal : Signal) (words : Option (List UInt32)) :
    (⟨.mark g signal words, c, (c.mark g signal words).1, (c.mark g signal words).2⟩ : Visit).Sound
    := by
  by_cases h : c.generation = g
  · subst h
    constructor
    case generation => simp [mark, Touch.begins]
    case begun => intro hb; cases hb
    case kept =>
      intro _ hc
      have : c.sent = true ∧ c.answered = true := by simpa [isComplete] using hc
      simp [mark, isComplete, this.1, this.2]
    case told => simp [mark]
    case meant => intro _; rfl
    case stray =>
      intro g' hg' hne
      cases hg'
      exact absurd rfl hne
  · -- both the answer and the command are those of a call that does nothing
    have hmark : c.mark g signal words = (false, c) := by simp [mark, h]
    rw [hmark]
    constructor
    case generation => simp [Touch.begins]
    case begun => intro hb; cases hb
    case kept => intro _ hc; exact hc
    case told => simp
    case meant => intro ht; cases ht
    case stray => intro _ _ _; exact ⟨rfl, rfl⟩

theorem sound_markAll (c : Command) (g : Nat) :
    (⟨.markAll g, c, (c.markAll g).1, (c.markAll g).2⟩ : Visit).Sound := by
  by_cases h : c.generation = g
  · subst h
    constructor
    case generation => simp [markAll, Touch.begins]
    case begun => intro hb; cases hb
    case kept => intro _ _; simp [markAll, isComplete]
    case told =>
      have hafter : ({ c with sent := true, answered := true } : Command).isComplete = true := rfl
      simp [markAll, hafter]
    case meant => intro _; rfl
    case stray =>
      intro g' hg' hne
      cases hg'
      exact absurd rfl hne
  · have hmark : c.markAll g = (false, c) := by simp [markAll, h]
    rw [hmark]
    constructor
    case generation => simp [Touch.begins]
    case begun => intro hb; cases hb
    case kept => intro _ hc; exact hc
    case told => simp
    case meant => intro ht; cases ht
    case stray => intro _ _ _; exact ⟨rfl, rfl⟩

/-- The step lemma: one case for each call. -/
theorem sound_touch (c : Command) (t : Touch) :
    (⟨t, c, (c.touch t).1, (c.touch t).2⟩ : Visit).Sound := by
  cases t with
  | beginAttempt seq =>
    constructor
    case generation => rfl
    case begun => intro _; rfl
    case kept => intro hb; cases hb
    case told => simp [touch, beginAttempt, isComplete]
    case meant => intro ht; cases ht
    case stray => intro g hg; cases hg
  | mark g signal words => exact sound_mark c g signal words
  | markAll g => exact sound_markAll c g
  | takeResponse => exact sound_of_aside rfl rfl rfl rfl
  | setPhase phase now => exact sound_of_aside rfl rfl rfl rfl
  | finish ending => exact sound_of_aside rfl rfl rfl rfl
  | takeEnding =>
    have h : c.takeEnding.2.generation = c.generation ∧
        c.takeEnding.2.isComplete = c.isComplete := by
      unfold takeEnding
      split <;> exact ⟨rfl, rfl⟩
    exact sound_of_aside rfl rfl h.1 h.2

namespace Visit

variable {v : Visit}

theorem Sound.le (h : v.Sound) : v.before.generation ≤ v.after.generation := by
  have := h.generation
  omega

/-- As long as its generation is the same, an attempt that was complete still is. -/
theorem Sound.complete_after (h : v.Sound) (hg : v.after.generation = v.before.generation)
    (hc : v.before.isComplete = true) : v.after.isComplete = true := by
  apply h.kept _ hc
  cases hb : v.touch.begins with
  | false => rfl
  | true =>
    have := h.generation
    simp only [hb, Bool.toNat_true] at this
    omega

/-- A complete attempt was completed by this very call, if it had not been before. -/
theorem Sound.told_iff (h : v.Sound) : v.told = true ↔ v.after.isComplete = true ∧
    (v.before.generation = v.after.generation → v.before.isComplete = false) := by
  rw [h.told]
  constructor
  · rintro ⟨hbefore, hafter⟩
    exact ⟨hafter, fun _ => hbefore⟩
  · rintro ⟨hafter, hfirst⟩
    refine ⟨hfirst ?_, hafter⟩
    cases hb : v.touch.begins with
    | false => have := h.generation; simp [hb] at this; exact this.symm
    | true => rw [h.begun hb] at hafter; cases hafter

end Visit

/-! ## Runs of calls -/

theorem sound_visits {v : Visit} : ∀ {c : Command} {calls : List Touch},
    v ∈ c.visits calls → v.Sound
  | c, t :: later, h => by
    rcases List.mem_cons.mp h with rfl | h
    · exact sound_touch c t
    · exact sound_visits h

theorem le_of_mem_visits {v : Visit} : ∀ {c : Command} {calls : List Touch}, v ∈ c.visits calls →
    c.generation ≤ v.before.generation
  | c, t :: later, h => by
    rcases List.mem_cons.mp h with rfl | h
    · exact Nat.le_refl _
    · exact Nat.le_trans (sound_touch c t).le (le_of_mem_visits h)

/-- Attempts are numbered one after the other, from the one after the current attempt on. -/
theorem begun_visits : ∀ (c : Command) (calls : List Touch),
    (c.visits calls).filterMap Visit.begun? =
      List.range' (c.generation + 1) (calls.countP Touch.begins)
  | c, [] => rfl
  | c, t :: later => by
    have hg := (sound_touch c t).generation
    have ih := begun_visits (c.touch t).2 later
    simp only at hg
    cases hb : t.begins with
    | false =>
      rw [hb] at hg
      simp [visits, Visit.begun?, hb, ih, hg]
    | true =>
      rw [hb] at hg
      simp [visits, Visit.begun?, hb, ih, hg, List.range'_succ]

/-- Whatever is completed later on belongs to this attempt or to a later one, and to a later one
only if this attempt is complete. -/
theorem completed_visits_ge : ∀ (c : Command) (calls : List Touch),
    ∀ g ∈ (c.visits calls).filterMap Visit.completed?,
      c.generation ≤ g ∧ (c.isComplete = true → c.generation < g)
  | c, [], g, h => by cases h
  | c, t :: later, g, h => by
    have hs := sound_touch c t
    have ih := completed_visits_ge (c.touch t).2 later g
    obtain ⟨v, hv, hg⟩ := List.mem_filterMap.mp h
    rcases List.mem_cons.mp hv with rfl | hv
    · -- the call that completes is the first one, so the attempt was not complete
      simp only [Visit.completed?, Option.ite_none_right_eq_some, Option.some.injEq] at hg
      obtain ⟨htold, rfl⟩ := hg
      refine ⟨hs.le, fun hc => ?_⟩
      rw [(hs.told.mp htold).1] at hc
      cases hc
    · obtain ⟨hle, hlt⟩ := ih (List.mem_filterMap.mpr ⟨v, hv, hg⟩)
      have hnext : c.generation ≤ (c.touch t).2.generation := hs.le
      refine ⟨Nat.le_trans hnext hle, fun hc => ?_⟩
      by_cases hsame : (c.touch t).2.generation = c.generation
      · have := hlt (hs.complete_after hsame hc)
        omega
      · omega

/-- The run lemma for who is told: the generations that are completed increase. -/
theorem completed_visits : ∀ (c : Command) (calls : List Touch),
    ((c.visits calls).filterMap Visit.completed?).Pairwise (· < ·)
  | c, [] => List.Pairwise.nil
  | c, t :: later => by
    have hs := sound_touch c t
    have ih := completed_visits (c.touch t).2 later
    have hlater := completed_visits_ge (c.touch t).2 later
    rw [visits, List.filterMap_cons]
    split
    · exact ih
    · rename_i g hg
      simp only [Visit.completed?, Option.ite_none_right_eq_some, Option.some.injEq] at hg
      obtain ⟨htold, rfl⟩ := hg
      refine List.pairwise_cons.mpr ⟨fun g' hg' => ?_, ih⟩
      exact (hlater g' hg').2 (hs.told.mp htold).2

/-- The run lemma for when they are told: a call is told that it completed the attempt if it left it
complete, and neither the run began with it complete nor an earlier call left it so. -/
theorem told_visits {v : Visit} {later : List Visit} : ∀ (earlier : List Visit) (c : Command)
    (calls : List Touch), c.visits calls = earlier ++ v :: later →
    (v.told = true ↔ v.after.isComplete = true ∧
      (c.generation = v.after.generation → c.isComplete = false) ∧
      ∀ u ∈ earlier, u.after.generation = v.after.generation → u.after.isComplete = false)
  | [], c, t :: rest, h => by
    obtain ⟨rfl, -⟩ := List.cons.inj h
    rw [(sound_touch c t).told_iff]
    simp
  | u :: earlier, c, t :: rest, h => by
    obtain ⟨rfl, hrest⟩ := List.cons.inj h
    have hs := sound_touch c t
    have hv : v ∈ (c.touch t).2.visits rest := by rw [hrest]; simp
    have hle := Nat.le_trans (le_of_mem_visits hv) (sound_visits hv).le
    have hnext : c.generation ≤ (c.touch t).2.generation := hs.le
    rw [told_visits earlier _ rest hrest, List.forall_mem_cons]
    apply and_congr_right
    intro _
    constructor
    · rintro ⟨hfirst, hlater⟩
      refine ⟨fun hg => ?_, hfirst, hlater⟩
      -- an attempt that was complete at first would have been complete after the first call
      by_contra hc
      have hsame : (c.touch t).2.generation = c.generation := by omega
      have := hs.complete_after hsame (by simpa using hc)
      rw [hfirst (hsame.trans hg)] at this
      cases this
    · rintro ⟨-, hfirst, hlater⟩
      exact ⟨hfirst, hlater⟩

/-! ## From the first attempt on -/

/-- A command before its first attempt. -/
structure Unused (c : Command) : Prop where
  generation : c.generation = 0
  sent : c.sent = false
  answered : c.answered = false

theorem Unused.not_isComplete (h : c.Unused) : c.isComplete = false := by
  simp [isComplete, h.sent]

/-- The attempts of a command are numbered from one on, without a gap. At most one call is told that
it completed the attempt of a generation. It meant the attempt that was current, and it is the call
that left both signals in for the first time. A signal for an attempt that is not current is told
nothing, and it leaves the command as it was. -/
theorem Unused.completed_once (h : c.Unused) (calls : List Touch) :
    (c.visits calls).filterMap Visit.begun? = List.range' 1 (calls.countP Touch.begins) ∧
    ((c.visits calls).filterMap Visit.completed?).Pairwise (· < ·) ∧
    ∀ earlier v later, c.visits calls = earlier ++ v :: later →
      (v.told = true ↔ v.after.isComplete = true ∧
        ∀ u ∈ earlier, u.after.generation = v.after.generation → u.after.isComplete = false) ∧
      (v.told = true → v.touch.meant? = some v.after.generation) ∧
      ∀ g, v.touch.meant? = some g → g ≠ v.before.generation →
        v.told = false ∧ v.after = v.before := by
  refine ⟨?_, completed_visits c calls, fun earlier v later heq => ?_⟩
  · rw [begun_visits, h.generation]
  · have hs : v.Sound := sound_visits (by rw [heq]; simp)
    refine ⟨?_, fun htold => ?_, hs.stray⟩
    · rw [told_visits earlier c calls heq]
      apply and_congr_right
      intro _
      constructor
      · intro hall
        exact hall.2
      · intro hall
        exact ⟨fun _ => h.not_isComplete, hall⟩
    · have hmeant := hs.meant htold
      have hg := hs.generation
      have hb : v.touch.begins = false := by
        cases hv : v.touch with
        | beginAttempt seq => rw [hv] at hmeant; cases hmeant
        | _ => rfl
      rw [hmeant, hg, hb]
      rfl

/-- A read that has not been tried yet. -/
def untried : Command where
  id := ⟨0⟩
  node := ⟨0⟩
  route := ⟨0⟩
  kind := .read
  address := ⟨.router, 0, 0, 2, 0⟩
  payload := []

/-- Two attempts: the first one is answered before it is reported as sent, and the signals that
follow are one too many; the second one is ended by force after a late signal of the first one. -/
def twoAttempts : List Touch :=
  [.beginAttempt 0, .mark 1 .answered (some [1, 2]), .mark 1 .sent none, .mark 1 .sent none,
    .markAll 1, .takeResponse, .beginAttempt 1, .mark 1 .answered (some [9, 9]), .markAll 2,
    .mark 2 .answered none]

theorem untried_completed_once : untried.Unused ∧
    (untried.visits twoAttempts).filterMap Visit.begun? = [1, 2] ∧
    (untried.visits twoAttempts).filterMap Visit.completed? = [1, 2] ∧
    ((untried.visits twoAttempts).filterMap Visit.completed?).Pairwise (· < ·) ∧
    ∀ v ∈ untried.visits twoAttempts, v.touch = .mark 1 .answered (some [9, 9]) →
      v.told = false ∧ v.after = v.before := by
  have hu : untried.Unused := ⟨rfl, rfl, rfl⟩
  obtain ⟨hbegun, hcompleted, hcalls⟩ := hu.completed_once twoAttempts
  refine ⟨hu, hbegun, by decide, hcompleted, fun v hv htouch => ?_⟩
  obtain ⟨earlier, later, heq⟩ := List.append_of_mem hv
  apply (hcalls earlier v later heq).2.2 1
  · rw [htouch]
    rfl
  · have hlate : ∀ v ∈ untried.visits twoAttempts,
        v.touch = .mark 1 .answered (some [9, 9]) → 1 ≠ v.before.generation := by decide
    exact hlate v hv htouch

/-! ## The words of an attempt -/

/-- Whether the call leaves the recorded words alone. -/
def Touch.sparesWords : Touch → Bool
  | .beginAttempt _ => false
  | .mark _ _ words => words.isNone
  | .takeResponse => false
  | _ => true

/-- What the calls of a run leave. -/
def afterAll (c : Command) (calls : List Touch) : Command :=
  calls.foldl (fun c t => (c.touch t).2) c

theorem response_touch {t : Touch} (h : t.sparesWords = true) :
    (c.touch t).2.response = c.response := by
  cases t with
  | beginAttempt | takeResponse => cases h
  | mark g signal words =>
    obtain rfl : words = none := by simpa [Touch.sparesWords] using h
    simp only [touch, mark]
    split <;> rfl
  | markAll g =>
    simp only [touch, markAll]
    split <;> rfl
  | setPhase | finish => rfl
  | takeEnding =>
    simp only [touch, takeEnding]
    split <;> rfl

theorem response_afterAll (c : Command) (calls : List Touch)
    (h : ∀ t ∈ calls, t.sparesWords = true) : (c.afterAll calls).response = c.response := by
  induction calls generalizing c with
  | nil => rfl
  | cons t calls ih =>
    obtain ⟨ht, hcalls⟩ := List.forall_mem_cons.1 h
    exact (ih _ hcalls).trans (response_touch ht)

/-- The words taken are those of the latest signal of the attempt that has brought any, whether or
not the attempt had been complete before it. -/
theorem takeResponse_afterAll (c : Command) (signal : Signal) (words : List UInt32)
    (calls : List Touch) (h : ∀ t ∈ calls, t.sparesWords = true) :
    ((c.touch (.mark c.generation signal (some words))).2.afterAll calls).takeResponse.1 =
      words := by
  unfold takeResponse
  rw [response_afterAll _ _ h]
  simp [touch, mark]

/-- So what a party has completed an attempt with may have been replaced when it takes the words. -/
example : (untried.visits [.beginAttempt 0, .mark 1 .sent none, .mark 1 .answered (some [1]),
      .mark 1 .answered (some [2])]).map Visit.told = [false, false, true, false] ∧
    (untried.afterAll [.beginAttempt 0, .mark 1 .sent none, .mark 1 .answered (some [1]),
      .mark 1 .answered (some [2])]).takeResponse.1 = [2] := by decide

end Command

end RouterFabric
