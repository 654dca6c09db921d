/-
# Bridge.Grace — the previous difficulty after a raise

When the difficulty of a session rises, the miner goes on for a while with work of the previous
difficulty, and for the time of grace a share that meets it is still accepted.  The session
remembers one previous difficulty and one deadline, and every change overwrites both.

A run keeps every promise of grace as long as no change under a raise in grace goes to a
difficulty above the remembered one (`grace_kept`).  A change to the remembered difficulty or below
is harmless: the current difficulty then covers what was promised.
-/
import CsdPool.Bridge.NetworkSolution
import CsdPool.Bridge.Vardiff

namespace CsdPool.Bridge

open Theory (F64 Machine)

set_option autoImplicit false

def VardiffEvent.now : VardiffEvent → Nat
  | acceptedShare now => now
  | suggestedDifficulty _ now => now

namespace Vardiff

/-- The average share time with the share that comes `now`. -/
def shareAverage (v : Vardiff) (lastShareAt now : Nat) : Option F64 := do
  let target := F64.ofNat v.config.targetShareSecs.toNat
  let elapsedSecs ← (asSecsF64 (now - lastShareAt)).clamp (.ofRat (5 / 100))
    (target.mul (.finite 4))
  return match v.ewmaShareSecs with
    | some previous =>
        (v.config.ewmaAlpha.mul elapsedSecs).add
          (((F64.finite 1).sub v.config.ewmaAlpha).mul previous)
    | none => elapsedSecs

/-- The difficulty a call asks for, if it is due and asks for one; like the code, it is quantized
twice. -/
def asked (v : Vardiff) : VardiffEvent → Option F64
  | .acceptedShare now => do
      let lastShareAt ← v.lastShareAt
      let ewma ← v.shareAverage lastShareAt now
      if now - v.lastAdjustAt.getD now < secs v.config.minAdjustSecs then none
      else
        let factor ← ← desiredFactor v.config ewma
        let next ← (v.currentDifficulty.mul factor).clamp v.config.minDifficulty
          v.config.maxDifficulty
        let next ← v.config.quantizeDifficulty next
        v.config.quantizeDifficulty next
  | .suggestedDifficulty suggested now => do
      if !suggested.isFinite || suggested.le (.finite 0) then none
      else if v.lastAdjustAt.any fun lastAdjustAt =>
          now - lastAdjustAt < secs v.config.minAdjustSecs then none
      else
        let next ← v.suggestedNext suggested
        let next ← v.config.quantizeDifficulty next
        v.config.quantizeDifficulty next

end Vardiff

/-- No change under a raise in grace, but a small one or one to the remembered difficulty or
below. -/
def KeepsGrace (v : Vardiff) (event : VardiffEvent) : Prop :=
  ∀ previous next, v.view.previousDifficultyInGrace event.now = some previous →
    v.asked event = some next →
      isSmallChange next v.currentDifficulty = true ∨ next.toRat ≤ previous

/-! ## What a call does -/

variable {v v' : Vardiff} {now : Nat}

/-- The difficulty is left, with what is remembered of it. -/
structure Left (v v' : Vardiff) : Prop where
  config : v'.config = v.config
  current : v'.currentDifficulty = v.currentDifficulty
  previous : v'.previousDifficulty = v.previousDifficulty
  transition : v'.transitionUntil = v.transitionUntil

/-- The difficulty goes to `next`, and the current one is remembered. -/
structure Went (v : Vardiff) (now : Nat) (next : F64) (v' : Vardiff) : Prop where
  config : v'.config = v.config
  large : isSmallChange next v.currentDifficulty = false
  current : v'.currentDifficulty = next
  previous : v'.previousDifficulty = some v.currentDifficulty
  transition : v'.transitionUntil = some (now + Vardiff.secs v.config.transitionGraceSecs)

theorem applyDifficulty_cases {w : Vardiff} {next : F64}
    (applied : w.applyDifficulty next now = some v') (left : Left v w) :
    ∃ settled, v.config.quantizeDifficulty next = some settled ∧
      (Left v v' ∨ Went v now settled v') := by
  obtain ⟨settled, quantized, rest⟩ := Option.bind_eq_some_iff.1 applied
  rw [left.config] at quantized
  refine ⟨settled, quantized, ?_⟩
  split at rest
  · cases rest
    exact .inl left
  · rename_i large
    rw [left.current] at large
    cases rest
    refine .inr ⟨left.config, by simpa using large, rfl, ?_, ?_⟩
    · rw [← left.current]
    · rw [← left.config]

theorem recordAcceptedShare_cases (recorded : v.recordAcceptedShare now = some v') :
    Left v v' ∨ ∃ next, v.asked (.acceptedShare now) = some next ∧ Went v now next v' := by
  unfold Vardiff.recordAcceptedShare at recorded
  cases known : v.lastShareAt with
  | none =>
      rw [known] at recorded
      cases recorded
      exact .inl ⟨rfl, rfl, rfl, rfl⟩
  | some lastShareAt =>
      rw [known] at recorded
      obtain ⟨elapsed, clamped, rest⟩ := Option.bind_eq_some_iff.1 recorded
      have averaged : v.shareAverage lastShareAt now = some (match v.ewmaShareSecs with
          | some previous =>
              (v.config.ewmaAlpha.mul elapsed).add
                (((F64.finite 1).sub v.config.ewmaAlpha).mul previous)
          | none => elapsed) := by
        unfold Vardiff.shareAverage
        dsimp only
        rw [clamped]
        rfl
      dsimp only at rest
      split at rest
      · cases rest
        exact .inl ⟨rfl, rfl, rfl, rfl⟩
      · rename_i due
        obtain ⟨factor, desired, rest⟩ := Option.bind_eq_some_iff.1 rest
        cases factor with
        | none =>
            cases rest
            exact .inl ⟨rfl, rfl, rfl, rfl⟩
        | some factor =>
            obtain ⟨next, bounded, rest⟩ := Option.bind_eq_some_iff.1 rest
            obtain ⟨quantized, rounded, rest⟩ := Option.bind_eq_some_iff.1 rest
            split at rest
            · cases rest
              exact .inl ⟨rfl, rfl, rfl, rfl⟩
            · obtain ⟨settled, again, outcome⟩ :=
                applyDifficulty_cases (v := v) rest ⟨rfl, rfl, rfl, rfl⟩
              refine outcome.imp id fun went => ⟨settled, ?_, went⟩
              refine Option.bind_eq_some_iff.2 ⟨lastShareAt, known, ?_⟩
              refine Option.bind_eq_some_iff.2 ⟨_, averaged, ?_⟩
              rw [if_neg due]
              refine Option.bind_eq_some_iff.2 ⟨some factor, desired, ?_⟩
              refine Option.bind_eq_some_iff.2 ⟨factor, rfl, ?_⟩
              refine Option.bind_eq_some_iff.2 ⟨next, bounded, ?_⟩
              exact Option.bind_eq_some_iff.2 ⟨quantized, rounded, again⟩

theorem applySuggestedDifficulty_cases {suggested : F64}
    (applied : v.applySuggestedDifficulty suggested now = some v') :
    Left v v' ∨
      ∃ next, v.asked (.suggestedDifficulty suggested now) = some next ∧ Went v now next v' := by
  unfold Vardiff.applySuggestedDifficulty at applied
  split at applied
  · cases applied
    exact .inl ⟨rfl, rfl, rfl, rfl⟩
  · rename_i number
    split at applied
    · cases applied
      exact .inl ⟨rfl, rfl, rfl, rfl⟩
    · rename_i due
      obtain ⟨next, bounded, rest⟩ := Option.bind_eq_some_iff.1 applied
      obtain ⟨quantized, rounded, rest⟩ := Option.bind_eq_some_iff.1 rest
      split at rest
      · cases rest
        exact .inl ⟨rfl, rfl, rfl, rfl⟩
      · obtain ⟨settled, again, outcome⟩ := applyDifficulty_cases (v := v) rest ⟨rfl, rfl, rfl, rfl⟩
        refine outcome.imp id fun went => ⟨settled, ?_, went⟩
        rw [Vardiff.asked, if_neg number, if_neg due]
        refine Option.bind_eq_some_iff.2 ⟨next, bounded, ?_⟩
        exact Option.bind_eq_some_iff.2 ⟨quantized, rounded, again⟩

/-- A call leaves the difficulty, or goes to the one it asks for. -/
theorem vardiff_cases {config : VardiffConfig} {event : VardiffEvent}
    (stepped : (vardiffMachine config).step v event = some v') :
    Left v v' ∨ ∃ next, v.asked event = some next ∧ Went v event.now next v' := by
  cases event with
  | acceptedShare now => exact recordAcceptedShare_cases stepped
  | suggestedDifficulty suggested now => exact applySuggestedDifficulty_cases stepped

/-! ## Promises -/

/-- The difficulty rose from `low` to `high`. -/
structure Raise where
  low : ℚ
  high : ℚ
  time : Nat
  deriving DecidableEq

/-- The latest instant of a run and its raises. -/
structure Raises where
  clock : Nat
  raises : List Raise
  deriving DecidableEq

def recordRaise (config : VardiffConfig) (history : Raises) (v : Vardiff) (event : VardiffEvent) :
    Raises where
  clock := event.now
  raises :=
    match (vardiffMachine config).step v event with
    | none => history.raises
    | some v' =>
        if v.currentDifficulty.toRat < v'.currentDifficulty.toRat then
          ⟨v.currentDifficulty.toRat, v'.currentDifficulty.toRat, event.now⟩ :: history.raises
        else history.raises

def graceMachine (config : VardiffConfig) : Machine (Vardiff × Raises) VardiffEvent :=
  (vardiffMachine config).recording ⟨0, []⟩ (recordRaise config)

/-- A share that meets a difficulty the session has risen above is accepted at every instant within
the grace of that raise. -/
def GraceGiven (p : Vardiff × Raises) : Prop :=
  ∀ raise ∈ p.2.raises, ∀ time, p.2.clock ≤ time →
    time ≤ raise.time + Vardiff.secs p.1.config.transitionGraceSecs →
    ∀ n : Nat, 0 < n → raise.low ≤ n → (n : ℚ) < raise.high →
    ∀ (digest : Digest) (template : WorkTemplate) (extranonce1Le : Bytes 4)
      (submit : SubmitParams) (share : VerifiedShare),
      verifySubmit digest template extranonce1Le submit n = .ok share →
        ∃ difficulty, verifySubmitForVardiff digest template extranonce1Le submit p.1.view time =
          .ok (share, difficulty)

/-- The instants do not run backwards, and each call keeps the grace. -/
def keepsGrace (p : Vardiff × Raises) (event : VardiffEvent) : Prop :=
  p.2.clock ≤ event.now ∧ KeepsGrace p.1 event

/-- What is promised is covered by the current difficulty, or by the remembered one for long
enough. -/
def Covers (v : Vardiff) (raise : Raise) : Prop :=
  v.currentDifficulty.toRat ≤ raise.low ∨
    ∃ previous limit, v.previousDifficulty = some previous ∧ previous.toRat ≤ raise.low ∧
      previous.toRat < v.currentDifficulty.toRat ∧ v.transitionUntil = some limit ∧
      raise.time + Vardiff.secs v.config.transitionGraceSecs ≤ limit

structure Held (p : Vardiff × Raises) : Prop where
  past : ∀ raise ∈ p.2.raises, raise.time ≤ p.2.clock
  covers : ∀ raise ∈ p.2.raises,
    p.2.clock ≤ raise.time + Vardiff.secs p.1.config.transitionGraceSecs → Covers p.1 raise

theorem Covers.left {raise : Raise} (covers : Covers v raise) (left : Left v v') :
    Covers v' raise := by
  unfold Covers
  rw [left.current, left.previous, left.transition, left.config]
  exact covers

/-- The case split of the argument: a promise that the current difficulty covers is remembered by
the next change, and one that is only remembered is covered by what a change may go to. -/
theorem Covers.went {raise : Raise} {event : VardiffEvent} {next : F64} (covers : Covers v raise)
    (keeps : KeepsGrace v event) (asked : v.asked event = some next)
    (went : Went v event.now next v') (past : raise.time ≤ event.now)
    (inTime : event.now ≤ raise.time + Vardiff.secs v.config.transitionGraceSecs) :
    Covers v' raise := by
  rcases covers with current | ⟨previous, limit, known, low, rose, until_, long⟩
  · by_cases falls : next.toRat ≤ v.currentDifficulty.toRat
    · left
      rw [went.current]
      exact falls.trans current
    · refine .inr ⟨v.currentDifficulty, _, went.previous, current, ?_, went.transition, ?_⟩
      · rw [went.current]
        exact not_le.1 falls
      · rw [went.config]
        omega
  · have inGrace : v.view.previousDifficultyInGrace event.now = some previous.toRat := by
      unfold VardiffState.previousDifficultyInGrace Vardiff.view
      dsimp only
      rw [until_, known, Option.filter_some, if_pos (by simpa using le_trans inTime long),
        Option.bind_some, Option.map_some, Option.filter_some, if_pos (by simpa using rose)]
    left
    rw [went.current]
    rcases keeps previous.toRat next inGrace asked with small | below
    · rw [went.large] at small
      cases small
    · exact below.trans low

theorem Held.step {config : VardiffConfig} {p p' : Vardiff × Raises} {event : VardiffEvent}
    (held : Held p) (allowed : keepsGrace p event)
    (stepped : (graceMachine config).step p event = some p') : Held p' := by
  obtain ⟨moved, recorded⟩ := Machine.recording_step stepped
  obtain ⟨v', history⟩ := p'
  dsimp only at moved recorded
  subst recorded
  obtain ⟨later, keeps⟩ := allowed
  have same : v'.config = p.1.config := by
    rcases vardiff_cases moved with left | ⟨next, -, went⟩
    · exact left.config
    · exact went.config
  have old : ∀ raise ∈ p.2.raises,
      event.now ≤ raise.time + Vardiff.secs p.1.config.transitionGraceSecs → Covers v' raise := by
    intro raise member inTime
    have covers := held.covers raise member (later.trans inTime)
    rcases vardiff_cases moved with left | ⟨next, asked, went⟩
    · exact covers.left left
    · exact covers.went keeps asked went ((held.past raise member).trans later) inTime
  have raises : ∀ raise ∈ (recordRaise config p.2 p.1 event).raises,
      raise ∈ p.2.raises ∨
        p.1.currentDifficulty.toRat < v'.currentDifficulty.toRat ∧
          raise = ⟨p.1.currentDifficulty.toRat, v'.currentDifficulty.toRat, event.now⟩ := by
    intro raise member
    unfold recordRaise at member
    dsimp only at member
    rw [moved] at member
    dsimp only at member
    split at member
    · rename_i rose
      rcases List.mem_cons.1 member with new | old
      · exact .inr ⟨rose, new⟩
      · exact .inl old
    · exact .inl member
  refine ⟨fun raise member => ?_, fun raise member inTime => ?_⟩
  · rcases raises raise member with known | ⟨-, rfl⟩
    · exact (held.past raise known).trans later
    · exact le_refl _
  · rw [same] at inTime
    rcases raises raise member with known | ⟨rose, rfl⟩
    · exact old raise known inTime
    · rcases vardiff_cases moved with left | ⟨next, -, went⟩
      · rw [left.current] at rose
        exact absurd rose (lt_irrefl _)
      · refine .inr ⟨p.1.currentDifficulty, _, went.previous, le_refl _, rose, went.transition, ?_⟩
        rw [same]

theorem held {config : VardiffConfig} {p : Vardiff × Raises}
    (reached : (graceMachine config).Reaches keepsGrace p) : Held p := by
  refine reached.invariant ?_ ?_
  · rintro ⟨v, history⟩ ⟨-, start⟩
    have begin_ : history = ⟨0, []⟩ := start
    subst begin_
    exact ⟨fun raise member => (by cases member), fun raise member => by cases member⟩
  · intro p event p' _ held allowed stepped
    exact held.step allowed stepped

/-! ## Targets -/

/-- A share of a difficulty is one of every lower difficulty. -/
theorem meets_of_le {hash base : Hash32} {m n : Nat} (positive : 0 < m) (le : m ≤ n)
    (meets : hashLeqTarget hash (targetForDifficulty base n) = true) :
    hashLeqTarget hash (targetForDifficulty base m) = true := by
  have unit : 1 ≤ u64Max := by decide
  rw [hashLeqTarget_iff, value_targetForDifficulty _ (lt_of_lt_of_le positive le)] at meets
  rw [hashLeqTarget_iff, value_targetForDifficulty _ positive]
  exact meets.trans (Nat.div_le_div_left (min_le_min_right _ le) (Nat.lt_min.2 ⟨positive, unit⟩))

theorem graceGiven_of_held {p : Vardiff × Raises} (steady : Steady p.1) (held : Held p) :
    GraceGiven p := by
  intro raise member time later inTime n positive low high digest template extranonce1Le submit
    share verified
  obtain ⟨solution, parsed, rfl⟩ := verifySubmit_ok verified
  have met : hashLeqTarget (solvedShare digest template extranonce1Le solution).hash
      (targetForDifficulty template.shareTarget n) = true := by
    rw [verifySubmit_of_parsed parsed] at verified
    split at verified
    · assumption
    · cases verified
  have below : ∀ {difficulty : F64}, Whole difficulty → difficulty.toRat ≤ raise.low →
      hashLeqTarget (solvedShare digest template extranonce1Le solution).hash
        (targetForDifficulty template.shareTarget difficulty.toRat) = true := by
    intro difficulty whole atMost
    obtain ⟨m, positive', is⟩ := whole_toRat whole
    rw [is] at atMost ⊢
    exact meets_of_le positive' (by exact_mod_cast atMost.trans low) met
  have accepted : ∃ share difficulty,
      verifySubmitForVardiff digest template extranonce1Le submit p.1.view time =
        .ok (share, difficulty) := by
    rw [verifySubmitForVardiff_accepts_iff _ _ parsed]
    rcases held.covers raise member (later.trans inTime) with
      current | ⟨previous, limit, known, atMost, rose, until_, long⟩
    · exact .inl (below steady.current current)
    · refine .inr ⟨previous.toRat, ?_, below (steady.previous previous known) atMost⟩
      unfold VardiffState.previousDifficultyInGrace Vardiff.view
      dsimp only
      rw [until_, known, Option.filter_some, if_pos (by simpa using inTime.trans long),
        Option.bind_some, Option.map_some, Option.filter_some, if_pos (by simpa using rose)]
  obtain ⟨share', difficulty, here⟩ := accepted
  obtain ⟨solution', parsed', rfl⟩ := verifySubmitForVardiff_ok here
  obtain rfl : solution = solution' := Except.ok.inj (parsed.symm.trans parsed')
  exact ⟨difficulty, here⟩

/-- **Grace after a raise.**  Every run that keeps the grace at each call gives the promised grace
in every state it reaches. -/
theorem grace_kept (config : VardiffConfig) (p : Vardiff × Raises)
    (reached : (graceMachine config).Reaches keepsGrace p) : GraceGiven p :=
  graceGiven_of_held (steady_known reached.reachable.forget) (held reached)

section Sample

/-- Two minutes between changes and two minutes of grace, as by default. -/
def graceConfig : VardiffConfig where
  initialDifficulty := .finite 1
  minDifficulty := .finite 1
  maxDifficulty := .finite 512
  targetShareSecs := 20
  ewmaAlpha := .finite (1 / 4)
  raiseRatio := .finite (7 / 10)
  lowerRatio := .finite (7 / 5)
  minAdjustSecs := 120
  maxAdjustFactor := .finite 4
  transitionGraceSecs := 120

def graceStart : Vardiff where
  config := graceConfig
  currentDifficulty := .finite 1
  previousDifficulty := none
  transitionUntil := none
  lastShareAt := none
  lastAdjustAt := none
  ewmaShareSecs := none

def raisedOnce : Vardiff × Raises :=
  ({ graceStart with
      currentDifficulty := .finite 4
      previousDifficulty := some (.finite 1)
      transitionUntil := some 120000000000
      lastAdjustAt := some 0 },
    ⟨0, [⟨1, 4, 0⟩]⟩)

def raisedTwice : Vardiff × Raises :=
  ({ graceStart with
      currentDifficulty := .finite 16
      previousDifficulty := some (.finite 4)
      transitionUntil := some 240000000000
      lastAdjustAt := some 120000000000 },
    ⟨120000000000, [⟨4, 16, 120000000000⟩, ⟨1, 4, 0⟩]⟩)

theorem grace_start : (graceMachine graceConfig).init (graceStart, ⟨0, []⟩) := by
  have new : Vardiff.new graceConfig = some graceStart := by decide +kernel
  exact ⟨new, rfl⟩

theorem raises_once : (graceMachine graceConfig).step (graceStart, ⟨0, []⟩)
    (.suggestedDifficulty (.finite 4) 0) = some raisedOnce := by decide +kernel

theorem raises_twice : (graceMachine graceConfig).step raisedOnce
    (.suggestedDifficulty (.finite 16) 120000000000) = some raisedTwice := by decide +kernel

/-- One raise, from 1 to 4. -/
theorem grace_kept_sample : GraceGiven raisedOnce :=
  grace_kept graceConfig raisedOnce
    (.next (.start grace_start)
      ⟨Nat.zero_le _, fun _ _ inGrace => by cases inGrace⟩ raises_once)

/-- In the last instant of its grace the second raise takes the first one's difficulty away. -/
theorem second_raise_ends_grace :
    ¬ ∀ config p, (graceMachine config).Reaches (fun p event => p.2.clock ≤ event.now) p →
      GraceGiven p := by
  intro given
  have reached : (graceMachine graceConfig).Reaches (fun p event => p.2.clock ≤ event.now)
      raisedTwice :=
    .next (.next (.start grace_start) (Nat.zero_le _) raises_once) (Nat.zero_le _) raises_twice
  have parsed : solutionFromSubmit (Sample.submit "0a0b0c0b") = .ok Sample.solution := by decide
  have meetsOne : hashLeqTarget Sample.share.hash
      (targetForDifficulty Sample.job.template.shareTarget (1 : Nat)) = true := by
    have assigned : targetForDifficulty Sample.job.template.shareTarget (1 : Nat) =
        Sample.job.template.networkTarget := if_pos (by norm_num)
    rw [assigned]
    exact Sample.meets
  have verified : verifySubmit Theory.Sha256.digest Sample.job.template
      Sample.session.extranonce1Le (Sample.submit "0a0b0c0b") (1 : Nat) = .ok Sample.share := by
    rw [verifySubmit_of_parsed parsed]
    exact if_pos meetsOne
  obtain ⟨difficulty, accepted⟩ := given graceConfig raisedTwice reached ⟨1, 4, 0⟩
    (List.mem_cons_of_mem _ List.mem_cons_self) 120000000000 (Nat.le_refl _) (by decide) 1
    Nat.one_pos (by norm_num) (by norm_num) _ _ _ _ _ verified
  have four : hashLeqTarget Sample.share.hash
      (targetForDifficulty Sample.job.template.shareTarget (4 : Nat)) = true := by
    rcases (verifySubmitForVardiff_accepts_iff _ _ parsed).1 ⟨_, difficulty, accepted⟩ with
      current | ⟨previous, inGrace, remembered⟩
    · exact meets_of_le (n := 16) (by decide) (by decide) (by exact_mod_cast current)
    · have here : previous = 4 := by
        have remembers : raisedTwice.1.view.previousDifficultyInGrace 120000000000 = some 4 := by
          decide +kernel
        exact Option.some.inj (inGrace.symm.trans remembers)
      rw [here] at remembered
      exact_mod_cast remembered
  have above : ¬ Sample.share.hash.value ≤ Sample.target.value / min 4 u64Max := by decide +kernel
  rw [hashLeqTarget_iff, value_targetForDifficulty _ (by decide)] at four
  exact above four

end Sample

end CsdPool.Bridge
