/-
# Bridge.Vardiff — a session's difficulty

`VardiffState` of the bridge with its configuration: the difficulty follows the time between
accepted shares, and may once be suggested by the miner.  Every way to a new difficulty ends in
`quantize_difficulty`, so a session's difficulty is always a positive whole number between the
configured bounds (`Steady`), whatever the arithmetic before it rounds to.

Instants and durations are counted in nanoseconds.  What verification reads of the state is
`view`.
-/
import CsdPool.Bridge.Submit
import CsdPool.Theory.Binary64
import CsdPool.Theory.Machine

namespace CsdPool.Bridge

open Theory (F64 Machine)

set_option autoImplicit false

structure VardiffConfig where
  initialDifficulty : F64
  minDifficulty : F64
  maxDifficulty : F64
  targetShareSecs : UInt64
  ewmaAlpha : F64
  raiseRatio : F64
  lowerRatio : F64
  minAdjustSecs : UInt64
  maxAdjustFactor : F64
  transitionGraceSecs : UInt64
  deriving DecidableEq

namespace VardiffConfig

/-- The bounds of a normalized configuration, in the order the source sets them. -/
def normalizedMin (config : VardiffConfig) : F64 :=
  if !config.minDifficulty.isFinite || config.minDifficulty.le (.finite 0) then .finite 1
  else config.minDifficulty

/-- The minimum stands in for a maximum that is no number or lies below it. -/
def normalizedMax (config : VardiffConfig) : F64 :=
  if !config.maxDifficulty.isFinite || config.maxDifficulty.lt config.normalizedMin then
    config.normalizedMin
  else config.maxDifficulty

/-- `None` is the panic of `clamp`, which does not happen (`normalized_isSome`). -/
def normalized (config : VardiffConfig) : Option VardiffConfig :=
  let minDifficulty := config.normalizedMin.ceil
  let maxDifficulty := config.normalizedMax.floor.max minDifficulty
  let initialDifficulty :=
    if !config.initialDifficulty.isFinite || config.initialDifficulty.le (.finite 0) then
      minDifficulty
    else config.initialDifficulty
  (initialDifficulty.round.clamp minDifficulty maxDifficulty).map fun initialDifficulty =>
    { initialDifficulty, minDifficulty, maxDifficulty
      targetShareSecs := if config.targetShareSecs = 0 then 20 else config.targetShareSecs
      ewmaAlpha :=
        if !config.ewmaAlpha.isFinite ||
            !((F64.finite 0).le config.ewmaAlpha && config.ewmaAlpha.le (.finite 1)) ||
            config.ewmaAlpha = .finite 0 then .finite (1 / 4)
        else config.ewmaAlpha
      raiseRatio :=
        if !config.raiseRatio.isFinite ||
            !((F64.finite 0).le config.raiseRatio && config.raiseRatio.lt (.finite 1)) then
          .ofRat (70 / 100)
        else config.raiseRatio
      lowerRatio :=
        if !config.lowerRatio.isFinite || config.lowerRatio.le (.finite 1) then .ofRat (140 / 100)
        else config.lowerRatio
      minAdjustSecs := if config.minAdjustSecs = 0 then 120 else config.minAdjustSecs
      maxAdjustFactor :=
        if !config.maxAdjustFactor.isFinite || config.maxAdjustFactor.lt (.finite 1) then
          .finite 2
        else config.maxAdjustFactor
      transitionGraceSecs :=
        if config.transitionGraceSecs = 0 then 120 else config.transitionGraceSecs }

/-- The way to every new difficulty: rounded, and then clamped to the bounds. -/
def quantizeDifficulty (config : VardiffConfig) (difficulty : F64) : Option F64 :=
  difficulty.round.clamp config.minDifficulty config.maxDifficulty

end VardiffConfig

/-- A duration of nanoseconds as `as_secs_f64` gives it. -/
def asSecsF64 (nanos : Nat) : F64 :=
  (F64.ofNat (nanos / 1000000000)).add
    ((F64.ofNat (nanos % 1000000000)).div (.finite 1000000000))

/-- How far apart the two are, against the right one. -/
def relativeDifference (left right : F64) : F64 :=
  if right = .finite 0 then left.abs else ((left.sub right).div right).abs

/-- The two differ by less than a hundredth. -/
def isSmallChange (next current : F64) : Bool :=
  (relativeDifference next current).lt (.ofRat (1 / 100))

/-- The difficulty of a session: the current one, the one before it with the deadline of its grace,
and what the adjustment remembers of the shares. -/
structure Vardiff where
  config : VardiffConfig
  currentDifficulty : F64
  previousDifficulty : Option F64
  transitionUntil : Option Nat
  lastShareAt : Option Nat
  lastAdjustAt : Option Nat
  ewmaShareSecs : Option F64
  deriving DecidableEq

namespace Vardiff

/-- A session begins at the configured difficulty. -/
def new (config : VardiffConfig) : Option Vardiff :=
  config.normalized.map fun config =>
    { config
      currentDifficulty := config.initialDifficulty
      previousDifficulty := none
      transitionUntil := none
      lastShareAt := none
      lastAdjustAt := none
      ewmaShareSecs := none }

/-- `Duration::from_secs`. -/
def secs (n : UInt64) : Nat := n.toNat * 1000000000

/-- The state after it; `None` is a panic. -/
def applyDifficulty (v : Vardiff) (next : F64) (now : Nat) : Option Vardiff := do
  let next ← v.config.quantizeDifficulty next
  if isSmallChange next v.currentDifficulty then return v
  else
    return { v with
      previousDifficulty := some v.currentDifficulty
      currentDifficulty := next
      transitionUntil := some (now + secs v.config.transitionGraceSecs)
      lastAdjustAt := some now }

/-- The factor the averaged share time asks for; `some none` where it is near the target. -/
def desiredFactor (config : VardiffConfig) (ewma : F64) : Option (Option F64) :=
  let target := F64.ofNat config.targetShareSecs.toNat
  if ewma.lt (target.mul config.raiseRatio) then
    ((target.div ewma).clamp (.finite 1) config.maxAdjustFactor).map some
  else if (target.mul config.lowerRatio).lt ewma then
    ((target.div ewma).clamp ((F64.finite 1).div config.maxAdjustFactor) (.finite 1)).map some
  else some none

/-- After an accepted share. The time since the last one goes into the average, and once the pause
between adjustments is over the difficulty follows it, by one factor at most. -/
def recordAcceptedShare (v : Vardiff) (now : Nat) : Option Vardiff :=
  match v.lastShareAt with
  | none => some { v with lastShareAt := some now, lastAdjustAt := some now }
  | some lastShareAt => do
      let target := F64.ofNat v.config.targetShareSecs.toNat
      let elapsedSecs ← (asSecsF64 (now - lastShareAt)).clamp (.ofRat (5 / 100))
        (target.mul (.finite 4))
      let ewma := match v.ewmaShareSecs with
        | some previous =>
            (v.config.ewmaAlpha.mul elapsedSecs).add
              (((F64.finite 1).sub v.config.ewmaAlpha).mul previous)
        | none => elapsedSecs
      let lastAdjustAt := v.lastAdjustAt.getD now
      let seen := { v with
        lastShareAt := some now
        ewmaShareSecs := some ewma
        lastAdjustAt := some lastAdjustAt }
      if now - lastAdjustAt < secs v.config.minAdjustSecs then return seen
      else
        match ← desiredFactor v.config ewma with
        | none => return seen
        | some factor =>
            let next ← (v.currentDifficulty.mul factor).clamp v.config.minDifficulty
              v.config.maxDifficulty
            let next ← v.config.quantizeDifficulty next
            if isSmallChange next v.currentDifficulty then return seen
            else seen.applyDifficulty next now

/-- The suggestion within one step of the current difficulty and the configured bounds. -/
def suggestedNext (v : Vardiff) (suggested : F64) : Option F64 := do
  let singleStepMin := v.currentDifficulty.div v.config.maxAdjustFactor
  let singleStepMax := v.currentDifficulty.mul v.config.maxAdjustFactor
  let next ← suggested.clamp v.config.minDifficulty v.config.maxDifficulty
  let next ← next.clamp singleStepMin singleStepMax
  next.clamp v.config.minDifficulty v.config.maxDifficulty

/-- A suggestion of the miner counts only after the pause, and moves the difficulty by one step of
the configured factor at most. -/
def applySuggestedDifficulty (v : Vardiff) (suggested : F64) (now : Nat) : Option Vardiff :=
  if !suggested.isFinite || suggested.le (.finite 0) then some v
  else if v.lastAdjustAt.any fun lastAdjustAt =>
      now - lastAdjustAt < secs v.config.minAdjustSecs then some v
  else do
    let next ← v.suggestedNext suggested
    let next ← v.config.quantizeDifficulty next
    let cleared := { v with ewmaShareSecs := none, lastAdjustAt := some now }
    if isSmallChange next v.currentDifficulty then return v
    else cleared.applyDifficulty next now

end Vardiff

/-- What changes a difficulty, with the instant. -/
inductive VardiffEvent
  | acceptedShare (now : Nat)
  | suggestedDifficulty (suggested : F64) (now : Nat)

/-- The difficulty of one session, over every sequence of its events. -/
def vardiffMachine (config : VardiffConfig) : Machine Vardiff VardiffEvent where
  init v := Vardiff.new config = some v
  step v
    | .acceptedShare now => v.recordAcceptedShare now
    | .suggestedDifficulty suggested now => v.applySuggestedDifficulty suggested now

/-! ## Whole difficulties -/

/-- A positive whole number. -/
def Whole (difficulty : F64) : Prop := ∃ n : Nat, 0 < n ∧ difficulty = .finite n

theorem Whole.number {difficulty : F64} (whole : Whole difficulty) :
    ∃ q : ℚ, difficulty = .finite q ∧ q ≠ 0 := by
  obtain ⟨n, positive, rfl⟩ := whole
  exact ⟨n, rfl, by exact_mod_cast (by omega : n ≠ 0)⟩

theorem whole_of_le {z : ℤ} {n : Nat} (positive : 0 < n) (above : (n : ℚ) ≤ z) :
    Whole (.finite z) := by
  have large : (n : ℤ) ≤ z := by exact_mod_cast above
  refine ⟨z.toNat, by omega, ?_⟩
  congr 1
  exact_mod_cast (Int.toNat_of_nonneg (by omega : 0 ≤ z)).symm

/-- Between whole bounds everything rounds to a whole number. -/
theorem whole_of_clamp {value low high clamped : F64} (number : value ≠ .nan) (below : Whole low)
    (above : Whole high) (ran : value.round.clamp low high = some clamped) : Whole clamped := by
  obtain ⟨l, positive, rfl⟩ := below
  obtain ⟨h, positive', rfl⟩ := above
  have rounded : value.round ≠ .nan := by
    cases value with
    | finite q => exact F64.noConfusion
    | infinite negative => exact F64.noConfusion
    | nan => exact absurd rfl number
  rcases F64.clamp_finite rounded ran with rfl | rfl | ⟨q, is, rfl, atLeast, -⟩
  · exact ⟨l, positive, rfl⟩
  · exact ⟨h, positive', rfl⟩
  · cases value with
    | finite x =>
        cases is
        exact whole_of_le positive atLeast
    | infinite negative => cases is
    | nan => cases is

/-- The bounds are whole and in order, and the other settings are numbers. -/
structure VardiffConfig.WellFormed (config : VardiffConfig) : Prop where
  low : Whole config.minDifficulty
  high : Whole config.maxDifficulty
  target : 0 < config.targetShareSecs.toNat
  factor : ∃ q : ℚ, config.maxAdjustFactor = .finite q ∧ q ≠ 0

theorem normalizedMin_positive (config : VardiffConfig) :
    ∃ q : ℚ, config.normalizedMin = .finite q ∧ 0 < q := by
  unfold VardiffConfig.normalizedMin
  split
  · exact ⟨1, rfl, one_pos⟩
  · rename_i kept
    cases here : config.minDifficulty with
    | finite q =>
        rw [here] at kept
        refine ⟨q, rfl, ?_⟩
        simpa [F64.isFinite, F64.le] using kept
    | infinite _ =>
        rw [here] at kept
        exact absurd rfl kept
    | nan =>
        rw [here] at kept
        exact absurd rfl kept

theorem whole_ceil {q : ℚ} (positive : 0 < q) : Whole (F64.ceil (.finite q)) := by
  apply whole_of_le Nat.one_pos
  have above : (1 : ℤ) ≤ ⌈q⌉ := Int.one_le_ceil_iff.2 positive
  exact_mod_cast above

theorem normalizedMax_finite (config : VardiffConfig) :
    ∃ q : ℚ, config.normalizedMax = .finite q := by
  unfold VardiffConfig.normalizedMax
  split
  · obtain ⟨q, is, -⟩ := normalizedMin_positive config
    exact ⟨q, is⟩
  · rename_i kept
    cases here : config.maxDifficulty with
    | finite q => exact ⟨q, rfl⟩
    | infinite _ =>
        rw [here] at kept
        exact absurd rfl kept
    | nan =>
        rw [here] at kept
        exact absurd rfl kept

theorem normalized_ordered (config : VardiffConfig) :
    Whole config.normalizedMin.ceil ∧
      Whole (config.normalizedMax.floor.max config.normalizedMin.ceil) ∧
      F64.le config.normalizedMin.ceil
        (config.normalizedMax.floor.max config.normalizedMin.ceil) = true := by
  obtain ⟨low, isLow, positive⟩ := normalizedMin_positive config
  obtain ⟨high, isHigh⟩ := normalizedMax_finite config
  have whole : Whole config.normalizedMin.ceil := by
    rw [isLow]
    exact whole_ceil positive
  obtain ⟨n, atLeast, is⟩ := whole
  have taken : config.normalizedMax.floor.max config.normalizedMin.ceil =
      if (⌊high⌋ : ℚ) < n then .finite n else .finite ⌊high⌋ := by
    rw [is, isHigh]
    show (if F64.lt (.finite ⌊high⌋) (.finite n) = true then _ else _) = _
    simp only [F64.lt, decide_eq_true_eq]
    rfl
  rw [taken]
  refine ⟨⟨n, atLeast, is⟩, ?_, ?_⟩
  · split
    · exact ⟨n, atLeast, rfl⟩
    · rename_i above
      exact whole_of_le atLeast (not_lt.1 above)
  · rw [is]
    split
    · exact decide_eq_true le_rfl
    · rename_i above
      exact decide_eq_true (not_lt.1 above)

theorem normalized_isSome (config : VardiffConfig) : config.normalized.isSome = true := by
  unfold VardiffConfig.normalized
  dsimp only
  rw [Option.isSome_map]
  exact F64.clamp_isSome (normalized_ordered config).2.2

theorem normalized_wellFormed {config normal : VardiffConfig}
    (normalized : config.normalized = some normal) :
    normal.WellFormed ∧ Whole normal.initialDifficulty := by
  obtain ⟨low, high, -⟩ := normalized_ordered config
  unfold VardiffConfig.normalized at normalized
  dsimp only at normalized
  obtain ⟨initial, clamped, rfl⟩ := Option.map_eq_some_iff.1 normalized
  refine ⟨⟨low, high, ?_, ?_⟩, ?_⟩
  · dsimp only
    split
    · decide
    · rename_i given
      exact Nat.pos_of_ne_zero fun zero => given (UInt64.toNat_inj.1 zero)
  · dsimp only
    split
    · exact ⟨2, rfl, by norm_num⟩
    · rename_i kept
      cases here : config.maxAdjustFactor with
      | finite q =>
          rw [here] at kept
          refine ⟨q, rfl, ?_⟩
          have large : 1 ≤ q := by simpa [F64.isFinite, F64.lt] using kept
          exact ne_of_gt (lt_of_lt_of_le one_pos large)
      | infinite _ =>
          rw [here] at kept
          exact absurd rfl kept
      | nan =>
          rw [here] at kept
          exact absurd rfl kept
  · apply whole_of_clamp ?_ low high clamped
    split
    · obtain ⟨n, -, is⟩ := low
      rw [is]
      exact F64.noConfusion
    · rename_i kept
      intro missing
      rw [missing] at kept
      exact kept rfl

/-- What every state of a session's difficulty keeps. -/
structure Steady (v : Vardiff) : Prop where
  config : v.config.WellFormed
  current : Whole v.currentDifficulty
  previous : ∀ difficulty, v.previousDifficulty = some difficulty → Whole difficulty

variable {v v' : Vardiff} {now : Nat}

theorem steady_new {config : VardiffConfig} (new : Vardiff.new config = some v) : Steady v := by
  obtain ⟨normal, normalized, rfl⟩ := Option.map_eq_some_iff.1 new
  obtain ⟨wellFormed, whole⟩ := normalized_wellFormed normalized
  exact ⟨wellFormed, whole, fun difficulty none => (by cases none)⟩

theorem applyDifficulty_steady {next : F64} (steady : Steady v) (number : next ≠ .nan)
    (applied : v.applyDifficulty next now = some v') : Steady v' := by
  obtain ⟨quantized, clamped, rest⟩ := Option.bind_eq_some_iff.1 applied
  have whole := whole_of_clamp number steady.config.low steady.config.high clamped
  split at rest
  · cases rest
    exact steady
  · cases rest
    refine ⟨steady.config, whole, ?_⟩
    intro difficulty previous
    cases previous
    exact steady.current

theorem target_number {config : VardiffConfig} (wellFormed : config.WellFormed) :
    ∃ q : ℚ, F64.ofNat config.targetShareSecs.toNat = .finite q ∧ q ≠ 0 := by
  obtain ⟨q, is⟩ := F64.ofNat_finite config.targetShareSecs.toNat_lt
  refine ⟨q, is, ?_⟩
  rintro rfl
  exact F64.ofNat_ne_zero wellFormed.target is

theorem desiredFactor_ne_nan {config : VardiffConfig} {ewma factor : F64}
    (wellFormed : config.WellFormed)
    (desired : Vardiff.desiredFactor config ewma = some (some factor)) : factor ≠ .nan := by
  obtain ⟨target, is, nonzero⟩ := target_number wellFormed
  have asked : ∀ low high clamped : F64, ewma ≠ .nan →
      ((F64.ofNat config.targetShareSecs.toNat).div ewma).clamp low high = some clamped →
        clamped ≠ .nan := fun low high clamped number ran =>
    F64.clamp_ne_nan (F64.div_ne_nan is nonzero number) ran
  unfold Vardiff.desiredFactor at desired
  dsimp only at desired
  split at desired
  · rename_i fast
    obtain ⟨clamped, ran, same⟩ := Option.map_eq_some_iff.1 desired
    cases same
    exact asked _ _ _ (F64.ne_nan_of_lt fast).1 ran
  · split at desired
    · rename_i slow
      obtain ⟨clamped, ran, same⟩ := Option.map_eq_some_iff.1 desired
      cases same
      exact asked _ _ _ (F64.ne_nan_of_lt slow).2 ran
    · cases desired

theorem recordAcceptedShare_steady (steady : Steady v)
    (recorded : v.recordAcceptedShare now = some v') : Steady v' := by
  unfold Vardiff.recordAcceptedShare at recorded
  split at recorded
  · cases recorded
    exact ⟨steady.config, steady.current, steady.previous⟩
  · obtain ⟨elapsed, -, rest⟩ := Option.bind_eq_some_iff.1 recorded
    dsimp only at rest
    split at rest
    · cases rest
      exact ⟨steady.config, steady.current, steady.previous⟩
    · obtain ⟨factor, desired, rest⟩ := Option.bind_eq_some_iff.1 rest
      cases factor with
      | none =>
          cases rest
          exact ⟨steady.config, steady.current, steady.previous⟩
      | some factor =>
          obtain ⟨next, clamped, rest⟩ := Option.bind_eq_some_iff.1 rest
          obtain ⟨quantized, rounded, rest⟩ := Option.bind_eq_some_iff.1 rest
          obtain ⟨current, is, nonzero⟩ := steady.current.number
          have number : next ≠ .nan := F64.clamp_ne_nan
            (F64.mul_ne_nan is nonzero (desiredFactor_ne_nan steady.config desired)) clamped
          have whole := whole_of_clamp number steady.config.low steady.config.high rounded
          split at rest
          · cases rest
            exact ⟨steady.config, steady.current, steady.previous⟩
          · obtain ⟨n, -, whole⟩ := whole
            refine applyDifficulty_steady ?_ ?_ rest
            · exact ⟨steady.config, steady.current, steady.previous⟩
            · rw [whole]
              exact F64.noConfusion

theorem applySuggestedDifficulty_steady {suggested : F64} (steady : Steady v)
    (applied : v.applySuggestedDifficulty suggested now = some v') : Steady v' := by
  unfold Vardiff.applySuggestedDifficulty at applied
  split at applied
  · cases applied
    exact steady
  · rename_i accepted
    split at applied
    · cases applied
      exact steady
    · obtain ⟨next, stepped, rest⟩ := Option.bind_eq_some_iff.1 applied
      obtain ⟨first, clampedFirst, stepped⟩ := Option.bind_eq_some_iff.1 stepped
      obtain ⟨second, clampedSecond, stepped⟩ := Option.bind_eq_some_iff.1 stepped
      have suggestion : suggested ≠ .nan := by
        rintro rfl
        exact accepted rfl
      have number : next ≠ .nan := F64.clamp_ne_nan
        (F64.clamp_ne_nan (F64.clamp_ne_nan suggestion clampedFirst) clampedSecond) stepped
      obtain ⟨quantized, rounded, rest⟩ := Option.bind_eq_some_iff.1 rest
      have whole := whole_of_clamp number steady.config.low steady.config.high rounded
      split at rest
      · cases rest
        exact steady
      · obtain ⟨n, -, whole⟩ := whole
        refine applyDifficulty_steady ?_ ?_ rest
        · exact ⟨steady.config, steady.current, steady.previous⟩
        · rw [whole]
          exact F64.noConfusion

/-- **A session's difficulty is steady** from its start on. -/
theorem steady_known {config : VardiffConfig} (reached : (vardiffMachine config).Reachable v) :
    Steady v := by
  apply reached.invariant
  · intro v new
    exact steady_new new
  · intro v event v' _ steady _ stepped
    cases event with
    | acceptedShare now => exact recordAcceptedShare_steady steady stepped
    | suggestedDifficulty suggested now => exact applySuggestedDifficulty_steady steady stepped

/-! ## What verification reads -/

def Vardiff.view (v : Vardiff) : VardiffState where
  currentDifficulty := v.currentDifficulty.toRat
  previousDifficulty := v.previousDifficulty.map F64.toRat
  transitionUntil := v.transitionUntil

theorem whole_toRat {difficulty : F64} (whole : Whole difficulty) :
    ∃ n : Nat, 0 < n ∧ difficulty.toRat = n := by
  obtain ⟨n, positive, rfl⟩ := whole
  exact ⟨n, positive, rfl⟩

/-- Verification compares and divides by the difficulties themselves: they are finite. -/
theorem Steady.finite (steady : Steady v) :
    v.currentDifficulty = .finite v.view.currentDifficulty ∧
      v.previousDifficulty = v.view.previousDifficulty.map F64.finite := by
  constructor
  · obtain ⟨n, -, is⟩ := steady.current
    show v.currentDifficulty = .finite v.currentDifficulty.toRat
    rw [is]
    rfl
  · show v.previousDifficulty = (v.previousDifficulty.map F64.toRat).map F64.finite
    cases here : v.previousDifficulty with
    | none => rfl
    | some difficulty =>
        obtain ⟨n, -, rfl⟩ := steady.previous difficulty here
        rfl

end CsdPool.Bridge
