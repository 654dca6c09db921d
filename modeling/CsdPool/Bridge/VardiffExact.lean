/-
# Bridge.VardiffExact — the difficulty over exact numbers

The difficulty control of a session once more, over exact rationals: what it promises whatever
the floating-point arithmetic rounds away.  The configuration is the normalized one, so its
numbers are finite (`exact_wellFormed`).

A change goes to the whole number nearest to a value within one step of the current difficulty,
so it can exceed the step by the rounding; for the default factor of two it cannot
(`StepBound`).  Two changes keep their distance as long as the instants do not run backwards: the
first share of a session sets the time of the last change, also to an earlier one.
-/
import CsdPool.Bridge.Vardiff

namespace CsdPool.Bridge

open Theory (F64 Machine)

set_option autoImplicit false

structure ExactConfig where
  initialDifficulty : ℚ
  minDifficulty : ℚ
  maxDifficulty : ℚ
  targetShareSecs : UInt64
  ewmaAlpha : ℚ
  raiseRatio : ℚ
  lowerRatio : ℚ
  minAdjustSecs : UInt64
  maxAdjustFactor : ℚ
  transitionGraceSecs : UInt64
  deriving DecidableEq

def VardiffConfig.exact (config : VardiffConfig) : ExactConfig where
  initialDifficulty := config.initialDifficulty.toRat
  minDifficulty := config.minDifficulty.toRat
  maxDifficulty := config.maxDifficulty.toRat
  targetShareSecs := config.targetShareSecs
  ewmaAlpha := config.ewmaAlpha.toRat
  raiseRatio := config.raiseRatio.toRat
  lowerRatio := config.lowerRatio.toRat
  minAdjustSecs := config.minAdjustSecs
  maxAdjustFactor := config.maxAdjustFactor.toRat
  transitionGraceSecs := config.transitionGraceSecs

/-- `None` is the panic of bounds out of order. -/
def clampRat (value low high : ℚ) : Option ℚ :=
  if low ≤ high then some (if value < low then low else if high < value then high else value)
  else none

def ExactConfig.quantizeDifficulty (config : ExactConfig) (difficulty : ℚ) : Option ℚ :=
  clampRat (F64.roundRat difficulty) config.minDifficulty config.maxDifficulty

def exactRelativeDifference (left right : ℚ) : ℚ :=
  if right = 0 then |left| else |(left - right) / right|

structure ExactVardiff where
  config : ExactConfig
  currentDifficulty : ℚ
  previousDifficulty : Option ℚ
  transitionUntil : Option Nat
  lastShareAt : Option Nat
  lastAdjustAt : Option Nat
  ewmaShareSecs : Option ℚ
  deriving DecidableEq

namespace ExactVardiff

def new (config : VardiffConfig) : Option ExactVardiff :=
  config.normalized.map fun config =>
    { config := config.exact
      currentDifficulty := config.exact.initialDifficulty
      previousDifficulty := none
      transitionUntil := none
      lastShareAt := none
      lastAdjustAt := none
      ewmaShareSecs := none }

def applyDifficulty (v : ExactVardiff) (next : ℚ) (now : Nat) : Option ExactVardiff := do
  let next ← v.config.quantizeDifficulty next
  if exactRelativeDifference next v.currentDifficulty < 1 / 100 then return v
  else
    return { v with
      previousDifficulty := some v.currentDifficulty
      currentDifficulty := next
      transitionUntil := some (now + Vardiff.secs v.config.transitionGraceSecs)
      lastAdjustAt := some now }

/-- `some none` where the averaged share time is near the target. -/
def desiredFactor (config : ExactConfig) (ewma : ℚ) : Option (Option ℚ) :=
  let target : ℚ := config.targetShareSecs.toNat
  if ewma < target * config.raiseRatio then
    (clampRat (target / ewma) 1 config.maxAdjustFactor).map some
  else if target * config.lowerRatio < ewma then
    (clampRat (target / ewma) (1 / config.maxAdjustFactor) 1).map some
  else some none

def recordAcceptedShare (v : ExactVardiff) (now : Nat) : Option ExactVardiff :=
  match v.lastShareAt with
  | none => some { v with lastShareAt := some now, lastAdjustAt := some now }
  | some lastShareAt => do
      let target : ℚ := v.config.targetShareSecs.toNat
      let elapsedSecs ← clampRat ((now - lastShareAt : Nat) / 1000000000) (5 / 100) (target * 4)
      let ewma := match v.ewmaShareSecs with
        | some previous =>
            v.config.ewmaAlpha * elapsedSecs + (1 - v.config.ewmaAlpha) * previous
        | none => elapsedSecs
      let lastAdjustAt := v.lastAdjustAt.getD now
      let seen := { v with
        lastShareAt := some now
        ewmaShareSecs := some ewma
        lastAdjustAt := some lastAdjustAt }
      if now - lastAdjustAt < Vardiff.secs v.config.minAdjustSecs then return seen
      else
        match ← desiredFactor v.config ewma with
        | none => return seen
        | some factor =>
            let next ← clampRat (v.currentDifficulty * factor) v.config.minDifficulty
              v.config.maxDifficulty
            let next ← v.config.quantizeDifficulty next
            if exactRelativeDifference next v.currentDifficulty < 1 / 100 then return seen
            else seen.applyDifficulty next now

def suggestedNext (v : ExactVardiff) (suggested : ℚ) : Option ℚ := do
  let singleStepMin := v.currentDifficulty / v.config.maxAdjustFactor
  let singleStepMax := v.currentDifficulty * v.config.maxAdjustFactor
  let next ← clampRat suggested v.config.minDifficulty v.config.maxDifficulty
  let next ← clampRat next singleStepMin singleStepMax
  clampRat next v.config.minDifficulty v.config.maxDifficulty

def applySuggestedDifficulty (v : ExactVardiff) (suggested : F64) (now : Nat) :
    Option ExactVardiff :=
  if !suggested.isFinite || suggested.le (.finite 0) then some v
  else if v.lastAdjustAt.any fun lastAdjustAt =>
      now - lastAdjustAt < Vardiff.secs v.config.minAdjustSecs then some v
  else do
    let next ← v.suggestedNext suggested.toRat
    let next ← v.config.quantizeDifficulty next
    let cleared := { v with ewmaShareSecs := none, lastAdjustAt := some now }
    if exactRelativeDifference next v.currentDifficulty < 1 / 100 then return v
    else cleared.applyDifficulty next now

end ExactVardiff

inductive ExactEvent
  | acceptedShare (now : Nat)
  | suggestedDifficulty (suggested : F64) (now : Nat)
  deriving DecidableEq

def ExactEvent.now : ExactEvent → Nat
  | acceptedShare now => now
  | suggestedDifficulty _ now => now

/-- A call may come at any instant. -/
def exactMachine (config : VardiffConfig) : Machine ExactVardiff ExactEvent where
  init v := ExactVardiff.new config = some v
  step v
    | .acceptedShare now => v.recordAcceptedShare now
    | .suggestedDifficulty suggested now => v.applySuggestedDifficulty suggested now

/-! ## Rounding and bounds -/

theorem clampRat_of_le {low high : ℚ} (ordered : low ≤ high) (value : ℚ) :
    ∃ clamped, clampRat value low high = some clamped ∧ low ≤ clamped ∧ clamped ≤ high := by
  unfold clampRat
  rw [if_pos ordered]
  split
  · exact ⟨low, rfl, le_refl _, ordered⟩
  · rename_i above
    split
    · exact ⟨high, rfl, ordered, le_refl _⟩
    · rename_i below
      exact ⟨value, rfl, not_lt.1 above, not_lt.1 below⟩

/-- Between two bounds around a member of the range, what is clamped to the range stays. -/
theorem clampRat_between {value low high clamped inside first last : ℚ}
    (ran : clampRat value low high = some clamped) (atLeast : low ≤ inside) (atMost : inside ≤ high)
    (inFirst : first ≤ inside) (inLast : inside ≤ last) (first_ : first ≤ value)
    (last_ : value ≤ last) : first ≤ clamped ∧ clamped ≤ last := by
  unfold clampRat at ran
  split at ran
  · have taken := Option.some.inj ran
    split at taken
    · rename_i small
      subst taken
      exact ⟨first_.trans small.le, atLeast.trans inLast⟩
    · split at taken
      · rename_i large
        subst taken
        exact ⟨inFirst.trans atMost, large.le.trans last_⟩
      · subst taken
        exact ⟨first_, last_⟩
  · cases ran

theorem clampRat_of_mem {value low high : ℚ} (atLeast : low ≤ value) (atMost : value ≤ high) :
    clampRat value low high = some value := by
  unfold clampRat
  rw [if_pos (atLeast.trans atMost), if_neg (not_lt.2 atLeast), if_neg (not_lt.2 atMost)]

theorem roundRat_nonneg {q : ℚ} (nonneg : 0 ≤ q) : F64.roundRat q = ⌊q + 1 / 2⌋ := if_pos nonneg

theorem roundRat_natCast (n : Nat) : F64.roundRat n = n := by
  rw [roundRat_nonneg (Nat.cast_nonneg n), Int.floor_eq_iff]
  constructor
  · push_cast
    linarith
  · push_cast
    linarith

theorem le_roundRat {q : ℚ} {n : Nat} (above : (n : ℚ) ≤ q) : (n : ℤ) ≤ F64.roundRat q := by
  rw [roundRat_nonneg (le_trans (Nat.cast_nonneg n) above), Int.le_floor]
  push_cast
  linarith

theorem roundRat_le {q : ℚ} {n : Nat} (nonneg : 0 ≤ q) (below : q ≤ n) : F64.roundRat q ≤ n := by
  rw [roundRat_nonneg nonneg, ← Int.lt_add_one_iff, Int.floor_lt]
  push_cast
  linarith

/-- Rounding does not take a value below half of a whole number. -/
theorem half_le_roundRat {q : ℚ} {n : Nat} (above : (n : ℚ) / 2 ≤ q) :
    (n : ℚ) / 2 ≤ F64.roundRat q := by
  have nonneg : 0 ≤ q := le_trans (by positivity) above
  obtain ⟨k, even | odd⟩ := Nat.even_or_odd' n
  · have atLeast : (k : ℤ) ≤ F64.roundRat q := by
      apply le_roundRat
      rw [even] at above
      push_cast at above
      linarith
    have cast : (k : ℚ) ≤ F64.roundRat q := by exact_mod_cast atLeast
    rw [even]
    push_cast
    linarith
  · have atLeast : ((k + 1 : Nat) : ℤ) ≤ F64.roundRat q := by
      rw [roundRat_nonneg nonneg, Int.le_floor]
      rw [odd] at above
      push_cast at above ⊢
      linarith
    have cast : ((k + 1 : Nat) : ℚ) ≤ F64.roundRat q := by exact_mod_cast atLeast
    rw [odd]
    push_cast at cast ⊢
    linarith

/-! ## The configuration -/

/-- Whole bounds in order, and the other settings in their ranges. -/
structure ExactConfig.WellFormed (config : ExactConfig) : Prop where
  low : ∃ n : Nat, 0 < n ∧ config.minDifficulty = n
  high : ∃ n : Nat, config.maxDifficulty = n
  ordered : config.minDifficulty ≤ config.maxDifficulty
  target : 0 < config.targetShareSecs.toNat
  alpha : 0 < config.ewmaAlpha ∧ config.ewmaAlpha ≤ 1
  factor : 1 ≤ config.maxAdjustFactor

theorem toRat_ewmaAlpha {config normal : VardiffConfig}
    (normalized : config.normalized = some normal) :
    0 < normal.ewmaAlpha.toRat ∧ normal.ewmaAlpha.toRat ≤ 1 := by
  unfold VardiffConfig.normalized at normalized
  dsimp only at normalized
  obtain ⟨initial, -, rfl⟩ := Option.map_eq_some_iff.1 normalized
  dsimp only
  split
  · rw [F64.toRat]
    norm_num
  · rename_i kept
    cases here : config.ewmaAlpha with
    | finite q =>
        rw [here] at kept
        simp [F64.isFinite, F64.le] at kept
        exact ⟨lt_of_le_of_ne kept.1.1 (Ne.symm kept.2), kept.1.2⟩
    | infinite _ =>
        rw [here] at kept
        exact absurd rfl kept
    | nan =>
        rw [here] at kept
        exact absurd rfl kept

theorem toRat_maxAdjustFactor {config normal : VardiffConfig}
    (normalized : config.normalized = some normal) : 1 ≤ normal.maxAdjustFactor.toRat := by
  unfold VardiffConfig.normalized at normalized
  dsimp only at normalized
  obtain ⟨initial, -, rfl⟩ := Option.map_eq_some_iff.1 normalized
  dsimp only
  split
  · rw [F64.toRat]
    norm_num
  · rename_i kept
    cases here : config.maxAdjustFactor with
    | finite q =>
        rw [here] at kept
        have large : 1 ≤ q := by simpa [F64.isFinite, F64.lt] using kept
        exact large
    | infinite _ =>
        rw [here] at kept
        exact absurd rfl kept
    | nan =>
        rw [here] at kept
        exact absurd rfl kept

/-- The bounds of a normalized configuration are in order, and the first difficulty is clamped to
them. -/
theorem normalized_bounds {config normal : VardiffConfig}
    (normalized : config.normalized = some normal) :
    normal.minDifficulty.le normal.maxDifficulty = true ∧
      ∃ value, F64.clamp value normal.minDifficulty normal.maxDifficulty =
        some normal.initialDifficulty := by
  obtain ⟨-, -, ordered⟩ := normalized_ordered config
  unfold VardiffConfig.normalized at normalized
  dsimp only at normalized
  obtain ⟨initial, clamped, rfl⟩ := Option.map_eq_some_iff.1 normalized
  exact ⟨ordered, _, clamped⟩

theorem exact_wellFormed {config normal : VardiffConfig}
    (normalized : config.normalized = some normal) : normal.exact.WellFormed := by
  obtain ⟨wellFormed, -⟩ := normalized_wellFormed normalized
  obtain ⟨low, positive, isLow⟩ := wellFormed.low
  obtain ⟨high, -, isHigh⟩ := wellFormed.high
  obtain ⟨ordered, -⟩ := normalized_bounds normalized
  refine ⟨⟨low, positive, ?_⟩, ⟨high, ?_⟩, ?_, wellFormed.target, toRat_ewmaAlpha normalized,
    toRat_maxAdjustFactor normalized⟩
  · show normal.minDifficulty.toRat = low
    rw [isLow]
    rfl
  · show normal.maxDifficulty.toRat = high
    rw [isHigh]
    rfl
  · rw [isLow, isHigh] at ordered
    show normal.minDifficulty.toRat ≤ normal.maxDifficulty.toRat
    rw [isLow, isHigh]
    exact of_decide_eq_true ordered

/-- What every state keeps: a whole difficulty within its bounds, and a positive average, so that
nothing is divided by zero. -/
structure VardiffSound (v : ExactVardiff) : Prop where
  config : v.config.WellFormed
  whole : ∃ n : Nat, 0 < n ∧ v.currentDifficulty = n
  atLeast : v.config.minDifficulty ≤ v.currentDifficulty
  atMost : v.currentDifficulty ≤ v.config.maxDifficulty
  ewma : ∀ ewma, v.ewmaShareSecs = some ewma → 0 < ewma

theorem initial_of_normalized {config normal : VardiffConfig}
    (normalized : config.normalized = some normal) :
    normal.minDifficulty.toRat ≤ normal.initialDifficulty.toRat ∧
      normal.initialDifficulty.toRat ≤ normal.maxDifficulty.toRat := by
  obtain ⟨wellFormed, n, -, whole⟩ := normalized_wellFormed normalized
  obtain ⟨low, -, isLow⟩ := wellFormed.low
  obtain ⟨high, -, isHigh⟩ := wellFormed.high
  obtain ⟨ordered, value, clamped⟩ := normalized_bounds normalized
  rw [isLow, isHigh] at ordered clamped ⊢
  have inOrder : (low : ℚ) ≤ high := of_decide_eq_true ordered
  unfold F64.clamp at clamped
  rw [if_pos ordered] at clamped
  have taken := Option.some.inj clamped
  split at taken
  · rw [← taken]
    exact ⟨le_refl _, inOrder⟩
  · rename_i above
    split at taken
    · rw [← taken]
      exact ⟨inOrder, le_refl _⟩
    · rename_i below
      rw [taken, whole] at above below
      rw [whole]
      simp only [F64.lt, decide_eq_true_eq, not_lt] at above below
      exact ⟨above, below⟩

theorem sound_new {config : VardiffConfig} {v : ExactVardiff}
    (new : ExactVardiff.new config = some v) : VardiffSound v := by
  obtain ⟨normal, normalized, rfl⟩ := Option.map_eq_some_iff.1 new
  obtain ⟨-, n, positive, whole⟩ := normalized_wellFormed normalized
  obtain ⟨atLeast, atMost⟩ := initial_of_normalized normalized
  refine ⟨exact_wellFormed normalized, ⟨n, positive, ?_⟩, atLeast, atMost,
    fun ewma none => by cases none⟩
  show normal.initialDifficulty.toRat = n
  rw [whole]
  rfl

/-! ## Changes -/

variable {v v' : ExactVardiff} {now : Nat}

/-- An applied change: to the whole number nearest to a value within one step of the current
difficulty, and no sooner after the last adjustment than configured. -/
structure Changed (v : ExactVardiff) (now : Nat) (v' : ExactVardiff) : Prop where
  rounded : ∃ target, v.currentDifficulty / v.config.maxAdjustFactor ≤ target ∧
    target ≤ v.currentDifficulty * v.config.maxAdjustFactor ∧
    v'.currentDifficulty = F64.roundRat target
  adjusted : v'.lastAdjustAt = some now
  waited : ∀ last, v.lastAdjustAt = some last →
    Vardiff.secs v.config.minAdjustSecs ≤ now - last

/-- What a call may do. -/
structure Outcome (v : ExactVardiff) (now : Nat) (v' : ExactVardiff) : Prop where
  sound : VardiffSound v'
  config : v'.config = v.config
  change : v'.currentDifficulty = v.currentDifficulty ∧
    (v'.lastAdjustAt = v.lastAdjustAt ∨ v'.lastAdjustAt = some now) ∨ Changed v now v'

/-- A target within one step and within the bounds rounds to a whole number within the bounds. -/
theorem quantize_of_mem {config : ExactConfig} {target : ℚ} (wellFormed : config.WellFormed)
    (atLeast : config.minDifficulty ≤ target) (atMost : target ≤ config.maxDifficulty) :
    ∃ n : Nat, 0 < n ∧ (F64.roundRat target : ℚ) = n ∧
      config.minDifficulty ≤ (n : ℚ) ∧ (n : ℚ) ≤ config.maxDifficulty ∧
      config.quantizeDifficulty target = some n ∧ config.quantizeDifficulty n = some n := by
  obtain ⟨low, positive, isLow⟩ := wellFormed.low
  obtain ⟨high, isHigh⟩ := wellFormed.high
  rw [isLow] at atLeast
  rw [isHigh] at atMost
  have nonneg : 0 ≤ target := le_trans (Nat.cast_nonneg low) atLeast
  have above := le_roundRat atLeast
  have below := roundRat_le nonneg atMost
  obtain ⟨n, rounded⟩ := Int.eq_ofNat_of_zero_le (le_trans (Int.natCast_nonneg low) above)
  rw [rounded] at above below
  have atLeast' : config.minDifficulty ≤ (n : ℚ) := by
    rw [isLow]
    exact_mod_cast above
  have atMost' : (n : ℚ) ≤ config.maxDifficulty := by
    rw [isHigh]
    exact_mod_cast below
  refine ⟨n, by omega, by rw [rounded]; rfl, atLeast', atMost', ?_, ?_⟩
  · unfold ExactConfig.quantizeDifficulty
    rw [rounded]
    exact clampRat_of_mem atLeast' atMost'
  · unfold ExactConfig.quantizeDifficulty
    rw [roundRat_natCast]
    exact clampRat_of_mem atLeast' atMost'

/-- Once its target is settled, a call changes the difficulty to it or, for a small change,
leaves it. -/
theorem applyDifficulty_outcome {target : ℚ} (sound : VardiffSound v)
    (atLeast : v.config.minDifficulty ≤ target) (atMost : target ≤ v.config.maxDifficulty)
    (first : v.currentDifficulty / v.config.maxAdjustFactor ≤ target)
    (last : target ≤ v.currentDifficulty * v.config.maxAdjustFactor)
    (waited : ∀ last, v.lastAdjustAt = some last →
      Vardiff.secs v.config.minAdjustSecs ≤ now - last)
    {w : ExactVardiff} (config : w.config = v.config)
    (current : w.currentDifficulty = v.currentDifficulty)
    (ewma : ∀ ewma, w.ewmaShareSecs = some ewma → 0 < ewma) :
    ∃ next, v.config.quantizeDifficulty target = some next ∧
      (¬ exactRelativeDifference next v.currentDifficulty < 1 / 100 →
        ∃ v', w.applyDifficulty next now = some v' ∧ Outcome v now v') := by
  obtain ⟨n, positive, rounded, atLeast', atMost', quantized, again⟩ :=
    quantize_of_mem sound.config atLeast atMost
  refine ⟨n, quantized, fun large => ?_⟩
  have applied : w.applyDifficulty n now = some { w with
      previousDifficulty := some w.currentDifficulty
      currentDifficulty := n
      transitionUntil := some (now + Vardiff.secs w.config.transitionGraceSecs)
      lastAdjustAt := some now } := by
    unfold ExactVardiff.applyDifficulty
    rw [config, again, current]
    exact if_neg large
  refine ⟨_, applied, ⟨?_, ⟨n, positive, rfl⟩, ?_, ?_, ewma⟩, config, .inr ⟨?_, rfl, waited⟩⟩
  · rw [config]
    exact sound.config
  · rw [config]
    exact atLeast'
  · rw [config]
    exact atMost'
  · exact ⟨target, first, last, rounded.symm⟩

/-- A call that leaves the difficulty. -/
theorem Outcome.kept (sound : VardiffSound v) (config : v'.config = v.config)
    (current : v'.currentDifficulty = v.currentDifficulty)
    (adjusted : v'.lastAdjustAt = v.lastAdjustAt ∨ v'.lastAdjustAt = some now)
    (ewma : ∀ ewma, v'.ewmaShareSecs = some ewma → 0 < ewma) : Outcome v now v' where
  sound := by
    refine ⟨?_, ?_, ?_, ?_, ewma⟩
    · rw [config]
      exact sound.config
    · rw [current]
      exact sound.whole
    · rw [config, current]
      exact sound.atLeast
    · rw [config, current]
      exact sound.atMost
  config := config
  change := .inl ⟨current, adjusted⟩

/-- One step down and one step up contain the current difficulty. -/
theorem VardiffSound.step_bounds (sound : VardiffSound v) :
    0 < v.currentDifficulty ∧
      v.currentDifficulty / v.config.maxAdjustFactor ≤ v.currentDifficulty ∧
      v.currentDifficulty ≤ v.currentDifficulty * v.config.maxAdjustFactor := by
  obtain ⟨n, positive, whole⟩ := sound.whole
  have current : 0 < v.currentDifficulty := by
    rw [whole]
    exact_mod_cast positive
  have factor := sound.config.factor
  exact ⟨current, div_le_self current.le factor, le_mul_of_one_le_right current.le factor⟩

/-- The factor lies between a step down and a step up, and its clamps are in order. -/
theorem desiredFactor_bounds {config : ExactConfig} (wellFormed : config.WellFormed) (ewma : ℚ) :
    ∃ factor, ExactVardiff.desiredFactor config ewma = some factor ∧
      ∀ f, factor = some f → 1 / config.maxAdjustFactor ≤ f ∧ f ≤ config.maxAdjustFactor := by
  have factor := wellFormed.factor
  have inverse : 1 / config.maxAdjustFactor ≤ 1 := by
    rw [div_le_one (lt_of_lt_of_le one_pos factor)]
    exact factor
  unfold ExactVardiff.desiredFactor
  dsimp only
  split
  · obtain ⟨f, ran, atLeast, atMost⟩ := clampRat_of_le factor
      (config.targetShareSecs.toNat / ewma)
    refine ⟨some f, by rw [ran]; rfl, ?_⟩
    rintro _ ⟨⟩
    exact ⟨inverse.trans atLeast, atMost⟩
  · split
    · obtain ⟨f, ran, atLeast, atMost⟩ := clampRat_of_le inverse
        (config.targetShareSecs.toNat / ewma)
      refine ⟨some f, by rw [ran]; rfl, ?_⟩
      rintro _ ⟨⟩
      exact ⟨atLeast, atMost.trans factor⟩
    · exact ⟨none, rfl, fun f none => by cases none⟩

theorem recordAcceptedShare_outcome (sound : VardiffSound v) :
    ∃ v', v.recordAcceptedShare now = some v' ∧ Outcome v now v' := by
  unfold ExactVardiff.recordAcceptedShare
  cases v.lastShareAt with
  | none => exact ⟨_, rfl, .kept sound rfl rfl (.inr rfl) sound.ewma⟩
  | some lastShareAt =>
      have target : (1 : ℚ) ≤ v.config.targetShareSecs.toNat := by
        exact_mod_cast sound.config.target
      obtain ⟨elapsed, ranElapsed, long, -⟩ := clampRat_of_le
        (show (5 / 100 : ℚ) ≤ v.config.targetShareSecs.toNat * 4 by linarith)
        ((now - lastShareAt : Nat) / 1000000000)
      dsimp only
      rw [ranElapsed, Option.bind_eq_bind, Option.bind_some]
      have average : 0 < (match v.ewmaShareSecs with
          | some previous =>
              v.config.ewmaAlpha * elapsed + (1 - v.config.ewmaAlpha) * previous
          | none => elapsed) := by
        have positive : 0 < elapsed := by linarith
        cases known : v.ewmaShareSecs with
        | none => exact positive
        | some previous =>
            have before := sound.ewma previous known
            have weighted := mul_pos sound.config.alpha.1 positive
            have rest := mul_nonneg (sub_nonneg.2 sound.config.alpha.2) before.le
            exact add_pos_of_pos_of_nonneg weighted rest
      generalize (match v.ewmaShareSecs with
          | some previous =>
              v.config.ewmaAlpha * elapsed + (1 - v.config.ewmaAlpha) * previous
          | none => elapsed) = ewma at average
      have seenEwma : ∀ e, some ewma = some e → 0 < e := by
        rintro _ ⟨⟩
        exact average
      have adjusted : (some (v.lastAdjustAt.getD now) = v.lastAdjustAt ∨
          some (v.lastAdjustAt.getD now) = some now) := by
        cases v.lastAdjustAt with
        | none => exact .inr rfl
        | some last => exact .inl rfl
      split
      · exact ⟨_, rfl, .kept sound rfl rfl adjusted seenEwma⟩
      · rename_i waited
        have waited' : ∀ last, v.lastAdjustAt = some last →
            Vardiff.secs v.config.minAdjustSecs ≤ now - last := by
          intro last known
          rw [known, Option.getD_some] at waited
          exact Nat.not_lt.1 waited
        obtain ⟨factor, desired, bounds⟩ := desiredFactor_bounds sound.config ewma
        rw [desired, Option.bind_eq_bind, Option.bind_some]
        cases factor with
        | none => exact ⟨_, rfl, .kept sound rfl rfl adjusted seenEwma⟩
        | some factor =>
            dsimp only
            obtain ⟨atLeast, atMost⟩ := bounds factor rfl
            obtain ⟨current, down, up⟩ := sound.step_bounds
            obtain ⟨next, ranNext, inLow, inHigh⟩ := clampRat_of_le sound.config.ordered
              (v.currentDifficulty * factor)
            have first : v.currentDifficulty / v.config.maxAdjustFactor ≤
                v.currentDifficulty * factor := by
              rw [div_eq_mul_one_div]
              exact mul_le_mul_of_nonneg_left atLeast current.le
            obtain ⟨nextFirst, nextLast⟩ := clampRat_between ranNext sound.atLeast sound.atMost down
              up first (mul_le_mul_of_nonneg_left atMost current.le)
            obtain ⟨quantized, ranQuantized, large⟩ := applyDifficulty_outcome
              (w := { v with
                lastShareAt := some now
                ewmaShareSecs := some ewma
                lastAdjustAt := some (v.lastAdjustAt.getD now) })
              sound inLow inHigh nextFirst nextLast waited' rfl rfl seenEwma
            rw [ranNext, Option.bind_some, ranQuantized, Option.bind_some]
            split
            · exact ⟨_, rfl, .kept sound rfl rfl adjusted seenEwma⟩
            · rename_i notSmall
              exact large notSmall

theorem suggestedNext_bounds (sound : VardiffSound v) (suggested : ℚ) :
    ∃ next, v.suggestedNext suggested = some next ∧
      v.config.minDifficulty ≤ next ∧ next ≤ v.config.maxDifficulty ∧
      v.currentDifficulty / v.config.maxAdjustFactor ≤ next ∧
      next ≤ v.currentDifficulty * v.config.maxAdjustFactor := by
  obtain ⟨-, down, up⟩ := sound.step_bounds
  obtain ⟨first, ranFirst, -, -⟩ := clampRat_of_le sound.config.ordered suggested
  obtain ⟨second, ranSecond, below, above⟩ := clampRat_of_le (down.trans up) first
  obtain ⟨next, ranNext, inLow, inHigh⟩ := clampRat_of_le sound.config.ordered second
  obtain ⟨nextFirst, nextLast⟩ :=
    clampRat_between ranNext sound.atLeast sound.atMost down up below above
  refine ⟨next, ?_, inLow, inHigh, nextFirst, nextLast⟩
  unfold ExactVardiff.suggestedNext
  rw [ranFirst]
  dsimp only [Option.bind_eq_bind, Option.bind_some]
  rw [ranSecond]
  exact ranNext

theorem applySuggestedDifficulty_outcome (sound : VardiffSound v) (suggested : F64) :
    ∃ v', v.applySuggestedDifficulty suggested now = some v' ∧ Outcome v now v' := by
  unfold ExactVardiff.applySuggestedDifficulty
  have unchanged : Outcome v now v := .kept sound rfl rfl (.inl rfl) sound.ewma
  split
  · exact ⟨v, rfl, unchanged⟩
  · split
    · exact ⟨v, rfl, unchanged⟩
    · rename_i waited
      have waited' : ∀ last, v.lastAdjustAt = some last →
          Vardiff.secs v.config.minAdjustSecs ≤ now - last := by
        intro last known
        rw [known, Option.any_some, decide_eq_true_eq] at waited
        exact Nat.not_lt.1 waited
      obtain ⟨next, ranNext, inLow, inHigh, nextFirst, nextLast⟩ :=
        suggestedNext_bounds sound suggested.toRat
      obtain ⟨quantized, ranQuantized, large⟩ := applyDifficulty_outcome
        (w := { v with ewmaShareSecs := none, lastAdjustAt := some now })
        sound inLow inHigh nextFirst nextLast waited' rfl rfl (fun ewma none => by cases none)
      rw [ranNext]
      dsimp only [Option.bind_eq_bind, Option.bind_some]
      rw [ranQuantized, Option.bind_some]
      split
      · exact ⟨v, rfl, unchanged⟩
      · rename_i notSmall
        exact large notSmall

/-- **No call panics**, and each does what `Outcome` says. -/
theorem step_outcome (config : VardiffConfig) (sound : VardiffSound v) (event : ExactEvent) :
    ∃ v', (exactMachine config).step v event = some v' ∧ Outcome v event.now v' := by
  cases event with
  | acceptedShare now => exact recordAcceptedShare_outcome sound
  | suggestedDifficulty suggested now => exact applySuggestedDifficulty_outcome sound suggested

/-- The difficulty stays, or goes to the whole number nearest to a value within one step; and with
the factor of two the step itself is kept. -/
structure StepBound (v v' : ExactVardiff) : Prop where
  rounded : v'.currentDifficulty = v.currentDifficulty ∨
    ∃ target, v.currentDifficulty / v.config.maxAdjustFactor ≤ target ∧
      target ≤ v.currentDifficulty * v.config.maxAdjustFactor ∧
      v'.currentDifficulty = F64.roundRat target
  two : v.config.maxAdjustFactor = 2 →
    v.currentDifficulty / 2 ≤ v'.currentDifficulty ∧
      v'.currentDifficulty ≤ v.currentDifficulty * 2

theorem Outcome.stepBound (sound : VardiffSound v) (outcome : Outcome v now v') : StepBound v v' := by
  obtain ⟨n, positive, whole⟩ := sound.whole
  rcases outcome.change with ⟨same, -⟩ | changed
  · refine ⟨.inl same, fun _ => ?_⟩
    obtain ⟨current, -, -⟩ := sound.step_bounds
    rw [same]
    constructor
    · linarith
    · linarith
  · refine ⟨.inr changed.rounded, fun two => ?_⟩
    obtain ⟨target, first, last, rounded⟩ := changed.rounded
    rw [two, whole] at first last
    rw [rounded, whole]
    have nonneg : 0 ≤ target := le_trans (by positivity) first
    have above : F64.roundRat target ≤ ((n * 2 : Nat) : ℤ) :=
      roundRat_le nonneg (by push_cast; exact last)
    refine ⟨half_le_roundRat first, ?_⟩
    have cast : (F64.roundRat target : ℚ) ≤ ((n * 2 : Nat) : ℤ) := by exact_mod_cast above
    push_cast at cast
    exact cast

/-! ## Runs -/

/-- The latest instant of a run, and the instants of its changes, the latest first. -/
structure Changes where
  clock : Nat
  times : List Nat
  deriving DecidableEq

def recordChange (config : VardiffConfig) (changes : Changes) (v : ExactVardiff)
    (event : ExactEvent) : Changes where
  clock := event.now
  times :=
    if ((exactMachine config).step v event).any fun next =>
        next.currentDifficulty ≠ v.currentDifficulty then
      event.now :: changes.times
    else changes.times

def changesMachine (config : VardiffConfig) : Machine (ExactVardiff × Changes) ExactEvent :=
  (exactMachine config).recording ⟨0, []⟩ (recordChange config)

/-- The instants do not run backwards. -/
def forward (p : ExactVardiff × Changes) (event : ExactEvent) : Prop := p.2.clock ≤ event.now

instance (p : ExactVardiff × Changes) (event : ExactEvent) : Decidable (forward p event) :=
  inferInstanceAs (Decidable (_ ≤ _))

/-- Any two changes keep their distance. -/
def Apart (p : ExactVardiff × Changes) : Prop :=
  p.2.times.Pairwise fun later earlier =>
    earlier + Vardiff.secs p.1.config.minAdjustSecs ≤ later

theorem sound_reached {config : VardiffConfig} (reached : (exactMachine config).Reachable v) :
    VardiffSound v := by
  refine reached.invariant ?_ ?_
  · intro v new
    exact sound_new new
  · intro v event v' _ sound _ stepped
    obtain ⟨v'', here, outcome⟩ := step_outcome config sound event
    rw [stepped] at here
    cases here
    exact outcome.sound

/-- The changes are apart, and the last adjustment is no earlier than any of them. -/
structure Spaced (p : ExactVardiff × Changes) : Prop where
  apart : Apart p
  adjusted : ∀ time ∈ p.2.times, ∃ last, p.1.lastAdjustAt = some last ∧ time ≤ last
  past : ∀ last, p.1.lastAdjustAt = some last → last ≤ p.2.clock

theorem Spaced.step {p : ExactVardiff × Changes} {clock : Nat} {times : List Nat}
    (spaced : Spaced p) (later : p.2.clock ≤ now) (outcome : Outcome p.1 now v')
    (isClock : clock = now)
    (recorded : times = if v'.currentDifficulty ≠ p.1.currentDifficulty then now :: p.2.times
      else p.2.times) : Spaced (v', ⟨clock, times⟩) := by
  subst isClock recorded
  rcases outcome.change with ⟨same, adjusted⟩ | changed
  · rw [if_neg (not_not.2 same)]
    refine ⟨?_, ?_, ?_⟩
    · unfold Apart
      dsimp only
      rw [outcome.config]
      exact spaced.apart
    · intro time member
      obtain ⟨last, known, before⟩ := spaced.adjusted time member
      rcases adjusted with kept | set
      · exact ⟨last, kept.trans known, before⟩
      · have past := spaced.past last known
        exact ⟨clock, set, by omega⟩
    · intro last known
      rcases adjusted with kept | set
      · have past := spaced.past last (kept.symm.trans known)
        dsimp only
        omega
      · rw [set] at known
        cases known
        exact le_refl _
  · have distance : ∀ time ∈ p.2.times,
        time + Vardiff.secs p.1.config.minAdjustSecs ≤ clock := by
      intro time member
      obtain ⟨last, known, before⟩ := spaced.adjusted time member
      have waited := changed.waited last known
      have past := spaced.past last known
      omega
    refine ⟨?_, ?_, ?_⟩
    · unfold Apart
      dsimp only
      rw [outcome.config]
      split
      · exact List.pairwise_cons.2 ⟨distance, spaced.apart⟩
      · exact spaced.apart
    · intro time member
      refine ⟨clock, changed.adjusted, ?_⟩
      dsimp only at member
      split at member
      · rcases List.mem_cons.1 member with rfl | member
        · exact le_refl _
        · exact le_trans (Nat.le_add_right _ _) (distance time member)
      · exact le_trans (Nat.le_add_right _ _) (distance time member)
    · intro last known
      rw [changed.adjusted] at known
      cases known
      exact le_refl _

theorem spaced_reached {config : VardiffConfig} {p : ExactVardiff × Changes}
    (reached : (changesMachine config).Reaches forward p) : Spaced p := by
  refine reached.invariant ?_ ?_
  · rintro ⟨v, changes⟩ ⟨new, start⟩
    obtain ⟨normal, -, rfl⟩ := Option.map_eq_some_iff.1 new
    have begin_ : changes = ⟨0, []⟩ := start
    subst begin_
    exact ⟨List.Pairwise.nil, fun time member => (by cases member),
      fun last none => by cases none⟩
  · rintro ⟨v, changes⟩ event ⟨v', changes'⟩ before spaced later stepped
    obtain ⟨moved, recorded⟩ := Machine.recording_step stepped
    have sound := sound_reached before.forget
    obtain ⟨v'', here, outcome⟩ := step_outcome config sound event
    dsimp only at moved recorded
    rw [moved] at here
    cases here
    subst recorded
    refine spaced.step later outcome rfl ?_
    dsimp only [recordChange]
    rw [moved, Option.any_some]
    simp

/-- **Difficulty control.**  A session's difficulty is a whole number within its bounds, no clamp
is out of order, each change goes to the whole number nearest to a value within one step, and, as
long as the instants do not run backwards, any two changes keep their distance. -/
theorem vardiff_invariants (config : VardiffConfig) :
    (∃ v, ExactVardiff.new config = some v) ∧
    (∀ v, (exactMachine config).Reachable v →
      ((∃ n : Nat, v.currentDifficulty = n) ∧ v.config.minDifficulty ≤ v.currentDifficulty ∧
        v.currentDifficulty ≤ v.config.maxDifficulty) ∧
      ∀ event, ∃ v', (exactMachine config).step v event = some v' ∧ StepBound v v') ∧
    ∀ p, (changesMachine config).Reaches forward p → Apart p := by
  refine ⟨?_, ?_, fun p reached => (spaced_reached reached).apart⟩
  · obtain ⟨normal, normalized⟩ := Option.isSome_iff_exists.1 (normalized_isSome config)
    exact ⟨_, Option.map_eq_some_iff.2 ⟨normal, normalized, rfl⟩⟩
  · intro v reached
    have sound := sound_reached reached
    obtain ⟨n, -, whole⟩ := sound.whole
    refine ⟨⟨⟨n, whole⟩, sound.atLeast, sound.atMost⟩, fun event => ?_⟩
    obtain ⟨v', stepped, outcome⟩ := step_outcome config sound event
    exact ⟨v', stepped, outcome.stepBound sound⟩

section Sample

def sampleConfig (initialDifficulty maxAdjustFactor : ℚ) : VardiffConfig where
  initialDifficulty := .finite initialDifficulty
  minDifficulty := .finite 1
  maxDifficulty := .finite 512
  targetShareSecs := 20
  ewmaAlpha := .finite (1 / 4)
  raiseRatio := .finite (7 / 10)
  lowerRatio := .finite (7 / 5)
  minAdjustSecs := 120
  maxAdjustFactor := .finite maxAdjustFactor
  transitionGraceSecs := 120

def sampleStart (initialDifficulty maxAdjustFactor : ℚ) : ExactVardiff where
  config := (sampleConfig initialDifficulty maxAdjustFactor).exact
  currentDifficulty := initialDifficulty
  previousDifficulty := none
  transitionUntil := none
  lastShareAt := none
  lastAdjustAt := none
  ewmaShareSecs := none

theorem new_sample : ExactVardiff.new (sampleConfig 8 2) = some (sampleStart 8 2) := by
  decide +kernel

/-- A suggestion doubled the difficulty, one within two minutes changed nothing, and a later one
doubled it again. -/
theorem vardiff_invariants_sample :
    ∃ p, (changesMachine (sampleConfig 8 2)).Reaches forward p ∧
      p.1.currentDifficulty = 32 ∧ p.1.previousDifficulty = some 16 ∧
      p.2.times = [130 * 1000000000, 10 * 1000000000] ∧
      (p.1.config.minDifficulty ≤ p.1.currentDifficulty ∧
        p.1.currentDifficulty ≤ p.1.config.maxDifficulty) ∧
      (∀ event, ∃ v', (exactMachine (sampleConfig 8 2)).step p.1 event = some v' ∧
        StepBound p.1 v') ∧
      Apart p := by
  obtain ⟨p, reached, shown⟩ := Machine.exists_of_runUnder (changesMachine (sampleConfig 8 2)) forward
    (s := (sampleStart 8 2, ⟨0, []⟩)) ⟨new_sample, rfl⟩
    [.suggestedDifficulty (.finite 64) (10 * 1000000000),
      .suggestedDifficulty (.finite 64) (100 * 1000000000),
      .suggestedDifficulty (.finite 64) (130 * 1000000000)]
    (fun p => decide (p.1.currentDifficulty = 32 ∧ p.1.previousDifficulty = some 16 ∧
      p.2.times = [130 * 1000000000, 10 * 1000000000]))
    (by decide +kernel)
  obtain ⟨current, previous, times⟩ := of_decide_eq_true shown
  have law := vardiff_invariants (sampleConfig 8 2)
  have plain : (changesMachine (sampleConfig 8 2)).Reachable p := reached.reachable
  obtain ⟨⟨-, within⟩, steps⟩ := law.2.1 p.1 plain.forget
  exact ⟨p, reached, current, previous, times, within, steps, law.2.2 p reached⟩

/-- Where the claimed bounds break: 3 goes to 5 with a factor of one and a half, and after a first
share at an earlier instant two changes are 80 seconds apart. -/
theorem rounding_and_clock_break_bounds :
    (∃ v, (exactMachine (sampleConfig 3 (3 / 2))).Reachable v ∧
      ((exactMachine (sampleConfig 3 (3 / 2))).step v (.suggestedDifficulty (.finite 100) 0)).any
        (fun v' => v.currentDifficulty * v.config.maxAdjustFactor < v'.currentDifficulty) = true) ∧
    ∃ p, (changesMachine (sampleConfig 8 2)).Reachable p ∧
      decide (p.2.times = [120 * 1000000000, 200 * 1000000000]) = true := by
  constructor
  · have new : ExactVardiff.new (sampleConfig 3 (3 / 2)) = some (sampleStart 3 (3 / 2)) := by
      decide +kernel
    exact ⟨sampleStart 3 (3 / 2), .start new, by decide +kernel⟩
  · apply Machine.exists_of_run (changesMachine (sampleConfig 8 2))
      (s := (sampleStart 8 2, ⟨0, []⟩)) ⟨new_sample, rfl⟩
      [.suggestedDifficulty (.finite 64) (200 * 1000000000), .acceptedShare 0,
        .acceptedShare (120 * 1000000000)]
    decide +kernel

end Sample

end CsdPool.Bridge
