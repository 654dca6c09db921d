/-
# TargetArithmetic — targets at the code's widths

`Targets` takes the division of a target by a difficulty over the natural numbers.  Here it runs as
the code has it: accumulators of 128 bits, a remainder shifted by a byte, each quotient cut to a
byte, and a difficulty that is a floating-point value.  No bit is lost on the way (`Lossless`), so
the two divisions are one (`divLoop_eq`), and a hash meets the target of a whole positive difficulty
exactly if it is that many times within the base target.
-/
import CsdPool.Targets
import CsdPool.Theory.Binary64

namespace CsdPool

open Theory

set_option autoImplicit false

/-! ## The code's division -/

/-- `(rem << 8) | (*byte as u128)`. -/
def accumulate (rem : BitVec 128) (byte : UInt8) : BitVec 128 :=
  rem <<< 8 ||| byte.toBitVec.setWidth 128

/-- The loop of `div_target_by_u64`; `as u8` keeps the low byte of a quotient. -/
def divLoop (divisor : BitVec 128) : BitVec 128 → List UInt8 → List UInt8
  | _, [] => []
  | rem, byte :: rest =>
      let acc := accumulate rem byte
      UInt8.ofBitVec ((acc / divisor).setWidth 8) :: divLoop divisor (acc % divisor) rest

theorem length_divLoop (divisor rem : BitVec 128) (bytes : List UInt8) :
    (divLoop divisor rem bytes).length = bytes.length := by
  induction bytes generalizing rem with
  | nil => rfl
  | cons byte rest ih => simp only [divLoop, List.length_cons, ih]

def divTargetByWord (target : Hash32) (divisor : UInt64) : Hash32 :=
  if divisor ≤ 1 then target
  else ⟨divLoop (divisor.toBitVec.setWidth 128) 0 target.toList, by
    rw [length_divLoop, target.toList_length]⟩

/-- `as u64`: towards zero, and saturating. -/
def F64.toU64 : F64 → UInt64
  | .finite q => UInt64.ofNat (min ⌊q⌋.toNat u64Max)
  | .infinite negative => if negative then 0 else UInt64.ofNat u64Max
  | .nan => 0

/-- `target_for_difficulty` on the `f64` itself. -/
def targetForDifficultyF64 (baseTarget : Hash32) (difficulty : F64) : Hash32 :=
  if !difficulty.isFinite || F64.le difficulty (.finite 1) then baseTarget
  else
    let divisor :=
      if F64.le (F64.ofNat u64Max) difficulty then UInt64.ofNat u64Max
      else F64.toU64 difficulty.round
    divTargetByWord baseTarget (max divisor 1)

/-! ## Nothing is lost -/

/-- At every digit the accumulator has the shifted remainder and the byte in full, and the quotient
is less than a byte. -/
def Lossless (divisor : BitVec 128) : BitVec 128 → List UInt8 → Prop
  | _, [] => True
  | rem, byte :: rest =>
      (accumulate rem byte).toNat = 256 * rem.toNat + byte.toNat ∧
        (accumulate rem byte / divisor).toNat < 256 ∧
        Lossless divisor (accumulate rem byte % divisor) rest

theorem toNat_accumulate {rem : BitVec 128} (room : rem.toNat < 2 ^ 64) (byte : UInt8) :
    (accumulate rem byte).toNat = 256 * rem.toNat + byte.toNat := by
  have small : byte.toNat < 2 ^ 8 := byte.toNat_lt
  have shifted : (rem <<< 8).toNat = 2 ^ 8 * rem.toNat := by
    rw [BitVec.toNat_shiftLeft, Nat.shiftLeft_eq, Nat.mul_comm]
    exact Nat.mod_eq_of_lt (by omega)
  have widened : (byte.toBitVec.setWidth 128).toNat = byte.toNat := by
    rw [BitVec.toNat_setWidth]
    exact Nat.mod_eq_of_lt (lt_trans small (by decide))
  rw [accumulate, BitVec.toNat_or, shifted, widened,
    ← Nat.two_pow_add_eq_or_of_lt small rem.toNat]

theorem digit_lt {divisor rem : BitVec 128} (word : divisor.toNat < 2 ^ 64)
    (below : rem.toNat < divisor.toNat) (byte : UInt8) :
    (accumulate rem byte / divisor).toNat < 256 := by
  have small : byte.toNat < 256 := byte.toNat_lt
  rw [BitVec.toNat_udiv, toNat_accumulate (below.trans word),
    Nat.div_lt_iff_lt_mul (Nat.zero_lt_of_lt below)]
  omega

/-- The remainder stays below the divisor, so every digit is exact. -/
theorem lossless {divisor : BitVec 128} (word : divisor.toNat < 2 ^ 64) (bytes : List UInt8) :
    ∀ {rem : BitVec 128}, rem.toNat < divisor.toNat → Lossless divisor rem bytes := by
  induction bytes with
  | nil => exact fun _ => trivial
  | cons byte rest ih =>
      intro rem below
      refine ⟨toNat_accumulate (below.trans word) byte, digit_lt word below byte, ih ?_⟩
      rw [BitVec.toNat_umod]
      exact Nat.mod_lt _ (Nat.zero_lt_of_lt below)

theorem divLoop_eq {divisor : BitVec 128} (word : divisor.toNat < 2 ^ 64) (bytes : List UInt8) :
    ∀ {rem : BitVec 128}, rem.toNat < divisor.toNat →
      divLoop divisor rem bytes = divBytes divisor.toNat rem.toNat bytes := by
  induction bytes with
  | nil => exact fun _ => rfl
  | cons byte rest ih =>
      intro rem below
      have exact := toNat_accumulate (below.trans word) byte
      have next : (accumulate rem byte % divisor).toNat < divisor.toNat := by
        rw [BitVec.toNat_umod]
        exact Nat.mod_lt _ (Nat.zero_lt_of_lt below)
      have digit : UInt8.ofBitVec ((accumulate rem byte / divisor).setWidth 8) =
          UInt8.ofNat ((256 * rem.toNat + byte.toNat) / divisor.toNat) := by
        apply UInt8.toNat_inj.1
        show ((accumulate rem byte / divisor).setWidth 8).toNat = _
        rw [BitVec.toNat_setWidth, BitVec.toNat_udiv, exact, UInt8.toNat_ofNat']
      rw [divLoop, divBytes, digit, ih next, BitVec.toNat_umod, exact]

theorem toNat_widened (divisor : UInt64) :
    (divisor.toBitVec.setWidth 128).toNat = divisor.toNat := by
  rw [BitVec.toNat_setWidth]
  exact Nat.mod_eq_of_lt (lt_trans divisor.toNat_lt (by decide))

theorem divTargetByWord_eq (target : Hash32) (divisor : UInt64) :
    divTargetByWord target divisor = divTargetByU64 target divisor.toNat := by
  have same : divisor ≤ 1 ↔ divisor.toNat ≤ 1 := UInt64.le_iff_toNat_le
  by_cases small : divisor ≤ 1
  · have left : divTargetByWord target divisor = target := if_pos small
    have right : divTargetByU64 target divisor.toNat = target := if_pos (same.1 small)
    rw [left, right]
  · have large : ¬ divisor.toNat ≤ 1 := fun le => small (same.2 le)
    have wide := toNat_widened divisor
    have left : (divTargetByWord target divisor).toList =
        divLoop (divisor.toBitVec.setWidth 128) 0 target.toList :=
      congrArg List.Vector.toList (if_neg small)
    have right : (divTargetByU64 target divisor.toNat).toList =
        divBytes divisor.toNat 0 target.toList :=
      congrArg List.Vector.toList (if_neg large)
    have word : (divisor.toBitVec.setWidth 128).toNat < 2 ^ 64 := wide ▸ divisor.toNat_lt
    have positive : (0 : BitVec 128).toNat < (divisor.toBitVec.setWidth 128).toNat := by
      rw [wide]
      exact Nat.lt_of_not_le fun le => large (le.trans (Nat.zero_le 1))
    apply List.Vector.eq
    rw [left, right, divLoop_eq word target.toList positive, wide]
    rfl

/-! ## Whole difficulties -/

theorem value_divTargetByWord (target : Hash32) {divisor : UInt64} (positive : 0 < divisor.toNat) :
    (divTargetByWord target divisor).value = target.value / divisor.toNat := by
  rw [divTargetByWord_eq, value_divTargetByU64 target positive]

theorem largest_word_as_f64 : F64.ofNat u64Max = .finite (2 ^ 64) := by decide +kernel

theorem round_int (d : ℤ) (positive : 0 ≤ d) : F64.round (.finite d) = .finite d := by
  have nonneg : (0 : ℚ) ≤ d := by exact_mod_cast positive
  have half : ⌊(d : ℚ) + 1 / 2⌋ = d := by
    rw [Int.floor_eq_iff]
    constructor
    · linarith
    · linarith
  show F64.finite (F64.roundRat d) = _
  rw [F64.roundRat, if_pos nonneg, half]

/-- Up to one, every difficulty is the base target's own. -/
theorem targetForDifficultyF64_low (base : Hash32) {d : ℤ} (low : d ≤ 1) :
    targetForDifficultyF64 base (.finite d) = base := by
  have le : F64.le (.finite d) (.finite 1) = true := decide_eq_true (by exact_mod_cast low)
  rw [targetForDifficultyF64, le, Bool.or_true, if_pos rfl]

/-- Below `2 ^ 53` a whole difficulty is its own divisor. -/
theorem targetForDifficultyF64_whole (base : Hash32) {d : ℤ} (high : 1 < d) (exact : d < 2 ^ 53) :
    (targetForDifficultyF64 base (.finite d)).value = base.value / d.toNat := by
  have notLow : F64.le (.finite d) (.finite 1) = false :=
    decide_eq_false (by rw [not_le]; exact_mod_cast high)
  have notHigh : F64.le (.finite (2 ^ 64)) (.finite d) = false := by
    apply decide_eq_false
    rw [not_le]
    exact_mod_cast exact.trans (by norm_num : (2 : ℤ) ^ 53 < 2 ^ 64)
  have word : d.toNat < 2 ^ 53 := by omega
  have fits : min ⌊(d : ℚ)⌋.toNat u64Max = d.toNat := by
    rw [Int.floor_intCast]
    exact Nat.min_eq_left (by unfold u64Max; omega)
  have divisor : (max (F64.toU64 (.finite d)) 1).toNat = d.toNat := by
    have own : (F64.toU64 (.finite d)).toNat = d.toNat := by
      show (UInt64.ofNat (min ⌊(d : ℚ)⌋.toNat u64Max)).toNat = _
      rw [fits, UInt64.toNat_ofNat']
      exact Nat.mod_eq_of_lt (by omega)
    have larger : ¬ F64.toU64 (.finite d) ≤ 1 := by
      rw [UInt64.le_iff_toNat_le, own]
      show ¬ d.toNat ≤ 1
      omega
    have same : max (F64.toU64 (.finite d)) 1 = F64.toU64 (.finite d) := if_neg larger
    rw [same, own]
  have target : targetForDifficultyF64 base (.finite d) =
      divTargetByWord base (max (F64.toU64 (.finite d)) 1) := by
    rw [targetForDifficultyF64, notLow, largest_word_as_f64, notHigh,
      round_int d (by omega)]
    rfl
  rw [target, value_divTargetByWord base (by rw [divisor]; omega), divisor]

/-- A hash meets the target of a whole difficulty if it is that many times within the base, with
everything below one as one. -/
theorem meets_iff (hash base : Hash32) {d : ℤ} (exact : d < 2 ^ 53) :
    hashLeqTarget hash (targetForDifficultyF64 base (.finite d)) = true ↔
      hash.value * (max d 1).toNat ≤ base.value := by
  rw [hashLeqTarget_iff]
  by_cases low : d ≤ 1
  · rw [targetForDifficultyF64_low base low, max_eq_right low]
    simp
  · rw [targetForDifficultyF64_whole base (by omega) exact, max_eq_left (by omega),
      Nat.le_div_iff_mul_le (by omega)]

/-! ## The arithmetic of a target -/

/-- The division is exact to the bit, the order is that of the numbers, and a share that meets a
difficulty meets every lower one. -/
theorem target_arithmetic (base hash target : Hash32) :
    (∀ divisor : UInt64, divisor ≠ 0 →
      (divTargetByWord target divisor).value = target.value / divisor.toNat ∧
      Lossless (divisor.toBitVec.setWidth 128) 0 target.toList) ∧
    divTargetByWord target 0 = target ∧
    (hashLeqTarget hash target = true ↔ hash.value ≤ target.value) ∧
    (∀ d₁ d₂ : ℤ, d₁ ≤ d₂ → d₂ < 2 ^ 53 →
      hashLeqTarget hash (targetForDifficultyF64 base (.finite d₂)) = true →
      hashLeqTarget hash (targetForDifficultyF64 base (.finite d₁)) = true) ∧
    (∀ d : ℤ, 0 < d → d < 2 ^ 53 →
      (hashLeqTarget hash (targetForDifficultyF64 base (.finite d)) = true ↔
        hash.value * d.toNat ≤ base.value)) ∧
    ∀ d : ℤ, d ≤ 0 → targetForDifficultyF64 base (.finite d) = base := by
  refine ⟨fun divisor nonzero => ?_, rfl, hashLeqTarget_iff, ?_, ?_, fun d low =>
    targetForDifficultyF64_low base (by omega)⟩
  · have positive : 0 < divisor.toNat := Nat.pos_of_ne_zero fun zero =>
      nonzero (UInt64.toNat_inj.1 zero)
    have wide := toNat_widened divisor
    exact ⟨value_divTargetByWord target positive,
      lossless (wide ▸ divisor.toNat_lt) target.toList (by rw [wide]; exact positive)⟩
  · intro d₁ d₂ le exact meets
    rw [meets_iff hash base exact] at meets
    rw [meets_iff hash base (lt_of_le_of_lt le exact)]
    have less : (max d₁ 1).toNat ≤ (max d₂ 1).toNat := Int.toNat_le_toNat (max_le_max_right 1 le)
    exact (Nat.mul_le_mul_left _ less).trans meets
  · intro d positive exact
    rw [meets_iff hash base exact, max_eq_left (by omega)]

/-- The hash that is all ones. -/
def highestHash : Hash32 := .replicate 32 0xff

/-- Half of the highest target, at a difficulty of two. -/
theorem target_arithmetic_half :
    (divTargetByWord highestHash 2).value = highestHash.value / 2 ∧
    (hashLeqTarget (divTargetByWord highestHash 2)
      (targetForDifficultyF64 highestHash (.finite (2 : ℤ))) = true ↔
        (divTargetByWord highestHash 2).value * 2 ≤ highestHash.value) ∧
    hashLeqTarget (divTargetByWord highestHash 2)
      (targetForDifficultyF64 highestHash (.finite (1 : ℤ))) = true := by
  have whole := target_arithmetic highestHash (divTargetByWord highestHash 2) highestHash
  have half := (whole.1 2 (by decide)).1
  have at_two := whole.2.2.2.2.1 2 (by norm_num) (by norm_num)
  refine ⟨half, at_two, whole.2.2.2.1 1 2 (by norm_num) (by norm_num) (at_two.2 ?_)⟩
  rw [half]
  exact Nat.div_mul_le_self _ 2

/-- At a difficulty of zero the highest hash misses the base target, and nothing times it is
within. -/
theorem zero_difficulty_keeps_base :
    ¬ ∀ (base hash : Hash32) (d : ℤ), d < 2 ^ 53 →
      (hashLeqTarget hash (targetForDifficultyF64 base (.finite d)) = true ↔
        (hash.value : ℤ) * d ≤ base.value) := by
  intro claim
  have missed := (claim (.replicate 32 0) highestHash 0 (by norm_num)).2
    (by rw [mul_zero]; exact Int.natCast_nonneg _)
  revert missed
  rw [targetForDifficultyF64_low _ (by norm_num)]
  decide +kernel

end CsdPool
