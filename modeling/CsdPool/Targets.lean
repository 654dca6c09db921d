/-
# Targets — a share at a difficulty is that much work

A target is a number written big-endian: `hash <= target` compares numbers, and the byte-wise
division of a target by a difficulty is the division of the number.  So a hash below the target
of difficulty `n` has `hash * n <= base`, up to the largest `u64`, at which `n` saturates.
-/
import CsdPool.Consensus
import CsdPool.Theory.BigEndian

namespace CsdPool

set_option autoImplicit false

/-- The number a hash or a target stands for. -/
def Hash32.value (hash : Hash32) : Nat := Theory.BigEndian.value hash.toList

theorem hashLeqTarget_iff {hash target : Hash32} :
    hashLeqTarget hash target = true ↔ hash.value ≤ target.value := by
  unfold hashLeqTarget Hash32.value
  rw [decide_eq_true_eq]
  apply Theory.BigEndian.le_iff_value_le
  rw [hash.toList_length, target.toList_length]

theorem divBytes_eq_quotient (divisor remainder : Nat) (bytes : List UInt8) :
    divBytes divisor remainder bytes = Theory.BigEndian.quotient divisor remainder bytes := by
  induction bytes generalizing remainder with
  | nil => rfl
  | cons byte rest ih =>
      unfold divBytes Theory.BigEndian.quotient
      dsimp only
      rw [ih]

theorem value_divTargetByU64 (target : Hash32) {divisor : Nat} (positive : 0 < divisor) :
    (divTargetByU64 target divisor).value = target.value / divisor := by
  by_cases small : divisor ≤ 1
  · have same : divTargetByU64 target divisor = target := if_pos small
    rw [same, show divisor = 1 by omega, Nat.div_one]
  · have divided : (divTargetByU64 target divisor).toList = divBytes divisor 0 target.toList :=
      congrArg List.Vector.toList (if_neg small)
    unfold Hash32.value
    rw [divided, divBytes_eq_quotient,
      Theory.BigEndian.value_quotient positive target.toList positive, Nat.zero_mul, Nat.zero_add]

theorem roundToU64_natCast (n : Nat) : roundToU64 n = min n u64Max := by
  have floor : ⌊(n : ℚ) + 1 / 2⌋ = n := by
    rw [Int.floor_eq_iff]
    constructor
    · push_cast
      linarith
    · push_cast
      linarith
  unfold roundToU64
  rw [floor, Int.toNat_natCast]

/-- The target of a whole difficulty is the base divided by it. -/
theorem value_targetForDifficulty (base : Hash32) {n : Nat} (positive : 0 < n) :
    (targetForDifficulty base n).value = base.value / min n u64Max := by
  have unit : 1 ≤ u64Max := by decide
  unfold targetForDifficulty
  split
  · rename_i small
    have one : n = 1 := by
      have atMost : n ≤ 1 := by exact_mod_cast small
      omega
    rw [one, Nat.min_eq_left unit, Nat.div_one]
  · dsimp only
    split
    · rename_i large
      have saturated : min n u64Max = u64Max := by
        apply Nat.min_eq_right
        have word : 2 ^ 64 ≤ n := by exact_mod_cast large
        exact le_trans (Nat.sub_le _ _) word
      rw [saturated, Nat.max_eq_left unit, value_divTargetByU64 _ unit]
    · have whole : 0 < min n u64Max := Nat.lt_min.2 ⟨positive, unit⟩
      rw [roundToU64_natCast, Nat.max_eq_left whole, value_divTargetByU64 _ whole]

/-- **A verified share is real work**: its hash times the difficulty is within the base target,
the difficulty taken as the largest `u64` where it is larger. -/
theorem work_of_verified {digest : Digest} {template : WorkTemplate} {extranonce1Le : Bytes 4}
    {solution : SubmitSolution} {share : VerifiedShare} {n : Nat} (positive : 0 < n)
    (verified : verifyShareWithDifficulty digest template extranonce1Le solution n = .ok share) :
    share.hash.value * min n u64Max ≤ template.shareTarget.value := by
  have meets := (verifyShareAgainstTarget_ok verified).2
  rw [hashLeqTarget_iff, value_targetForDifficulty _ positive] at meets
  calc share.hash.value * min n u64Max
      ≤ template.shareTarget.value / min n u64Max * min n u64Max := Nat.mul_le_mul_right _ meets
    _ ≤ template.shareTarget.value := Nat.div_mul_le_self _ _

end CsdPool
