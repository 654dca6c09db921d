/-
# Theory.ShortestDecimal — the decimal a floating-point number is printed as

A double is printed with as few significant digits as tell it from every other double, and, among
the decimals with that many, with the nearest one; of two equally near ones the larger is taken.
`shortest` is the value of that text.  Which decimals read back as the double is decided by
`F64.ofRat`, so the uneven neighbourhood of a power of two needs no rule of its own.

Seventeen digits are enough for every double.  Printing is not exact: whole numbers come back as
they are up to `2 ^ 53` (`shortest_whole`), and stay whole beyond it (`shortest_natCast`).
-/
import CsdPool.Theory.Binary64

namespace CsdPool.Theory.F64

set_option autoImplicit false

/-! ## Printing -/

/-- The place of the last of `digits` significant digits. -/
def unit (digits : Nat) (q : ℚ) : ℚ := (10 : ℚ) ^ (Int.log 10 q + 1 - digits)

def below (digits : Nat) (q : ℚ) : ℚ := ⌊q / unit digits q⌋ * unit digits q

def above (digits : Nat) (q : ℚ) : ℚ := ⌈q / unit digits q⌉ * unit digits q

/-- The nearest decimal of this many digits that reads back as `q`. -/
def nearest (q : ℚ) (digits : Nat) : Option ℚ :=
  if ofRat (above digits q) = finite q ∧
      (ofRat (below digits q) ≠ finite q ∨ above digits q - q ≤ q - below digits q) then
    some (above digits q)
  else if ofRat (below digits q) = finite q then some (below digits q)
  else none

def shortestPositive (q : ℚ) : ℚ := ((List.range' 1 17).findSome? (nearest q)).getD q

/-- The value of the text of `finite q`. -/
def shortest (q : ℚ) : ℚ :=
  if q = 0 then 0
  else if 0 < q then shortestPositive q
  else -shortestPositive (-q)

example : shortest (2 ^ 57) = 144115188075855870 := by decide +kernel

/-! ## Whole numbers -/

theorem unit_pos (digits : Nat) (q : ℚ) : 0 < unit digits q := zpow_pos (by norm_num) _

/-- A place is whole, or it divides every whole number. -/
theorem unit_whole (digits : Nat) (q : ℚ) :
    (∃ u : Nat, unit digits q = u) ∨ ∃ u : Nat, 0 < u ∧ unit digits q = 1 / u := by
  unfold unit
  rcases Int.le_total 0 (Int.log 10 q + 1 - digits) with whole | fraction
  · obtain ⟨k, is⟩ := Int.eq_ofNat_of_zero_le whole
    exact .inl ⟨10 ^ k, by rw [is]; push_cast; exact zpow_natCast 10 k⟩
  · obtain ⟨k, is⟩ := Int.eq_ofNat_of_zero_le (Int.neg_nonneg.2 fraction)
    refine .inr ⟨10 ^ k, Nat.pow_pos (by decide), ?_⟩
    rw [← Int.neg_neg (Int.log 10 q + 1 - digits), is, zpow_neg, zpow_natCast, one_div]
    push_cast
    rfl

/-- The candidates for a whole number are whole. -/
theorem nearest_natCast {n digits : Nat} {c : ℚ} (found : nearest n digits = some c) :
    ∃ m : Nat, c = m := by
  have candidates : (∃ m : Nat, below digits n = m) ∧ ∃ m : Nat, above digits n = m := by
    unfold below above
    rcases unit_whole digits n with ⟨u, is⟩ | ⟨u, positive, is⟩
    · have quotient : (0 : ℚ) ≤ n / unit digits n :=
        div_nonneg (Nat.cast_nonneg n) (unit_pos ..).le
      have down : (0 : ℤ) ≤ ⌊(n : ℚ) / unit digits n⌋ := Int.floor_nonneg.2 quotient
      have up : (0 : ℤ) ≤ ⌈(n : ℚ) / unit digits n⌉ := Int.ceil_nonneg quotient
      obtain ⟨a, atA⟩ := Int.eq_ofNat_of_zero_le down
      obtain ⟨b, atB⟩ := Int.eq_ofNat_of_zero_le up
      rw [atA, atB, is]
      exact ⟨⟨a * u, by push_cast; rfl⟩, ⟨b * u, by push_cast; rfl⟩⟩
    · -- every digit of the number is kept
      have kept : (n : ℚ) / (1 / u) = ((n * u : Nat) : ℚ) := by push_cast; field_simp
      have back : ((n * u : Nat) : ℚ) * (1 / u) = n := by push_cast; field_simp
      rw [is, kept, Int.floor_natCast, Int.ceil_natCast, Int.cast_natCast, back]
      exact ⟨⟨n, rfl⟩, ⟨n, rfl⟩⟩
  unfold nearest at found
  split at found
  · cases found
    exact candidates.2
  · split at found
    · cases found
      exact candidates.1
    · cases found

theorem nearest_reads {q c : ℚ} {digits : Nat} (found : nearest q digits = some c) :
    ofRat c = finite q := by
  unfold nearest at found
  split at found
  · rename_i up
    cases found
    exact up.1
  · split at found
    · rename_i down
      cases found
      exact down
    · cases found

/-- What is printed for a positive whole number: itself, or a whole number that reads back as it. -/
theorem shortestPositive_natCast (n : Nat) :
    shortestPositive n = n ∨ ∃ m : Nat, shortestPositive n = m ∧ ofRat m = finite n := by
  unfold shortestPositive
  cases found : (List.range' 1 17).findSome? (nearest (n : ℚ)) with
  | none => exact .inl rfl
  | some c =>
      obtain ⟨digits, -, at_⟩ := List.exists_of_findSome?_eq_some found
      obtain ⟨m, rfl⟩ := nearest_natCast at_
      exact .inr ⟨m, rfl, nearest_reads at_⟩

/-- **Whole numbers are printed as whole numbers.** -/
theorem shortest_natCast (n : Nat) : ∃ m : Nat, shortest n = m := by
  unfold shortest
  by_cases zero : (n : ℚ) = 0
  · rw [if_pos zero]
    exact ⟨0, rfl⟩
  · have positive : (0 : ℚ) < n := lt_of_le_of_ne (Nat.cast_nonneg n) (Ne.symm zero)
    rw [if_neg zero, if_pos positive]
    rcases shortestPositive_natCast n with same | ⟨m, is, -⟩
    · exact ⟨n, same⟩
    · exact ⟨m, is⟩

/-! ## Up to `2 ^ 53` nothing is lost -/

theorem roundHalfEven_intCast (z : ℤ) : roundHalfEven z = z := by
  unfold roundHalfEven
  rw [Int.floor_intCast]
  norm_num

/-- Whole numbers below `2 ^ 53` are doubles. -/
theorem ofRat_small {m : Nat} (small : m < 2 ^ 53) : ofRat m = finite m := by
  rcases Nat.eq_zero_or_pos m with rfl | positive
  · decide +kernel
  have value : (0 : ℚ) < m := by exact_mod_cast positive
  have exponent : Int.log 2 |(m : ℚ)| ≤ 52 := by
    rw [abs_of_pos value]
    have below53 : (m : ℚ) < (2 : ℚ) ^ ((52 : ℤ) + 1) := by
      have cast : (m : ℚ) < ((2 ^ 53 : Nat) : ℚ) := by exact_mod_cast small
      calc (m : ℚ) < ((2 ^ 53 : Nat) : ℚ) := cast
        _ = (2 : ℚ) ^ ((52 : ℤ) + 1) := by norm_num
    exact Int.lt_add_one_iff.1 ((Int.lt_zpow_iff_log_lt (by norm_num) value).1 below53)
  -- the distance of neighbours divides one
  obtain ⟨k, is⟩ : ∃ k : Nat, ulp m = 1 / (2 ^ k : Nat) := by
    unfold ulp
    have low : Max.max (Int.log 2 |(m : ℚ)| - 52) (-1074) ≤ 0 := by omega
    obtain ⟨k, at_⟩ := Int.eq_ofNat_of_zero_le (Int.neg_nonneg.2 low)
    refine ⟨k, ?_⟩
    rw [← Int.neg_neg (Max.max (Int.log 2 |(m : ℚ)| - 52) (-1074)), at_, zpow_neg, zpow_natCast,
      one_div]
    push_cast
    rfl
  have quotient : (m : ℚ) / ulp m = ((m * 2 ^ k : Nat) : ℤ) := by
    rw [is]
    push_cast
    field_simp
  have back : (((m * 2 ^ k : Nat) : ℤ) : ℚ) * ulp m = m := by
    rw [is]
    push_cast
    field_simp
  unfold ofRat
  dsimp only
  rw [quotient, roundHalfEven_intCast, back, if_neg]
  rw [abs_of_pos value, not_le]
  calc (m : ℚ) < (2 ^ 53 : Nat) := by exact_mod_cast small
    _ = (2 : ℚ) ^ 53 := by norm_num
    _ ≤ 2 ^ 1024 := pow_le_pow_right₀ (by norm_num) (by norm_num)

/-- What reads back below `2 ^ 53` is below it. -/
theorem lt_of_ofRat {m n : Nat} (reads : ofRat m = finite n) (small : n < 2 ^ 53) :
    m < 2 ^ 53 := by
  by_contra large
  have value : ((2 ^ 53 : Nat) : ℚ) ≤ m := by exact_mod_cast not_lt.1 large
  have positive : (0 : ℚ) < m := lt_of_lt_of_le (by norm_num) value
  have exponent : 53 ≤ Int.log 2 |(m : ℚ)| := by
    rw [abs_of_pos positive]
    refine (Int.zpow_le_iff_le_log (by norm_num) positive).1 ?_
    calc (2 : ℚ) ^ (53 : ℤ) = ((2 ^ 53 : Nat) : ℚ) := by norm_num
      _ ≤ m := value
  have spacing : ulp m = (2 : ℚ) ^ (Int.log 2 (m : ℚ) - 52) := by
    unfold ulp
    rw [max_eq_left (by omega), abs_of_pos positive]
  rw [abs_of_pos positive] at exponent
  -- the mantissa is at least `2 ^ 52`, rounded or not
  have mantissa : (2 ^ 52 : ℤ) ≤ roundHalfEven ((m : ℚ) / ulp m) := by
    refine le_trans (Int.le_floor.2 ?_) (le_roundHalfEven _)
    rw [le_div_iff₀ (ulp_pos _), spacing]
    calc (((2 : ℤ) ^ 52 : ℤ) : ℚ) * (2 : ℚ) ^ (Int.log 2 (m : ℚ) - 52)
        = (2 : ℚ) ^ (Int.log 2 (m : ℚ)) := by
          have split : Int.log 2 (m : ℚ) = 52 + (Int.log 2 (m : ℚ) - 52) := by omega
          rw [split, zpow_add₀ (by norm_num), ← split]
          norm_num
      _ ≤ m := Int.zpow_log_le_self (by norm_num) positive
  have rounded : (n : ℚ) = roundHalfEven ((m : ℚ) / ulp m) * ulp m := by
    unfold ofRat at reads
    dsimp only at reads
    split at reads
    · cases reads
    · exact (F64.finite.inj reads).symm
  have floor : (2 ^ 53 : ℚ) ≤ n := by
    rw [rounded]
    calc (2 ^ 53 : ℚ) = (2 : ℚ) ^ 52 * 2 := by norm_num
      _ ≤ roundHalfEven ((m : ℚ) / ulp m) * ulp m := by
        have whole : ((2 : ℚ) ^ 52) ≤ roundHalfEven ((m : ℚ) / ulp m) := by
          exact_mod_cast mantissa
        have two : (2 : ℚ) ≤ ulp m := by
          rw [spacing]
          calc (2 : ℚ) = (2 : ℚ) ^ (1 : ℤ) := by norm_num
            _ ≤ (2 : ℚ) ^ (Int.log 2 (m : ℚ) - 52) :=
                zpow_le_zpow_right₀ (by norm_num) (by omega)
        exact mul_le_mul whole two (by norm_num) (le_trans (by norm_num) whole)
  have absurd_ : (2 ^ 53 : Nat) ≤ n := by exact_mod_cast floor
  omega

/-- **Up to `2 ^ 53` a whole number is printed as itself.** -/
theorem shortest_whole {n : Nat} (small : n ≤ 2 ^ 53) : shortest n = n := by
  rcases Nat.eq_zero_or_pos n with rfl | positive
  · rfl
  rcases Nat.lt_or_eq_of_le small with below53 | rfl
  · have value : (0 : ℚ) < n := by exact_mod_cast positive
    unfold shortest
    rw [if_neg (ne_of_gt value), if_pos value]
    rcases shortestPositive_natCast n with same | ⟨m, is, reads⟩
    · exact same
    · rw [is]
      rw [ofRat_small (lt_of_ofRat reads below53)] at reads
      exact F64.finite.inj reads
  · decide +kernel

end CsdPool.Theory.F64
