import Kori.Foundation.HalfEven
import Kori.Domain.Money

/-!
# Fees

`divideRoundHalfEven` is rounding half to even, so the fees of many withdrawals together
stay close to the exact percentage of their total.
-/

namespace Kori

open Foundation

variable {numerator numerator' denominator r : Int}

theorem divideRoundHalfEven_nearest (hn : 0 ≤ numerator) (hd : 0 < denominator) :
    NearestEven numerator denominator (divideRoundHalfEven numerator denominator) := by
  -- with no negative number around, truncated division is division with remainder
  have hq : 0 ≤ numerator / denominator := Int.ediv_nonneg hn hd.le
  have hm := Int.emod_nonneg numerator hd.ne'
  have hlt := Int.emod_lt_of_pos numerator hd
  have heq : numerator = numerator / denominator * denominator + numerator % denominator := by
    rw [Int.mul_comm]
    exact (Int.mul_ediv_add_emod numerator denominator).symm
  unfold divideRoundHalfEven
  simp only [Int.tdiv_eq_ediv_of_nonneg hn, Int.tmod_eq_emod_of_nonneg hn,
    Int.tmod_eq_emod_of_nonneg hq]
  split
  · exact NearestEven.below heq hm (by omega)
  · split
    · exact NearestEven.above heq hlt (by omega)
    · split
      · rename_i heven
        exact NearestEven.tie_even heq hm (by omega) (Int.even_iff.2 heven)
      · rename_i hodd
        exact NearestEven.tie_odd heq hm (by omega) fun heven => hodd (Int.even_iff.1 heven)

theorem divideRoundHalfEven_iff (hn : 0 ≤ numerator) (hd : 0 < denominator) :
    r = divideRoundHalfEven numerator denominator ↔ NearestEven numerator denominator r := by
  have hnearest := divideRoundHalfEven_nearest hn hd
  constructor
  · rintro rfl
    exact hnearest
  · exact fun h => h.unique hd hnearest

theorem divideRoundHalfEven_mono (hn : 0 ≤ numerator) (hd : 0 < denominator)
    (hle : numerator ≤ numerator') :
    divideRoundHalfEven numerator denominator ≤ divideRoundHalfEven numerator' denominator :=
  NearestEven.mono hd (divideRoundHalfEven_nearest hn hd)
    (divideRoundHalfEven_nearest (hn.trans hle) hd) hle

/-! ## Every amount has a fee -/

theorem Money.fromMinorUnits_ok {n : Int} {currency : Currency} (hn : 0 ≤ n)
    (hmax : n ≤ maxMinorUnits) :
    Money.fromMinorUnits n currency = .ok ⟨n, currency, hn, hmax⟩ := by
  rw [Money.fromMinorUnits, dif_neg (by omega), dif_neg (by omega)]

theorem cashOut_bounds (amount : Money) :
    0 ≤ divideRoundHalfEven (amount.minorUnits * 185) 10000 ∧
      divideRoundHalfEven (amount.minorUnits * 185) 10000 ≤ amount.minorUnits := by
  have hnonneg := amount.nonneg
  have hexact : ∀ {a : Int}, 0 ≤ a → divideRoundHalfEven (a * 10000) 10000 = a := by
    intro a ha
    refine ((divideRoundHalfEven_iff (by omega) (by decide)).2 ⟨?_, ?_⟩).symm
    · simp
    · simp
  constructor
  · calc 0 = divideRoundHalfEven (0 * 10000) 10000 := (hexact le_rfl).symm
      _ ≤ divideRoundHalfEven (amount.minorUnits * 185) 10000 :=
        divideRoundHalfEven_mono le_rfl (by decide) (by omega)
  · calc divideRoundHalfEven (amount.minorUnits * 185) 10000
        ≤ divideRoundHalfEven (amount.minorUnits * 10000) 10000 :=
          divideRoundHalfEven_mono (by omega) (by decide) (by omega)
      _ = amount.minorUnits := hexact hnonneg

theorem calculateFee_cashOut (amount : Money) : ∃ fee,
    calculateFee amount .cashOut = .ok fee ∧ fee.currency = amount.currency ∧
      fee.minorUnits = divideRoundHalfEven (amount.minorUnits * 185) 10000 := by
  obtain ⟨hlow, hhigh⟩ := cashOut_bounds amount
  exact ⟨_, Money.fromMinorUnits_ok hlow (hhigh.trans amount.le_max), rfl, rfl⟩

/-- Every fee is at most 5 BDT or the amount itself. -/
theorem calculateFee_ok (amount : Money) (type : TransactionType) : ∃ fee,
    calculateFee amount type = .ok fee ∧ fee.currency = amount.currency ∧
      fee.minorUnits ≤ max 500 amount.minorUnits := by
  have hnonneg := amount.nonneg
  cases type with
  | sendMoney =>
      have hfee : Money.fromMinorUnits 500 amount.currency = .ok _ :=
        Money.fromMinorUnits_ok (by decide) (by decide)
      exact ⟨_, hfee, rfl, le_max_left ..⟩
  | cashOut =>
      obtain ⟨fee, hfee, hcurrency, hunits⟩ := calculateFee_cashOut amount
      refine ⟨fee, hfee, hcurrency, le_max_of_le_right ?_⟩
      rw [hunits]
      exact (cashOut_bounds amount).2
  | cashIn | payment | addMoney =>
      exact ⟨_, Money.fromMinorUnits_ok le_rfl (by decide), rfl, by simp⟩

/-! ## Revenue -/

theorem cashOut_fees (amounts : List Money) : ∃ fees,
    amounts.mapM (calculateFee · .cashOut) = .ok fees ∧
      List.Forall₂ (NearestEven · 10000 ·) (amounts.map fun amount => amount.minorUnits * 185)
        (fees.map Money.minorUnits) := by
  induction amounts with
  | nil => exact ⟨[], rfl, .nil⟩
  | cons amount amounts ih =>
      obtain ⟨fee, hfee, -, hunits⟩ := calculateFee_cashOut amount
      obtain ⟨fees, hfees, hnearest⟩ := ih
      have hnonneg := amount.nonneg
      have hfirst : NearestEven (amount.minorUnits * 185) 10000 fee.minorUnits := by
        rw [hunits]
        exact divideRoundHalfEven_nearest (by omega) (by decide)
      refine ⟨fee :: fees, ?_, .cons hfirst hnearest⟩
      simp [List.mapM_cons, hfee, hfees, bind, Except.bind, pure, Except.pure]

/-- `divideRoundHalfEven` is the nearest integer, even where there are two, and monotone.
The fees of withdrawals add up to 1.85 percent within half a minor unit for each. -/
theorem half_even_rounding :
    (∀ numerator denominator : Int, 0 ≤ numerator → 0 < denominator → ∀ r : Int,
      r = divideRoundHalfEven numerator denominator ↔
        2 * |numerator - r * denominator| ≤ denominator ∧
          (2 * |numerator - r * denominator| = denominator → r % 2 = 0)) ∧
    (∀ numerator numerator' denominator : Int, 0 ≤ numerator → 0 < denominator →
      numerator ≤ numerator' →
      divideRoundHalfEven numerator denominator ≤ divideRoundHalfEven numerator' denominator) ∧
    ∀ amounts : List Money, ∃ fees : List Money,
      amounts.mapM (calculateFee · .cashOut) = .ok fees ∧
        |10000 * (fees.map Money.minorUnits).sum - 185 * (amounts.map Money.minorUnits).sum| ≤
          5000 * amounts.length := by
  refine ⟨fun numerator denominator hn hd r => ?_, fun _ _ _ hn hd hle =>
    divideRoundHalfEven_mono hn hd hle, fun amounts => ?_⟩
  · rw [divideRoundHalfEven_iff hn hd]
    constructor
    · exact fun h => ⟨h.near, fun heq => Int.even_iff.1 (h.even heq)⟩
    · exact fun h => ⟨h.1, fun heq => Int.even_iff.2 (h.2 heq)⟩
  · obtain ⟨fees, hfees, hnearest⟩ := cashOut_fees amounts
    refine ⟨fees, hfees, ?_⟩
    have herror := NearestEven.sum_error hnearest
    rw [List.sum_map_mul_right, List.length_map, Int.mul_comm _ 185] at herror
    linarith

theorem half_even_rounding_of_ties :
    divideRoundHalfEven 25 10 = 2 ∧ divideRoundHalfEven 35 10 = 4 :=
  ⟨((half_even_rounding.1 25 10 (by decide) (by decide) 2).2 (by decide)).symm,
    ((half_even_rounding.1 35 10 (by decide) (by decide) 4).2 (by decide)).symm⟩

end Kori
