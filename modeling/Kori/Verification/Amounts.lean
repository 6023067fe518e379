import Kori.Domain.Fees
import Kori.Transactions

/-!
# Which amounts are accepted

`calculateTransferMath` accepts the numerals of 1 to 10,000,000 and nothing else, and
what it rejects it rejects with a `BadRequestException`.
-/

namespace Kori

open Foundation

variable {text : JsString} {value : Option JsString} {type : TransactionType} {n : Nat}

theorem maxTransactionAmountDigits_eq : maxTransactionAmountDigits = 8 := by
  decide +kernel

theorem accepted_iff : ¬(text.length > maxTransactionAmountDigits ∨
      ¬positiveMinorUnitsPattern text = true) ↔
    ∃ n : Nat, 1 ≤ n ∧ n < 10 ^ 8 ∧ natText n = text := by
  rw [maxTransactionAmountDigits_eq, not_or, not_not, Nat.not_lt]
  constructor
  · rintro ⟨hlength, hpattern⟩
    obtain ⟨n, -, hpositive, rfl⟩ := bigInt_pattern hpattern
    exact ⟨n, hpositive, (natText_length (by decide)).1 hlength, rfl⟩
  · rintro ⟨n, hpositive, hlt, rfl⟩
    exact ⟨(natText_length (by decide)).2 hlt, pattern_natText hpositive⟩

theorem Money.add_ok {a b : Money} (hcurrency : b.currency = a.currency)
    (hmax : a.minorUnits + b.minorUnits ≤ maxMinorUnits) :
    a.add b = .ok ⟨a.minorUnits + b.minorUnits, a.currency,
      Int.add_nonneg a.nonneg b.nonneg, hmax⟩ := by
  rw [Money.add, if_neg (by simp [hcurrency]), Money.fromMinorUnits_ok]

theorem calculateTransferMath_natText {transferAmount feeAmount totalRequiredAmount : Money}
    (hn : 1 ≤ n) (hlt : n < 10 ^ 8)
    (hprincipal : Money.fromMinorUnits n .bdt = .ok transferAmount)
    (hfee : calculateFee transferAmount type = .ok feeAmount)
    (htotal : transferAmount.add feeAmount = .ok totalRequiredAmount) :
    calculateTransferMath (some (natText n)) type =
      if maxTransactionPrincipalMinorUnits < n then .error .transactionAmountLimitExceeded
      else .ok ⟨transferAmount, feeAmount, totalRequiredAmount⟩ := by
  have haccepted := accepted_iff.2 ⟨n, hn, hlt, rfl⟩
  have hunits := (Money.fromMinorUnits_eq_ok hprincipal).1
  simp only [calculateTransferMath, if_neg haccepted, bigInt_natText hn, Option.elim_some,
    hprincipal, Except.mapError, bind, Except.bind, pure, Except.pure, hfee, htotal,
    hunits]
  split
  · rfl
  · rfl

variable (type) in
theorem calculateTransferMath_cases (hn : 1 ≤ n) (hlt : n < 10 ^ 8) :
    ∃ amounts : TransactionAmounts, amounts.transferAmount.minorUnits = n ∧
      calculateTransferMath (some (natText n)) type =
        if maxTransactionPrincipalMinorUnits < n then .error .transactionAmountLimitExceeded
        else .ok amounts := by
  have hmax : maxMinorUnits = 9223372036854775807 := rfl
  have hle : (n : Int) ≤ maxMinorUnits := by omega
  obtain ⟨fee, hfee, hcurrency, hbound⟩ := calculateFee_ok ⟨n, .bdt, by omega, hle⟩ type
  have hsum : (n : Int) + fee.minorUnits ≤ maxMinorUnits := by
    simp only at hbound
    omega
  have htotal := Money.add_ok (a := ⟨n, .bdt, by omega, hle⟩) hcurrency hsum
  have hprincipal : Money.fromMinorUnits (n : Int) .bdt = .ok _ :=
    Money.fromMinorUnits_ok (Int.natCast_nonneg n) hle
  have hmath := calculateTransferMath_natText hn hlt hprincipal hfee htotal
  exact ⟨⟨_, fee, _⟩, rfl, hmath⟩

theorem calculateTransferMath_rejects
    (h : ∀ n : Nat, 1 ≤ n → n < 10 ^ 8 → value ≠ some (natText n)) :
    calculateTransferMath value type = .error .invalidTransactionAmount := by
  cases value with
  | none => rfl
  | some text =>
      have hrejected : text.length > maxTransactionAmountDigits ∨
          ¬positiveMinorUnitsPattern text = true := by
        by_contra haccepted
        obtain ⟨n, hn, hlt, rfl⟩ := accepted_iff.1 haccepted
        exact h n hn hlt rfl
      simp only [calculateTransferMath, if_pos hrejected]

theorem calculateTransferMath_some (value : Option JsString) (type : TransactionType) :
    (∃ (n : Nat) (amounts : TransactionAmounts), 1 ≤ n ∧ n ≤ 10000000 ∧
      value = some (natText n) ∧ calculateTransferMath value type = .ok amounts ∧
      amounts.transferAmount.minorUnits = n) ∨
    (∀ n : Nat, 1 ≤ n → n ≤ 10000000 → value ≠ some (natText n)) ∧
      (calculateTransferMath value type = .error .invalidTransactionAmount ∨
        calculateTransferMath value type = .error .transactionAmountLimitExceeded) := by
  by_cases h : ∃ n : Nat, 1 ≤ n ∧ n < 10 ^ 8 ∧ value = some (natText n)
  · obtain ⟨n, hn, hlt, rfl⟩ := h
    obtain ⟨amounts, hunits, hmath⟩ := calculateTransferMath_cases type hn hlt
    by_cases hlimit : n ≤ 10000000
    · rw [if_neg (by simp [maxTransactionPrincipalMinorUnits]; omega)] at hmath
      exact .inl ⟨n, amounts, hn, hlimit, rfl, hmath, hunits⟩
    · rw [if_pos (by simp [maxTransactionPrincipalMinorUnits]; omega)] at hmath
      refine .inr ⟨fun m hm hmax heq => ?_, .inr hmath⟩
      have hread := bigInt_natText hn
      rw [Option.some.inj heq, bigInt_natText hm] at hread
      have heq := Option.some.inj hread
      omega
  · have hnone : ∀ n : Nat, 1 ≤ n → n < 10 ^ 8 → value ≠ some (natText n) :=
      fun n hn hlt heq => h ⟨n, hn, hlt, heq⟩
    exact .inr ⟨fun n hn hmax => hnone n hn (by omega), .inl (calculateTransferMath_rejects hnone)⟩

/-- Exactly the numerals of the numbers from 1 to 10,000,000 are accepted, nothing is lost
on the way to the amounts, and everything else is a bad request. -/
theorem amounts_accepted (value : Option JsString) (type : TransactionType) :
    ((∃ amounts, calculateTransferMath value type = .ok amounts) ↔
      ∃ n : Nat, 1 ≤ n ∧ n ≤ 10000000 ∧ value = some (natText n)) ∧
    (∀ amounts, calculateTransferMath value type = .ok amounts →
      some amounts.transferAmount.toText = value ∧
      calculateFee amounts.transferAmount type = .ok amounts.feeAmount ∧
      amounts.totalRequiredAmount.minorUnits =
        amounts.transferAmount.minorUnits + amounts.feeAmount.minorUnits ∧
      amounts.totalRequiredAmount.minorUnits < 2 ^ 63) ∧
    ((∀ amounts, calculateTransferMath value type ≠ .ok amounts) →
      ∃ code message, liftAmounts (calculateTransferMath value type) =
        throw (.http 400 (some code) message)) := by
  rcases calculateTransferMath_some value type with
    ⟨n, amounts, hn, hmax, rfl, hmath, hunits⟩ | ⟨hnone, herror⟩
  · refine ⟨⟨fun _ => ⟨n, hn, hmax, rfl⟩, fun _ => ⟨amounts, hmath⟩⟩, ?_,
      fun hnot => absurd hmath (hnot amounts)⟩
    intro amounts' hmath'
    obtain rfl : amounts = amounts' := Except.ok.inj (hmath.symm.trans hmath')
    obtain ⟨-, -, -, hfee, -⟩ := calculateTransferMath_eq_ok hmath
    have htotal := amounts.totalRequiredAmount.le_max
    rw [maxMinorUnits] at htotal
    refine ⟨?_, hfee, calculateTransferMath_total hmath, by omega⟩
    rw [Money.toText, hunits, intText, if_neg (by omega), Int.toNat_natCast]
  · have hnot : ∀ amounts, calculateTransferMath value type ≠ .ok amounts := by
      rcases herror with herror | herror
      · simp [herror]
      · simp [herror]
    refine ⟨⟨?_, ?_⟩, fun amounts hmath => absurd hmath (hnot amounts), fun _ => ?_⟩
    · rintro ⟨amounts, hmath⟩
      exact absurd hmath (hnot amounts)
    · rintro ⟨n, hn, hmax, heq⟩
      exact absurd heq (hnone n hn hmax)
    · rcases herror with herror | herror
      · exact ⟨_, _, by rw [herror]; rfl⟩
      · exact ⟨_, _, by rw [herror]; rfl⟩

end Kori
