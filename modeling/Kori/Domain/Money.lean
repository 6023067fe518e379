import Kori.Domain.Numerals

/-!
# Money, fees and the amounts of a transfer
-/

namespace Kori

inductive Role where
  | customer | agent | merchant | admin
  deriving DecidableEq, Repr

inductive AccountStatus where
  | active | locked | suspended
  deriving DecidableEq, Repr

inductive WalletType where
  | personal | agent | merchant | system
  deriving DecidableEq, Repr

inductive TransactionType where
  | sendMoney | cashIn | cashOut | payment | addMoney
  deriving DecidableEq, Repr

inductive TransactionStatus where
  | pending | processing | completed | failed | reversed
  deriving DecidableEq, Repr

inductive EntryType where
  | debit | credit
  deriving DecidableEq, Repr

inductive Currency where
  | bdt
  deriving DecidableEq, Repr

def WalletType.text : WalletType → String
  | .personal => "PERSONAL"
  | .agent => "AGENT"
  | .merchant => "MERCHANT"
  | .system => "SYSTEM"

def Role.text : Role → String
  | .customer => "CUSTOMER"
  | .agent => "AGENT"
  | .merchant => "MERCHANT"
  | .admin => "ADMIN"

def TransactionType.text : TransactionType → String
  | .sendMoney => "SEND_MONEY"
  | .cashIn => "CASH_IN"
  | .cashOut => "CASH_OUT"
  | .payment => "PAYMENT"
  | .addMoney => "ADD_MONEY"

def TransactionStatus.text : TransactionStatus → String
  | .pending => "PENDING"
  | .processing => "PROCESSING"
  | .completed => "COMPLETED"
  | .failed => "FAILED"
  | .reversed => "REVERSED"

def maxMinorUnits : Int := 9223372036854775807

def minMinorUnits : Int := -9223372036854775808

/-- An amount that the signed 64-bit columns can hold, never negative. -/
structure Money where
  minorUnits : Int
  currency : Currency
  nonneg : 0 ≤ minorUnits
  le_max : minorUnits ≤ maxMinorUnits
  deriving DecidableEq

inductive InvalidMoney where
  | negative
  | exceedsMaximum
  | differentCurrencies
  deriving DecidableEq, Repr

def InvalidMoney.message : InvalidMoney → String
  | .negative => "Money cannot be negative"
  | .exceedsMaximum => "Money exceeds the supported maximum amount"
  | .differentCurrencies => "Cannot operate on money with different currencies"

namespace Money

def fromMinorUnits (minorUnits : Int) (currency : Currency) :
    Except InvalidMoney Money :=
  if hneg : minorUnits < 0 then .error .negative
  else if hmax : minorUnits > maxMinorUnits then .error .exceedsMaximum
  else .ok ⟨minorUnits, currency, Int.not_lt.1 hneg, Int.not_lt.1 hmax⟩

def zero (currency : Currency) : Except InvalidMoney Money := fromMinorUnits 0 currency

def add (a b : Money) : Except InvalidMoney Money :=
  if a.currency ≠ b.currency then .error .differentCurrencies
  else fromMinorUnits (a.minorUnits + b.minorUnits) a.currency

def isLessThan (a b : Money) : Except InvalidMoney Bool :=
  if a.currency ≠ b.currency then .error .differentCurrencies
  else .ok (a.minorUnits < b.minorUnits)

def isZero (a : Money) : Bool := a.minorUnits = 0

def toText (a : Money) : JsString := intText a.minorUnits

theorem fromMinorUnits_eq_ok {n : Int} {currency : Currency} {a : Money}
    (h : fromMinorUnits n currency = .ok a) :
    a.minorUnits = n ∧ a.currency = currency := by
  unfold fromMinorUnits at h
  split at h
  · simp at h
  · split at h
    · simp at h
    · simp only [Except.ok.injEq] at h
      subst a
      exact ⟨rfl, rfl⟩

theorem add_eq_ok {a b sum : Money} (h : a.add b = .ok sum) :
    sum.minorUnits = a.minorUnits + b.minorUnits := by
  unfold add at h
  split at h
  · simp at h
  · exact (fromMinorUnits_eq_ok h).1

theorem isLessThan_ok (a b : Money) :
    a.isLessThan b = .ok (decide (a.minorUnits < b.minorUnits)) := by
  unfold isLessThan
  cases ha : a.currency
  cases hb : b.currency
  simp

end Money

def divideRoundHalfEven (numerator denominator : Int) : Int :=
  let division := numerator.tdiv denominator
  let remainder := numerator.tmod denominator
  let doubleRemainder := remainder * 2
  if doubleRemainder < denominator then division
  else if doubleRemainder > denominator then division + 1
  else if division.tmod 2 = 0 then division
  else division + 1

def feeStrategies : TransactionType → Money → Except InvalidMoney Money
  | .sendMoney, amount => Money.fromMinorUnits 500 amount.currency
  | .cashOut, amount =>
      Money.fromMinorUnits (divideRoundHalfEven (amount.minorUnits * 185) 10000)
        amount.currency
  | .cashIn, amount => Money.zero amount.currency
  | .payment, amount => Money.zero amount.currency
  | .addMoney, amount => Money.zero amount.currency

/-- Every transaction type has a strategy, so the lookup never misses. -/
def calculateFee (amount : Money) (type : TransactionType) : Except InvalidMoney Money :=
  feeStrategies type amount

structure TransactionAmounts where
  transferAmount : Money
  feeAmount : Money
  totalRequiredAmount : Money
  deriving DecidableEq

def maxTransactionPrincipalMinorUnits : Int := 10000000

def maxTransactionAmountDigits : Nat := (intText maxTransactionPrincipalMinorUnits).length

inductive AmountError where
  | invalidTransactionAmount
  | transactionAmountLimitExceeded
  /-- `BigInt` throws. -/
  | bigIntSyntaxError
  | money (e : InvalidMoney)
  deriving DecidableEq, Repr

/-- `none` stands for a value that is not a string. -/
def calculateTransferMath (amountMinorUnits : Option JsString)
    (type : TransactionType) : Except AmountError TransactionAmounts :=
  match amountMinorUnits with
  | none => .error .invalidTransactionAmount
  | some text =>
      if text.length > maxTransactionAmountDigits ∨ ¬positiveMinorUnitsPattern text then
        .error .invalidTransactionAmount
      else do
        let minorUnits ← (bigInt text).elim (throw .bigIntSyntaxError) pure
        let transferAmount ← (Money.fromMinorUnits minorUnits .bdt).mapError .money
        if transferAmount.minorUnits > maxTransactionPrincipalMinorUnits then
          throw .transactionAmountLimitExceeded
        let feeAmount ← (calculateFee transferAmount type).mapError .money
        let totalRequiredAmount ← (transferAmount.add feeAmount).mapError .money
        pure ⟨transferAmount, feeAmount, totalRequiredAmount⟩

example : (calculateTransferMath (some (js "10000")) .cashOut).toOption.map
    (fun amounts => amounts.totalRequiredAmount.minorUnits) = some 10185 := by
  decide +kernel

theorem calculateTransferMath_eq_ok {text : Option JsString} {type : TransactionType}
    {amounts : TransactionAmounts} (h : calculateTransferMath text type = .ok amounts) :
    1 ≤ amounts.transferAmount.minorUnits ∧
      amounts.transferAmount.minorUnits ≤ maxTransactionPrincipalMinorUnits ∧
      amounts.transferAmount.currency = .bdt ∧
      calculateFee amounts.transferAmount type = .ok amounts.feeAmount ∧
      amounts.transferAmount.add amounts.feeAmount = .ok amounts.totalRequiredAmount := by
  unfold calculateTransferMath at h
  cases text with
  | none => simp at h
  | some text =>
      dsimp only at h
      split at h
      · simp at h
      · rename_i hpattern
        obtain ⟨n, hn, hpositive, -⟩ := bigInt_pattern (of_not_not (not_or.1 hpattern).2)
        simp only [hn, Option.elim_some, pure_bind] at h
        cases hamount : Money.fromMinorUnits n .bdt with
        | error e => simp [hamount, Except.mapError, bind, Except.bind] at h
        | ok transferAmount =>
            obtain ⟨hunits, hcurrency⟩ := Money.fromMinorUnits_eq_ok hamount
            have hprincipal : 1 ≤ transferAmount.minorUnits := by omega
            simp only [hamount, Except.mapError, bind, Except.bind] at h
            split at h
            · simp [throw, throwThe, MonadExceptOf.throw] at h
            · rename_i hlimit
              cases hfee : calculateFee transferAmount type with
              | error e => simp [hfee] at h
              | ok feeAmount =>
                  cases htotal : transferAmount.add feeAmount with
                  | error e => simp [hfee, htotal] at h
                  | ok total =>
                      simp only [hfee, htotal, pure, Except.pure,
                        Except.ok.injEq] at h
                      subst amounts
                      exact ⟨hprincipal, Int.not_lt.1 hlimit, hcurrency, hfee, htotal⟩

theorem calculateTransferMath_total {text : Option JsString} {type : TransactionType}
    {amounts : TransactionAmounts} (h : calculateTransferMath text type = .ok amounts) :
    amounts.totalRequiredAmount.minorUnits =
      amounts.transferAmount.minorUnits + amounts.feeAmount.minorUnits :=
  Money.add_eq_ok (calculateTransferMath_eq_ok h).2.2.2.2

structure LedgerDescription where
  debitDescription : JsString
  creditDescription : JsString
  deriving DecidableEq

/-- Every transaction type has a strategy, so the fallback text is never used. -/
def dynamicLedgerDescription (type : TransactionType) (senderId receiverId : Uuid) :
    LedgerDescription :=
  match type with
  | .sendMoney =>
      ⟨js "Sent Money to " ++ uuidText receiverId,
        js "Money received from " ++ uuidText senderId⟩
  | .cashIn =>
      ⟨js "Cash In to User " ++ uuidText receiverId,
        js "Cash deposit processed by Agent " ++ uuidText senderId⟩
  | .cashOut =>
      ⟨js "Cash Out withdrawl debit via Agent " ++ uuidText receiverId,
        js "Cash Out fulfillment from User " ++ uuidText senderId⟩
  | .payment =>
      ⟨js "Payment completed to Merchant " ++ uuidText receiverId,
        js "Payment received from User " ++ uuidText senderId⟩
  | .addMoney =>
      ⟨js "System Float allocation for User " ++ uuidText receiverId,
        js "Digital Money Minted from External Bank for User " ++ uuidText receiverId⟩

end Kori
