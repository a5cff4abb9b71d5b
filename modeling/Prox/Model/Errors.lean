import Prox.Lib.Go

/-! # Error values of the model layer

The sentinel errors that the `model` package exports and the two that the ORM raises. Every other
error of the layer is a text. -/

namespace Prox

/-- The sentinel errors of the model layer. -/
inductive Sentinel where
  /-- `gorm.ErrRecordNotFound`: a `First` matched no row. -/
  | recordNotFound
  /-- A unique index refused an `INSERT`. -/
  | duplicatedKey
  | userQuotaInsufficient
  | userQuotaReservationConflict
  | userQuotaReservationState
  | userQuotaMutationConflict
  | noActiveSubscription
  | subscriptionQuotaInsufficient
  | subscriptionQuotaMutationConflict
  | subscriptionPreConsumeConflict
  | subscriptionPreConsumeState
  | taskBillingOperationLeaseLost
  | paymentMethodMismatch
  | topUpNotFound
  | topUpStatusInvalid
  | redeemFailed
  | budgetPoolQuotaInsufficient
  | opsFundQuotaInsufficient
  | budgetAdjustmentIdempotencyConflict
  | identityBindingConflict
  | twoFANotEnabled
  | database
  | tokenNotProvided
  | tokenInvalid
  deriving DecidableEq

/-- The text of each sentinel. -/
def Sentinel.text : Sentinel → String
  | .recordNotFound => "record not found"
  | .duplicatedKey => "duplicated key not allowed"
  | .userQuotaInsufficient => "user quota insufficient"
  | .userQuotaReservationConflict => "user quota reservation conflict"
  | .userQuotaReservationState => "user quota reservation state conflict"
  | .userQuotaMutationConflict => "user quota mutation idempotency conflict"
  | .noActiveSubscription => "no active subscription"
  | .subscriptionQuotaInsufficient => "subscription quota insufficient"
  | .subscriptionQuotaMutationConflict => "subscription quota mutation idempotency conflict"
  | .subscriptionPreConsumeConflict => "subscription pre-consume idempotency conflict"
  | .subscriptionPreConsumeState => "subscription pre-consume state conflict"
  | .taskBillingOperationLeaseLost => "task billing operation lease lost"
  | .paymentMethodMismatch => "payment method mismatch"
  | .topUpNotFound => "topup not found"
  | .topUpStatusInvalid => "topup status invalid"
  | .redeemFailed => "redeem.failed"
  | .budgetPoolQuotaInsufficient => "budget pool quota insufficient"
  | .opsFundQuotaInsufficient => "ops fund insufficient"
  | .budgetAdjustmentIdempotencyConflict =>
    "budget adjustment idempotency key was already used for a different operation"
  | .identityBindingConflict => "external identity is already bound to another user"
  | .twoFANotEnabled => "2fa not enabled"
  | .database => "database error"
  | .tokenNotProvided => "token not provided"
  | .tokenInvalid => "token invalid"

/-- An error value of the model layer. -/
abbrev Err := GoError Sentinel

/-- `err.Error()`. -/
def Err.message (e : Err) : String := GoError.message Sentinel.text e

end Prox
