import Mathlib.Data.List.Basic

/-!
# The subscription state machine (`subscription-state-machine.ts`)

`ALLOWED_TRANSITIONS` and its two readers, with the closure facts the concurrent writers rest on:
nothing leads out of a terminal status, and a subscription that has been paid for once (`ACTIVE`,
`PAST_DUE`, `SUSPENDED`) only leaves that class by being cancelled.
-/

namespace Gescom.Billing

inductive SubscriptionStatus where
  | trial | active | pastDue | suspended | cancelled | expired
  deriving DecidableEq, Repr

open SubscriptionStatus

/-- `ALLOWED_TRANSITIONS` (`subscription-state-machine.ts:7`). -/
def allowedTransitions : SubscriptionStatus → List SubscriptionStatus
  | trial => [active, expired, cancelled]
  | active => [pastDue, suspended, cancelled]
  | pastDue => [active, suspended, cancelled]
  | suspended => [active, cancelled]
  | cancelled => []
  | expired => []

def canTransitionSubscription (fromStatus toStatus : SubscriptionStatus) : Bool :=
  (allowedTransitions fromStatus).contains toStatus

/-- `InvalidSubscriptionTransitionError`. -/
structure InvalidSubscriptionTransition where
  fromStatus : SubscriptionStatus
  toStatus : SubscriptionStatus
  deriving DecidableEq, Repr

def SubscriptionStatus.text : SubscriptionStatus → String
  | trial => "TRIAL"
  | active => "ACTIVE"
  | pastDue => "PAST_DUE"
  | suspended => "SUSPENDED"
  | cancelled => "CANCELLED"
  | expired => "EXPIRED"

def InvalidSubscriptionTransition.message (e : InvalidSubscriptionTransition) : String :=
  "Transition d'abonnement invalide : " ++ e.fromStatus.text ++ " → " ++ e.toStatus.text

def assertSubscriptionTransition (fromStatus toStatus : SubscriptionStatus) :
    Except InvalidSubscriptionTransition Unit :=
  if canTransitionSubscription fromStatus toStatus then .ok () else .error ⟨fromStatus, toStatus⟩

/-- `TERMINAL_SUBSCRIPTION_STATUSES` (`subscriptions.service.ts:17`). -/
def terminalSubscriptionStatuses : List SubscriptionStatus := [cancelled, expired]

def SubscriptionStatus.Terminal (s : SubscriptionStatus) : Prop := s ∈ terminalSubscriptionStatuses

instance (s : SubscriptionStatus) : Decidable s.Terminal :=
  inferInstanceAs (Decidable (s ∈ terminalSubscriptionStatuses))

/-- The statuses of a subscription that has left its trial by a payment. -/
def SubscriptionStatus.Paid (s : SubscriptionStatus) : Prop := s ∈ [active, pastDue, suspended]

instance (s : SubscriptionStatus) : Decidable s.Paid :=
  inferInstanceAs (Decidable (s ∈ [active, pastDue, suspended]))

/-- The guard of `changePlan` and the table agree on what is terminal. -/
theorem terminal_iff (s : SubscriptionStatus) : s.Terminal ↔ allowedTransitions s = [] := by
  cases s <;> decide

theorem assertSubscriptionTransition_ok_iff {a b : SubscriptionStatus} :
    assertSubscriptionTransition a b = .ok () ↔ canTransitionSubscription a b = true := by
  unfold assertSubscriptionTransition
  split <;> simp_all

theorem not_terminal_of_canTransition {a b : SubscriptionStatus}
    (h : canTransitionSubscription a b = true) : ¬ a.Terminal := by
  intro ht
  rw [terminal_iff] at ht
  simp [canTransitionSubscription, ht] at h

theorem SubscriptionStatus.Paid.of_canTransition {a b : SubscriptionStatus} (ha : a.Paid)
    (h : canTransitionSubscription a b = true) (hb : b ≠ cancelled) : b.Paid := by
  revert ha h hb
  cases a <;> cases b <;> decide

end Gescom.Billing
