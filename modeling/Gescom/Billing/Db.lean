import Gescom.Common
import Gescom.Lib.ReadCommitted
import Gescom.Lib.Table
import Gescom.Billing.StateMachine

/-!
# Billing data (`schema.prisma`)

The tables the billing services read and write, and the writes a transaction holds back until it
commits. `invoices`, `subscriptionEvents`, `auditLogs` and `notifications` are append-only; no
service updates or deletes a row of them.
-/

namespace Gescom.Billing

inductive PaymentProvider where
  | wave | orangeMoney | freeMoney | stripe | card
  deriving DecidableEq, Repr

inductive PaymentStatus where
  | pending | succeeded | failed | refunded | expired
  deriving DecidableEq, Repr

/-- `PaymentWebhookEvent.status`, as the adapter normalises it. -/
inductive EventStatus where
  | succeeded | failed
  deriving DecidableEq, Repr

def EventStatus.toPayment : EventStatus → PaymentStatus
  | succeeded => .succeeded
  | failed => .failed

/-- `metadata.conflictingEvent` of a payment. -/
structure ConflictingEvent where
  status : EventStatus
  detectedAgainstStatus : PaymentStatus
  receivedAt : Instant
  deriving DecidableEq, Repr

structure Payment where
  id : Uuid
  enterpriseId : Uuid
  subscriptionId : Option Uuid
  invoiceId : Option Uuid := none
  provider : PaymentProvider
  providerReference : Option String
  amount : Int
  currency : String
  status : PaymentStatus
  paidAt : Option Instant := none
  metadata : Option ConflictingEvent := none
  expiresAt : Option Instant
  deriving DecidableEq, Repr

structure Subscription where
  id : Uuid
  enterpriseId : Uuid
  planId : Uuid
  status : SubscriptionStatus
  trialEndDate : Option Instant
  renewalDate : Option Instant
  deriving DecidableEq, Repr

structure Enterprise where
  id : Uuid
  name : String
  legalName : Option String := none
  ninea : Option String := none
  rccm : Option String := none
  currentSubscriptionId : Option Uuid
  deriving DecidableEq, Repr

structure User where
  id : Uuid
  enterpriseId : Option Uuid
  email : String
  active : Bool
  createdAt : Instant
  deriving DecidableEq, Repr

inductive InvoiceStatus where
  | draft | issued | paid | void
  deriving DecidableEq, Repr

structure Invoice where
  id : Uuid
  enterpriseId : Uuid
  subscriptionId : Option Uuid
  number : String
  amount : Int
  amountExcludingTax : Int
  vatAmount : Int
  vatRateBasisPoints : Int
  legalMentions : String
  status : InvoiceStatus
  issuedAt : Option Instant
  paidAt : Option Instant
  paymentId : Option Uuid
  deriving DecidableEq, Repr

structure InvoiceCounter where
  enterpriseId : Uuid
  lastNumber : Nat
  deriving DecidableEq, Repr

structure SubscriptionEvent where
  subscriptionId : Uuid
  fromStatus : SubscriptionStatus
  toStatus : SubscriptionStatus
  fromPlanId : Option Uuid := none
  toPlanId : Option Uuid := none
  reason : Option String
  triggeredByUserId : Option Uuid := none
  deriving DecidableEq, Repr

inductive AuditAction where
  | paymentWebhookRejected | payment | expirePayment | expireTrial | suspendSubscription
  | changePlan
  deriving DecidableEq, Repr

/-- The `metadata` objects the billing services write into an audit entry. -/
inductive AuditMetadata where
  | rejection (httpStatus : Nat) (reason : String) (provider : PaymentProvider)
      (providerReference : Option String) (bodyHash : String)
  | anomaly (severity reason : String) (provider : PaymentProvider) (providerReference : String)
      (previousStatus : PaymentStatus) (incomingStatus : EventStatus)
  | settlement (provider : PaymentProvider) (providerReference : String) (status : EventStatus)
  | expiry (reason : String) (provider : PaymentProvider) (providerReference : Option String)
      (expiresAt : Option Instant)
  | transition (fromStatus toStatus : SubscriptionStatus) (reason : String)
  | planChange (fromPlanId toPlanId : Uuid) (reason : Option String)
  deriving DecidableEq, Repr

structure AuditLog where
  userId : Option Uuid := none
  enterpriseId : Option Uuid
  action : AuditAction
  resource : String
  resourceId : Option Uuid
  metadata : AuditMetadata
  deriving DecidableEq, Repr

inductive NotificationType where
  | paymentConfirmed | paymentFailed
  deriving DecidableEq, Repr

structure Notification where
  userId : Uuid
  enterpriseId : Uuid
  type : NotificationType
  title : String
  body : String
  sentAt : Instant
  deriving DecidableEq, Repr

instance : Keyed Payment Uuid := ⟨Payment.id⟩
instance : Keyed Subscription Uuid := ⟨Subscription.id⟩
instance : Keyed Enterprise Uuid := ⟨Enterprise.id⟩
instance : Keyed InvoiceCounter Uuid := ⟨InvoiceCounter.enterpriseId⟩

/-- The database with the clock, and the tenants whose entitlements were invalidated. -/
structure Db where
  payments : Table Payment
  subscriptions : Table Subscription
  enterprises : Table Enterprise
  planIds : List Uuid
  users : List User := []
  invoices : List Invoice := []
  invoiceCounters : Table InvoiceCounter := Table.empty
  subscriptionEvents : List SubscriptionEvent := []
  auditLogs : List AuditLog := []
  notifications : List Notification := []
  invalidated : List Uuid := []
  now : Instant

def Db.record (l : AuditLog) (db : Db) : Db := { db with auditLogs := db.auditLogs ++ [l] }

/-- `payment.findUnique({ where: { provider_providerReference } })`. -/
def Db.findPayment (db : Db) (provider : PaymentProvider) (reference : String) : Option Payment :=
  db.payments.rows.find? fun p => p.provider == provider && p.providerReference == some reference

/-- `user.findFirst({ where: { enterpriseId, status: "ACTIVE" }, orderBy: { createdAt: "asc" }
})`. -/
def Db.findRecipient (db : Db) (enterpriseId : Uuid) : Option User :=
  ((db.users.filter fun u => u.enterpriseId == some enterpriseId && u.active).mergeSort
    fun a b => a.createdAt ≤ b.createdAt).head?

/-- `last_number` after the counter upsert of `generateForPayment`. -/
def Db.nextInvoiceNumber (db : Db) (enterpriseId : Uuid) : Nat :=
  match db.invoiceCounters.find? enterpriseId with
  | some c => c.lastNumber + 1
  | none => 1

/-- What a transaction locks: a row, or the entry of a unique index it inserts. -/
inductive Lock where
  | payment (id : Uuid)
  | subscription (id : Uuid)
  | invoiceCounter (enterpriseId : Uuid)
  | invoiceId (id : Uuid)
  | invoiceNumber (number : String)
  | invoicePayment (paymentId : Uuid)
  deriving DecidableEq, Repr

abbrev BillingStore := ReadCommitted.Store Db Lock

/-! ## Pending writes -/

inductive Write where
  | settle (paymentId : Uuid) (status : PaymentStatus) (paidAt : Option Instant)
  | attachInvoice (paymentId invoiceId : Uuid)
  | transition (subscriptionId : Uuid) (status : SubscriptionStatus) (renewalDate : Option Instant)
  | renew (subscriptionId : Uuid) (renewalDate : Instant)
  | changePlan (subscriptionId planId : Uuid)
  | event (e : SubscriptionEvent)
  | counter (c : InvoiceCounter)
  | invoice (i : Invoice)
  deriving DecidableEq, Repr

/-- What a write does to one payment row. -/
def Write.onPayment : Write → Payment → Payment
  | settle id status paidAt, p => if p.id == id then { p with status, paidAt } else p
  | attachInvoice id invoiceId, p => if p.id == id
    then { p with invoiceId := some invoiceId } else p
  | _, p => p

/-- What a write does to one subscription row. -/
def Write.onSubscription : Write → Subscription → Subscription
  | transition id status renewalDate, s => if s.id == id then { s with status, renewalDate } else s
  | renew id renewalDate, s => if s.id == id then { s with renewalDate := some renewalDate } else s
  | changePlan id planId, s => if s.id == id then { s with planId } else s
  | _, s => s

theorem Write.onPayment_id (w : Write) (p : Payment) : (w.onPayment p).id = p.id := by
  cases w <;> simp only [onPayment] <;> split <;> rfl

theorem Write.onSubscription_id (w : Write) (s : Subscription) :
    (w.onSubscription s).id = s.id := by
  cases w <;> simp only [onSubscription] <;> split <;> rfl

def Write.invoice? : Write → Option Invoice
  | invoice i => some i
  | _ => none

def Write.event? : Write → Option SubscriptionEvent
  | event e => some e
  | _ => none

def Write.counters (w : Write) (t : Table InvoiceCounter) : Table InvoiceCounter :=
  match w with
  | counter c => (t.insert c).update c.enterpriseId (fun r => { r with lastNumber := c.lastNumber })
      fun _ => rfl
  | _ => t

def Write.apply (db : Db) (w : Write) : Db :=
  { db with
    payments := db.payments.updateWhere (fun _ => true) w.onPayment w.onPayment_id
    subscriptions := db.subscriptions.updateWhere (fun _ => true) w.onSubscription
      w.onSubscription_id
    invoices := db.invoices ++ w.invoice?.toList
    subscriptionEvents := db.subscriptionEvents ++ w.event?.toList
    invoiceCounters := w.counters db.invoiceCounters }

/-- The committed data with a transaction's writes on top, oldest write first. -/
def Db.with (db : Db) (ws : List Write) : Db := ws.foldl Write.apply db

/-- One payment row under a list of writes. -/
def onPayment (ws : List Write) (p : Payment) : Payment := ws.foldl (fun p w => w.onPayment p) p

def onSubscription (ws : List Write) (s : Subscription) : Subscription :=
  ws.foldl (fun s w => w.onSubscription s) s

def invoicesOf (ws : List Write) : List Invoice := ws.filterMap Write.invoice?

theorem onPayment_id (ws : List Write) (p : Payment) : (onPayment ws p).id = p.id := by
  induction ws generalizing p with
  | nil => rfl
  | cons w ws ih => exact (ih _).trans (w.onPayment_id p)

theorem onSubscription_id (ws : List Write) (s : Subscription) :
    (onSubscription ws s).id = s.id := by
  induction ws generalizing s with
  | nil => rfl
  | cons w ws ih => exact (ih _).trans (w.onSubscription_id s)

@[simp] theorem with_cons (db : Db) (w : Write) (ws : List Write) :
    db.with (w :: ws) = (w.apply db).with ws := rfl

theorem payments_rows_with (db : Db) (ws : List Write) :
    (db.with ws).payments.rows = db.payments.rows.map (onPayment ws) := by
  induction ws generalizing db with
  | nil => exact (List.map_id' _).symm
  | cons w ws ih =>
    rw [with_cons, ih, Write.apply, Table.rows_updateWhere, List.map_map]
    simp [onPayment, Function.comp_def]

theorem subscriptions_rows_with (db : Db) (ws : List Write) :
    (db.with ws).subscriptions.rows = db.subscriptions.rows.map (onSubscription ws) := by
  induction ws generalizing db with
  | nil => exact (List.map_id' _).symm
  | cons w ws ih =>
    rw [with_cons, ih, Write.apply, Table.rows_updateWhere, List.map_map]
    simp [onSubscription, Function.comp_def]

@[simp] theorem auditLogs_with (db : Db) (ws : List Write) :
    (db.with ws).auditLogs = db.auditLogs := by
  induction ws generalizing db with
  | nil => rfl
  | cons w ws ih => rw [with_cons, ih]; rfl

theorem logs_with (db : Db) (ws : List Write) : db.auditLogs <+: (db.with ws).auditLogs :=
  (auditLogs_with db ws).symm ▸ List.prefix_rfl

theorem find?_payments_with (db : Db) (ws : List Write) (id : Uuid) :
    (db.with ws).payments.find? id = (db.payments.find? id).map (onPayment ws) := by
  exact Table.find?_of_rows_map (onPayment_id ws) (payments_rows_with db ws) id

theorem find?_subscriptions_with (db : Db) (ws : List Write) (id : Uuid) :
    (db.with ws).subscriptions.find? id = (db.subscriptions.find? id).map (onSubscription ws) := by
  exact Table.find?_of_rows_map (onSubscription_id ws) (subscriptions_rows_with db ws) id

theorem invoicesOf_append (ws : List Write) (w : Write) :
    invoicesOf (ws ++ [w]) = invoicesOf ws ++ w.invoice?.toList := by
  cases w <;> simp [invoicesOf, List.filterMap_append, Write.invoice?]

theorem invoices_with (db : Db) (ws : List Write) :
    (db.with ws).invoices = db.invoices ++ invoicesOf ws := by
  induction ws generalizing db with
  | nil => simp [Db.with, invoicesOf]
  | cons w ws ih =>
    rw [with_cons, ih]
    cases hw : w.invoice? <;> simp [Write.apply, hw, invoicesOf]

end Gescom.Billing
