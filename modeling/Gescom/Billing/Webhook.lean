import Gescom.Billing.Db

/-!
# `PaymentWebhookService.handle` (`payments-webhook.service.ts`)

One delivery as a state machine: a state is the statement the call executes next, with the values
the call holds in its local variables; one step executes that statement and the code after it up to
the next one. The transaction (`:209-293`) keeps its writes in the state until it commits, and takes
row locks on the way.
-/

namespace Gescom.Billing

open ReadCommitted

/-- `env.*` and the hash of a request body (`node:crypto`). -/
structure Config where
  paymentGracePeriodDays : Nat
  sha256 : String → String

structure PaymentWebhookEvent where
  providerReference : String
  status : EventStatus
  amount : Int
  currency : String
  deriving DecidableEq, Repr

/-- One HTTP delivery, with what the provider's adapter answers on it: whether `verifySignature`
accepts the headers, and the event `parseEvent` returns (`none` when it throws). -/
structure Delivery where
  provider : PaymentProvider
  rawBody : String
  verified : Bool
  event : Option PaymentWebhookEvent
  deriving DecidableEq, Repr

/-- `WebhookResult.outcome`. -/
inductive Outcome where
  | processed | ignoredAlreadyProcessed | statusConflict
  deriving DecidableEq, Repr

structure WebhookResult where
  outcome : Outcome
  paymentId : Uuid
  deriving DecidableEq, Repr

/-- The parameters of `auditRejection`. -/
structure Rejection where
  httpStatus : Nat
  reason : String
  providerReference : Option String := none
  enterpriseId : Option Uuid := none
  paymentId : Option Uuid := none
  deriving DecidableEq, Repr

/-- A delivery whose signature was accepted and whose body parsed. -/
structure AuthenticEvent where
  delivery : Delivery
  event : PaymentWebhookEvent
  verified : delivery.verified = true
  parsed : delivery.event = some event
  deriving DecidableEq

/-- An authentic event on a payment that was found: `event` and `payment` as `handle` holds them. -/
structure Handling extends AuthenticEvent where
  payment : Payment
  deriving DecidableEq

/-- An open transaction: the subscription it is about and the writes it has made so far. -/
structure Tx extends Handling where
  subscriptionId : Uuid
  writes : List Write
  deriving DecidableEq

def Tx.push (t : Tx) (w : Write) : Tx := { t with writes := t.writes ++ [w] }

inductive HandleState where
  | received (d : Delivery)
  | rejecting (d : Delivery) (r : Rejection) (e : ApiError)
  | findingPayment (a : AuthenticEvent)
  | expiring (h : Handling)
  | rereading (h : Handling)
  | flagging (h : Handling)
  | reporting (h : Handling)
  | settling (h : Handling) (subscriptionId : Uuid)
  | readingPayment (t : Tx)
  | readingSubscription (t : Tx) (updated : Payment)
  | readingEnterprise (t : Tx) (updated : Payment) (sub : Subscription)
  | transitioning (t : Tx) (updated : Payment) (sub : Subscription) (ent : Enterprise)
      (target : SubscriptionStatus)
  | recordingEvent (t : Tx) (updated : Payment) (sub : Subscription) (ent : Enterprise)
      (target : SubscriptionStatus) (after : Subscription)
  | renewing (t : Tx) (updated : Payment) (sub : Subscription) (ent : Enterprise)
  | numbering (t : Tx) (updated : Payment) (ent : Enterprise) (after : Subscription)
  | invoicing (t : Tx) (updated : Payment) (ent : Enterprise) (after : Subscription)
    (sequence : Nat)
  | committing (t : Tx) (after : Subscription)
  | auditing (h : Handling) (after : Subscription)
  | findingRecipient (h : Handling) (after : Subscription)
  | notifying (h : Handling) (after : Subscription) (recipient : User)
  | answered (d : Delivery) (r : Except ApiError WebhookResult)

/-! ## Local computations -/

def rejectionLog (cfg : Config) (d : Delivery) (r : Rejection) : AuditLog where
  enterpriseId := r.enterpriseId
  action := .paymentWebhookRejected
  resource := "PaymentWebhook"
  resourceId := r.paymentId
  metadata := .rejection r.httpStatus r.reason d.provider r.providerReference (cfg.sha256 d.rawBody)

/-- The anomaly entry of a conflicting event (`:156`). -/
def conflictLog (h : Handling) : AuditLog where
  enterpriseId := some h.payment.enterpriseId
  action := .payment
  resource := "Payment"
  resourceId := some h.payment.id
  metadata := .anomaly "high" "status_conflict_after_terminal_state" h.delivery.provider
    h.event.providerReference h.payment.status h.event.status

/-- `metadata: { conflictingEvent }` on the payment (`:143`). -/
def Db.flag (h : Handling) (db : Db) : Db :=
  let mark := fun p : Payment =>
    { p with metadata := some ⟨h.event.status, h.payment.status, db.now⟩ }
  { db with payments := db.payments.update h.payment.id mark fun _ => rfl }

/-- The entry of a processed event (`:323`). -/
def settlementLog (h : Handling) : AuditLog where
  enterpriseId := some h.payment.enterpriseId
  action := .payment
  resource := "Payment"
  resourceId := some h.payment.id
  metadata := .settlement h.delivery.provider h.event.providerReference h.event.status

/-- The rejection of an authentic event on a known payment. -/
def Handling.reject (h : Handling) (httpStatus : Nat) (reason : String) (e : ApiError) :
    HandleState :=
  .rejecting h.delivery
    { httpStatus, reason, providerReference := some h.event.providerReference,
      enterpriseId := some h.payment.enterpriseId, paymentId := some h.payment.id } e

/-- `payment.expiresAt && payment.expiresAt.getTime() < Date.now()`. -/
def Payment.expiredAt (p : Payment) (now : Instant) : Bool :=
  match p.expiresAt with
  | some e => decide (e < now)
  | none => false

/-- From the non-`PENDING` test to the transaction (`:124-208`). -/
def Handling.dispatch (h : Handling) : HandleState :=
  if h.payment.status ≠ .pending then
    if h.event.status.toPayment = h.payment.status then
      .answered h.delivery (.ok ⟨.ignoredAlreadyProcessed, h.payment.id⟩)
    else .flagging h
  else if h.payment.amount ≠ h.event.amount ∨ h.payment.currency ≠ h.event.currency then
    h.reject 400 "amount_or_currency_mismatch"
      (.badRequest "Le montant du webhook ne correspond pas au paiement en attente")
  else match h.payment.subscriptionId with
    | none =>
      h.reject 409 "payment_without_subscription" (.conflict "Paiement sans abonnement associé")
    | some subscriptionId => .settling h subscriptionId

/-- `targetStatus` (`:239`). -/
def targetStatus (event : EventStatus) (status : SubscriptionStatus) : Option SubscriptionStatus :=
  match event with
  | .succeeded => some .active
  | .failed => if status = .trial then none else some .pastDue

/-- `Date.now() + env.paymentGracePeriodDays() * 24 * 3_600_000`. -/
def graceDate (cfg : Config) (now : Instant) : Instant :=
  now + cfg.paymentGracePeriodDays * 24 * 3600000

/-- `renewalDate` of the transition's update (`:254`). -/
def renewalOf (cfg : Config) (now : Instant) (target : SubscriptionStatus) (sub : Subscription) :
    Option Instant :=
  if target = .pastDue then some (graceDate cfg now) else sub.renewalDate

def transitionReason : EventStatus → String
  | .succeeded => "payment_succeeded"
  | .failed => "payment_failed"

/-- After the subscription part of the transaction: invoice a success, else commit (`:282`). -/
def afterSubscription (t : Tx) (updated : Payment) (ent : Enterprise) (after : Subscription) :
    HandleState :=
  match t.event.status with
  | .succeeded => .numbering t updated ent after
  | .failed => .committing t after

/-! ## `InvoiceGenerationService.generateForPayment` -/

/-- `VAT_RATE_BASIS_POINTS`. -/
def vatRateBasisPoints : Int := 1800

def invoiceNumber (enterpriseId : Uuid) (sequence : Nat) : String :=
  "INV-" ++ slice8Upper enterpriseId ++ "-" ++ padStart sequence 6

def orEmpty (label : String) : Option String → String
  | some v => if v = "" then "" else label ++ v
  | none => ""

/-- `buildLegalMentions`. -/
def buildLegalMentions (e : Enterprise) : String :=
  String.intercalate "\n"
    ["Émis par : [Raison sociale de la plateforme à renseigner]",
     "NINEA : [NINEA à renseigner] — RCCM : [RCCM à renseigner]",
     "Adresse : [Adresse à renseigner], Sénégal",
     "Client : " ++ e.legalName.getD e.name ++ orEmpty " — NINEA : " e.ninea ++
       orEmpty " — RCCM : " e.rccm,
     "TVA 18% incluse, conformément à la réglementation en vigueur (UEMOA).",
     "Montants exprimés en FCFA (XOF)."]

/-- `amountExcludingTax` (`invoice-generation.service.ts:46`). -/
def amountExcludingTax (amount : Int) : Int :=
  roundDiv (amount * 10000) (10000 + vatRateBasisPoints)

/-- The row `generateForPayment` inserts. -/
def invoiceFor (id : Uuid) (now : Instant) (ent : Enterprise) (subscriptionId : Uuid)
    (updated : Payment) (sequence : Nat) : Invoice where
  id := id
  enterpriseId := ent.id
  subscriptionId := some subscriptionId
  number := invoiceNumber ent.id sequence
  amount := updated.amount
  amountExcludingTax := amountExcludingTax updated.amount
  vatAmount := updated.amount - amountExcludingTax updated.amount
  vatRateBasisPoints := vatRateBasisPoints
  legalMentions := buildLegalMentions ent
  status := .paid
  issuedAt := some now
  paidAt := some now
  paymentId := some updated.id

/-- The unique indexes of `invoices` accept the row. -/
def Db.acceptsInvoice (db : Db) (i : Invoice) : Bool :=
  db.invoices.all fun j => j.id != i.id && j.number != i.number && j.paymentId != i.paymentId

/-- The index entries an insert of `i` holds until the transaction ends. -/
def invoiceLocks (i : Invoice) : List Lock :=
  [.invoiceId i.id, .invoiceNumber i.number] ++ (i.paymentId.map Lock.invoicePayment).toList

/-! ## Notifications (`notifyEnterprise`) -/

/-- `date?.toLocaleDateString("fr-SN") ?? fallback`; `toString` stands for the rendering. -/
def dateOr (date : Option Instant) (fallback : String) : String :=
  match date with
  | some d => toString d
  | none => fallback

def notificationFor (now : Instant) (h : Handling) (after : Subscription) (u : User) :
    Notification :=
  match h.event.status with
  | .succeeded =>
    { userId := u.id, enterpriseId := h.payment.enterpriseId, type := .paymentConfirmed
      sentAt := now
      title := "Paiement confirmé"
      body := "Votre paiement a été confirmé, votre abonnement est actif." }
  | .failed =>
    { userId := u.id, enterpriseId := h.payment.enterpriseId, type := .paymentFailed
      sentAt := now
      title := "Échec de paiement"
      body :=
        if after.status = .trial then
          "Votre paiement a échoué. Votre période d'essai continue jusqu'au " ++
            dateOr after.trialEndDate "sa date prévue" ++ " — vous pouvez réessayer à tout moment."
        else
          "Votre paiement a échoué. Votre abonnement passe en statut \"en attente de paiement\" jusqu'au " ++
            dateOr after.renewalDate "prochain renouvellement" ++ "." }

/-! ## The statements -/

/-- A thrown error inside the transaction: nothing is written, the locks go. -/
def rollbackTo (s : BillingStore) (pid : Nat) (st : HandleState) :
    Option (BillingStore × HandleState) :=
  some (s.release pid, st)

/-- An unknown row where the code uses `findUniqueOrThrow` or `update`. -/
def HandleState.notFound (d : Delivery) : HandleState := .answered d (.error (.prisma .p2025))

/-- The decision after the enterprise is read (`:239-280`). -/
def Tx.decide (t : Tx) (updated : Payment) (sub : Subscription) (ent : Enterprise) :
    Except ApiError HandleState :=
  match targetStatus t.event.status sub.status with
  | none => .ok (afterSubscription t updated ent sub)
  | some target =>
    if sub.status ≠ target then
      match assertSubscriptionTransition sub.status target with
      | .ok () => .ok (.transitioning t updated sub ent target)
      | .error e => .error (.conflict e.message)
    else if target = .pastDue then .ok (.renewing t updated sub ent)
    else .ok (afterSubscription t updated ent sub)

/-- One statement of `handle`. `fresh` is the identifier the database gives an inserted invoice.
`none`: the statement waits for a lock, or the call has answered. -/
def HandleState.step (cfg : Config) (pid : Nat) (fresh : Uuid) (s : BillingStore) :
    HandleState → Option (BillingStore × HandleState)
  | received d =>
    if hv : d.verified = true then
      match hp : d.event with
      | none => some (s, .rejecting d { httpStatus := 400, reason := "malformed_body" }
          (.badRequest "Événement de webhook invalide"))
      | some ev => some (s, .findingPayment ⟨d, ev, hv, hp⟩)
    else
      some (s, .rejecting d { httpStatus := 401, reason := "invalid_signature_or_timestamp" }
        (.unauthorized "Signature de webhook invalide"))
  | rejecting d r e =>
    some (s.autocommit (Db.record (rejectionLog cfg d r)), .answered d (.error e))
  | findingPayment a =>
    match s.db.findPayment a.delivery.provider a.event.providerReference with
    | none =>
      some (s, .rejecting a.delivery
        { httpStatus := 404, reason := "unknown_payment_reference",
          providerReference := some a.event.providerReference }
        (.notFound "Aucun paiement en attente pour cette référence"))
    | some payment =>
      let h : Handling := ⟨a, payment⟩
      if payment.status = .pending ∧ payment.expiredAt s.db.now then some (s, .expiring h)
      else some (s, h.dispatch)
  | expiring h =>
    match s.db.payments.find? h.payment.id with
    | some row =>
      if row.status = .pending then
        -- the update waits for the row lock and then re-evaluates `status = 'PENDING'`
        if s.free pid (.payment h.payment.id) then
          some (s.autocommit fun db => db.with [.settle h.payment.id .expired row.paidAt],
            h.reject 409 "payment_expired" (.conflict "Ce paiement a expiré"))
        else none
      else some (s, .rereading h)
    | none => some (s, .rereading h)
  | rereading h =>
    match s.db.payments.find? h.payment.id with
    | none => some (s, .notFound h.delivery)
    | some payment => some (s, { h with payment }.dispatch)
  | flagging h =>
    if s.free pid (.payment h.payment.id) then
      some (s.autocommit (Db.flag h), .reporting h)
    else none
  | reporting h =>
    some (s.autocommit (Db.record (conflictLog h)),
      .answered h.delivery (.ok ⟨.statusConflict, h.payment.id⟩))
  | settling h subscriptionId =>
    match s.db.payments.find? h.payment.id with
    | some row =>
      if row.status = .pending then
        if s.free pid (.payment h.payment.id) then
          some (s.acquire pid (.payment h.payment.id),
            .readingPayment ⟨h, subscriptionId, [.settle h.payment.id h.event.status.toPayment
              (if h.event.status = .succeeded then some s.db.now else none)]⟩)
        else none
      else some (s, .answered h.delivery (.ok ⟨.ignoredAlreadyProcessed, h.payment.id⟩))
    | none => some (s, .answered h.delivery (.ok ⟨.ignoredAlreadyProcessed, h.payment.id⟩))
  | readingPayment t =>
    match (s.db.with t.writes).payments.find? t.payment.id with
    | some updated => some (s, .readingSubscription t updated)
    | none => rollbackTo s pid (.notFound t.delivery)
  | readingSubscription t updated =>
    match (s.db.with t.writes).subscriptions.find? t.subscriptionId with
    | some sub => some (s, .readingEnterprise t updated sub)
    | none => rollbackTo s pid (.notFound t.delivery)
  | readingEnterprise t updated sub =>
    match s.db.enterprises.find? t.payment.enterpriseId with
    | none => rollbackTo s pid (.notFound t.delivery)
    | some ent =>
      match t.decide updated sub ent with
      | .ok next => some (s, next)
      | .error e => rollbackTo s pid (t.reject 409 "invalid_subscription_transition" e)
  | transitioning t updated sub ent target =>
    -- `update({ where: { id } })`: waits for the row lock, re-checks nothing but the id
    if s.free pid (.subscription sub.id) then
      match s.db.subscriptions.find? sub.id with
      | none => rollbackTo s pid (.notFound t.delivery)
      | some row =>
        let w := Write.transition sub.id target (renewalOf cfg s.db.now target sub)
        some (s.acquire pid (.subscription sub.id),
          .recordingEvent (t.push w) updated sub ent target (w.onSubscription row))
    else none
  | recordingEvent t updated sub ent target after =>
    some (s, afterSubscription
      (t.push (.event
        { subscriptionId := sub.id, fromStatus := sub.status, toStatus := target
          fromPlanId := some sub.planId, toPlanId := some sub.planId
          reason := some (transitionReason t.event.status) }))
      updated ent after)
  | renewing t updated sub ent =>
    if s.free pid (.subscription sub.id) then
      match s.db.subscriptions.find? sub.id with
      | none => rollbackTo s pid (.notFound t.delivery)
      | some row =>
        let w := Write.renew sub.id (graceDate cfg s.db.now)
        some (s.acquire pid (.subscription sub.id),
          afterSubscription (t.push w) updated ent (w.onSubscription row))
    else none
  | numbering t updated ent after =>
    if s.free pid (.invoiceCounter ent.id) then
      let sequence := s.db.nextInvoiceNumber ent.id
      some (s.acquire pid (.invoiceCounter ent.id),
        .invoicing (t.push (.counter ⟨ent.id, sequence⟩)) updated ent after sequence)
    else none
  | invoicing t updated ent after sequence =>
    let i := invoiceFor fresh s.db.now ent t.subscriptionId updated sequence
    if (invoiceLocks i).all (s.free pid ·) then
      if s.db.acceptsInvoice i then
        some (s.acquireAll pid (invoiceLocks i).contains,
          .committing ((t.push (.invoice i)).push (.attachInvoice updated.id i.id)) after)
      else rollbackTo s pid (.answered t.delivery (.error (.prisma .p2002)))
    else none
  | committing t after =>
    some (s.commit pid fun db => db.with t.writes, .auditing t.toHandling after)
  | auditing h after =>
    -- `entitlements.invalidate` runs in the same turn as the audit insert
    some (s.autocommit fun db => Db.record (settlementLog h)
      { db with invalidated := db.invalidated ++ [h.payment.enterpriseId] },
        .findingRecipient h after)
  | findingRecipient h after =>
    match s.db.findRecipient h.payment.enterpriseId with
    | none => some (s, .answered h.delivery (.ok ⟨.processed, h.payment.id⟩))
    | some u => some (s, .notifying h after u)
  | notifying h after u =>
    some (s.autocommit fun db =>
        { db with notifications := db.notifications ++ [notificationFor db.now h after u] },
      .answered h.delivery (.ok ⟨.processed, h.payment.id⟩))
  | answered _ _ => none

end Gescom.Billing
