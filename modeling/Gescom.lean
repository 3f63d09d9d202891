import Gescom.Lib.Guarantee
import Gescom.Lib.Binary64
import Gescom.Lib.Transition
import Gescom.Lib.ReadCommitted
import Gescom.Lib.Table
import Gescom.Common
import Gescom.Billing.StateMachine
import Gescom.Billing.Db
import Gescom.Billing.Webhook
import Gescom.Billing.Calls
import Gescom.Billing.Effects
import Gescom.Billing.Conflict
import Gescom.Billing.Transitions
import Gescom.Auth.Browser
import Gescom.Auth.Revocation
import Gescom.Auth.Rotation
import Gescom.Lib.Ledger
import Gescom.Stock.Db
import Gescom.Stock.Documents
import Gescom.Stock.Levels
import Gescom.Stock.Lifecycle
import Gescom.Auth.Accounts
import Gescom.Auth.Suspension
import Gescom.Mobile.Queue
import Gescom.Mobile.Sessions
import Gescom.Erp.Db
import Gescom.Erp.Create
import Gescom.Erp.DocumentRepositories
import Gescom.Billing.Grace
import Gescom.Billing.Numbering
import Gescom.Erp.Accounts
import Gescom.Erp.Books
import Gescom.Erp.Catalog
import Gescom.Erp.Confined
import Gescom.Erp.ConfinedCreate
import Gescom.Erp.Idempotency
import Gescom.Erp.NonInterference
import Gescom.Erp.TrialBalance
import Gescom.Mobile.ColdStart
import Gescom.Mobile.ExactlyOnce
import Gescom.Numbers
import Gescom.Auth.Links
import Gescom.Auth.Lockout
import Gescom.Auth.OneTimeLinks
import Gescom.Entitlement.Cache
import Gescom.Entitlement.Freshness
import Gescom.Entitlement.LimitGuard
import Gescom.Entitlement.Lru
import Gescom.Entitlement.Quota
import Gescom.Erp.Amounts
import Gescom.Erp.Recovery
import Gescom.Mobile.Process
import Gescom.Mobile.Replay
import Gescom.Mobile.Wakeup
import Gescom.Mobile.Purges
import Gescom.Vat
import Gescom.SerializableRetry
import Gescom.Erp.EntryGuard
import Gescom.Billing.Signature
import Gescom.Billing.Failures
import Gescom.Erp.ReportPeriods
import Gescom.Erp.IncomeStatement
import Gescom.Erp.Pages
import Gescom.Mobile.Paths
import Gescom.Tenant.Isolation
import Gescom.Auth.Tokens
import Gescom.Access.Withdrawal
import Gescom.Provisioning.Atomicity
import Gescom.Provisioning.Matrix
import Gescom.Erp.Permanence
import Gescom.Erp.Solvency
