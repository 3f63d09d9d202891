import Gescom.Erp.Accounts
import Gescom.Erp.Transactions

/-!
# Accounts and journal entries (`accounts.repository.ts`, `journal.repository.ts`)

The methods beside `createAccount`, and beside the `create` of `journalRepository`. An account is
never deleted, an entry never changed.
-/

namespace Gescom.Erp

open Confinement

/-- `@@unique([enterpriseId, code])`. -/
def accounts : TenantTable Account where
  get := Db.accounts
  put db t := { db with accounts := t }
  owner := Account.enterpriseId
  same a b := a.enterpriseId == b.enterpriseId && a.code == b.code

structure UpdateAccountInput where
  label : String
  deriving DecidableEq, Repr

structure ListAccountsQuery extends PageQuery where
  search : Option String := none

def UpdateAccountInput.apply (input : UpdateAccountInput) (now : Instant) (a : Account) : Account :=
  { a with label := input.label, updatedAt := now }

namespace AccountsRepository

def findMany (T : Texts) (enterpriseId : Uuid) (query : ListAccountsQuery) :
    Transaction (Paged AccountView) :=
  ask fun db =>
    let page := query.of id <| accounts.findMany enterpriseId
      (fun a => T.search query.search [some a.code, some a.label])
      (fun a b => T.collate a.code b.code) db
    let balances := aggregateBalances db enterpriseId (page.items.map Account.id)
    .ok { page with items := page.items.map (toAccountView balances) }

def findByIdOrThrow (enterpriseId id : Uuid) : Transaction AccountView :=
  ask fun db => (accounts.findOwned "Compte introuvable" enterpriseId id db).map <|
    toAccountView (aggregateBalances db enterpriseId [id])

def create (enterpriseId : Uuid) (input : CreateAccountInput) (draw : Draw) :
    Transaction AccountView :=
  createAccount enterpriseId input draw.id

def update (enterpriseId id : Uuid) (input : UpdateAccountInput) : Transaction AccountView := do
  let _ ← accounts.findByIdOrThrow "Compte introuvable" enterpriseId id
  let account ← accounts.update id input.apply fun _ _ => rfl
  ask fun db => .ok (toAccountView (aggregateBalances db enterpriseId [id]) account)

def trialBalance (T : Texts) (enterpriseId : Uuid) : Transaction TrialBalanceView :=
  ask fun db =>
    let accounts := listAccounts T.collate db enterpriseId
    .ok (trialBalanceView accounts (aggregateBalances db enterpriseId (accounts.map Account.id)))

end AccountsRepository

def newAccount (e : Uuid) (input : CreateAccountInput) (draw : Draw) (now : Instant) : Account where
  id := draw.id
  enterpriseId := e
  code := input.code
  label := input.label
  createdAt := now
  updatedAt := now

/-- `createAccount` is the insert of the row, with the `catch` around it. -/
theorem createAccount_eq (e : Uuid) (input : CreateAccountInput) (draw : Draw) :
    AccountsRepository.create e input draw = (do
      let account ← withUniqueCodeConflictMapped "Ce code de compte est déjà utilisé"
        (accounts.create (newAccount e input draw))
      pure (toAccountView [] account)) := by
  funext db
  by_cases htaken : (db.accounts.rows.any fun a =>
      a.id == draw.id || (a.enterpriseId == e && a.code == input.code)) = true
  · have hleft : AccountsRepository.create e input draw db =
        .error (.conflict "Ce code de compte est déjà utilisé") := if_pos htaken
    have hright : accounts.create (newAccount e input draw) db = .error (.prisma .p2002) :=
      if_pos htaken
    have hmapped : withUniqueCodeConflictMapped "Ce code de compte est déjà utilisé"
        (accounts.create (newAccount e input draw)) db =
        .error (.conflict "Ce code de compte est déjà utilisé") := by
      rw [withUniqueCodeConflictMapped, mapError, hright]
      rfl
    rw [hleft]
    exact (bind_of_error hmapped).symm
  · have hleft : AccountsRepository.create e input draw db =
        .ok (toAccountView [] (newAccount e input draw db.now),
          { db with accounts := db.accounts.insert (newAccount e input draw db.now) }) :=
      if_neg htaken
    have hright : accounts.create (newAccount e input draw) db = .ok (newAccount e input draw db.now,
        { db with accounts := db.accounts.insert (newAccount e input draw db.now) }) :=
      if_neg htaken
    have hmapped : withUniqueCodeConflictMapped "Ce code de compte est déjà utilisé"
        (accounts.create (newAccount e input draw)) db = .ok (newAccount e input draw db.now,
        { db with accounts := db.accounts.insert (newAccount e input draw db.now) }) := by
      rw [withUniqueCodeConflictMapped, mapError, hright]
      rfl
    rw [hleft, bind_of_ok hmapped]
    rfl

/-! ## Journal entries -/

def journalEntries : TenantTable JournalEntry where
  get := Db.journalEntries
  put db t := { db with journalEntries := t }
  owner := JournalEntry.enterpriseId
  same _ _ := false

structure ListJournalEntriesQuery extends PageQuery where
  search : Option String := none
  accountId : Option Uuid := none

namespace JournalRepository

def findMany (T : Texts) (enterpriseId : Uuid) (query : ListJournalEntriesQuery) :
    Transaction (Paged JournalEntryView) :=
  ask fun db => .ok <| query.of db.entryView <|
    journalEntries.findMany enterpriseId
      (fun en => (query.accountId.all fun id => en.lines.any (·.accountId == id)) &&
        T.search query.search [some en.number, some en.description, en.reference])
      (fun a b => b.entryDate ≤ a.entryDate) db

def findByIdOrThrow (enterpriseId id : Uuid) : Transaction JournalEntryView :=
  ask fun db => (journalEntries.findOwned "Écriture introuvable" enterpriseId id db).map db.entryView

end JournalRepository

end Gescom.Erp
