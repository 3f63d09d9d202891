import Gescom.Erp.Accounts
import Gescom.Erp.DocumentRepositories

/-!
# The trial balance (`accounts.repository.ts:106`)

`trialBalance` reads the accounts, then groups the lines of these accounts. Every entry balances, so
the totals agree exactly when the lines the second statement leaves out balance among themselves.
These lines are on accounts created since the first statement, each with its own snapshot at
READ COMMITTED. `trial_balance_balances` gives the runs in which every trial balance balances;
`split_entry` is a run outside it.
-/

namespace Gescom.Erp

open ReadCommitted Transition

inductive TrialBalanceState where
  | listing
  | aggregating (accounts : List Account)
  | finished (r : Except ApiError TrialBalanceView)

/-- A call of `JournalRepository.create`, `AccountsRepository.create` or `trialBalance`. -/
inductive BookCall where
  | entry (call : CreateCall CreateJournalEntryInput (List Account) JournalEntry JournalEntryView)
  | account (enterpriseId : Uuid) (input : CreateAccountInput)
    (r : Option (Except ApiError AccountView))
  | trialBalance (enterpriseId : Uuid) (st : TrialBalanceState)

def TrialBalanceState.step (collate : String → String → Bool) (enterpriseId : Uuid) (db : Db) :
    TrialBalanceState → Option TrialBalanceState
  | .listing => some (.aggregating (listAccounts collate db enterpriseId))
  | .aggregating accounts => some <| .finished <| .ok <|
      trialBalanceView accounts (aggregateBalances db enterpriseId (accounts.map Account.id))
  | .finished _ => none

/-- A change from outside: time passes, or another module writes its own tables. -/
structure OutsideBooks where
  apply : Db → Db
  accounts : ∀ db, (apply db).accounts = db.accounts
  entries : ∀ db, (apply db).journalEntries = db.journalEntries

def bookThread (collate : String → String → Bool) (pid : Nat) (i : Input) (s : ErpStore) :
    BookCall → Option (ErpStore × BookCall)
  | .entry call => (journalRepository.thread pid i s call).map fun r => (r.1, .entry r.2)
  | .account e input none =>
    match i with
    | .fail => some (s, .account e input (some (.error statementFailed)))
    | .proceed draw =>
      match createAccount e input draw.id s.db with
      | .error err => some (s, .account e input (some (.error err)))
      | .ok (view, db) => some ({ s with db := db }, .account e input (some (.ok view)))
  | .account _ _ (some _) => none
  | .trialBalance e st =>
    match i, st with
    | _, .finished _ => none
    | .fail, _ => some (s, .trialBalance e (.finished (.error statementFailed)))
    | .proceed _, st => (st.step collate e s.db).map fun st' => (s, .trialBalance e st')

def bookkeeping (collate : String → String → Bool) : Machine ErpStore BookCall Input OutsideBooks where
  thread pid i s call := bookThread collate pid i s call
  env x s := s.autocommit x.apply

abbrev BookPool := Pool ErpStore BookCall

/-! ## What must hold -/

/-- The committed lines of an account. -/
def Db.linesOf (db : Db) (accountId : Uuid) : List JournalEntryLine :=
  db.entryLines.filter fun l => l.accountId = accountId

/-- The enterprise's lines on accounts outside the list balance. -/
def Db.UnlistedBalance (db : Db) (e : Uuid) (accounts : List Account) : Prop :=
  let unlisted := db.entryLines.filter fun l =>
    l.enterpriseId = e ∧ l.accountId ∉ accounts.map Account.id
  (sumLines unlisted).totalDebit = (sumLines unlisted).totalCredit

/-- A second statement leaves out lines that balance. -/
def MissedBalance (P : BookPool) : Act Input OutsideBooks → Prop
  | .run pid (.proceed _) => ∀ e accounts,
      P.threads pid = .trialBalance e (.aggregating accounts) →
      P.shared.db.UnlistedBalance e accounts
  | _ => True

/-- The calls have not begun, and no entry was written by anything but them. -/
structure BookStarts (P : BookPool) : Prop where
  entries : ∀ pid call, P.threads pid = .entry call → NotBegun call
  trialBalances : ∀ pid e st, P.threads pid = .trialBalance e st → st = .listing
  noEntry : P.shared.db.journalEntries.rows = []

/-- Call `pid` is at the second statement of its trial balance, which answers `view`. -/
structure Answers (collate : String → String → Bool) (P : BookPool) (pid : Nat) (e : Uuid)
    (accounts : List Account) (view : TrialBalanceView) : Prop where
  call : P.threads pid = .trialBalance e (.aggregating accounts)
  next : ∃ draw P', (bookkeeping collate).system.step P (.run pid (.proceed draw)) = some P' ∧
    P'.threads pid = .trialBalance e (.finished (.ok view))

/-- `balances` is about the runs whose steps meet `K`, the rest about every run. -/
structure TrialBalances (collate : String → String → Bool)
    (K : BookPool → Act Input OutsideBooks → Prop) (P₀ : BookPool) : Prop where
  balances : ∀ P pid e view, Reach (bookkeeping collate).system K P₀ P →
    P.threads pid = .trialBalance e (.finished (.ok view)) → view.totalDebit = view.totalCredit
  exactly : ∀ P pid e accounts view, Reach (bookkeeping collate).system Always P₀ P →
    Answers collate P pid e accounts view →
    (view.totalDebit = view.totalCredit ↔ P.shared.db.UnlistedBalance e accounts)
  noneMissing : ∀ P pid e accounts view, Reach (bookkeeping collate).system Always P₀ P →
    Answers collate P pid e accounts view →
    (∀ a ∈ P.shared.db.accounts.rows, a.enterpriseId = e → a.id ∈ accounts.map Account.id) →
    view.totalDebit = view.totalCredit
  accounts : ∀ P pid e accounts view, Reach (bookkeeping collate).system Always P₀ P →
    Answers collate P pid e accounts view → ∀ v ∈ view.accounts,
    (⟨v.totalDebit, v.totalCredit⟩ : Balance) = sumLines (P.shared.db.linesOf v.account.id) ∧
      v.balance = v.totalDebit - v.totalCredit

variable {collate : String → String → Bool} {s s' : ErpStore} {pid pid' : Nat} {e : Uuid}
  {accounts : List Account} {db : Db}

/-! ## Double entry -/

/-- What `create` accepts: a balanced entry on accounts of its enterprise. -/
structure JournalEntry.Accepted (entry : JournalEntry) (db : Db) : Prop where
  balanced : (sumLines entry.lines).totalDebit = (sumLines entry.lines).totalCredit
  owner : ∀ l ∈ entry.lines, l.enterpriseId = entry.enterpriseId
  account : ∀ l ∈ entry.lines, db.HasAccount entry.enterpriseId l.accountId

def Db.BooksOk (db : Db) : Prop := ∀ entry ∈ db.journalEntries.rows, entry.Accepted db

/-- A step of another call: accounts stay. -/
def AccountsKept (s s' : ErpStore) : Prop :=
  ∀ id a, s.db.accounts.find? id = some a → s'.db.accounts.find? id = some a

theorem AccountsKept.of_eq (h : s'.db.accounts = s.db.accounts) : AccountsKept s s' := by
  intro id a ha
  rw [h]
  exact ha

theorem AccountsKept.hasAccount (h : AccountsKept s s') {id : Uuid} (ha : s.db.HasAccount e id) :
    s'.db.HasAccount e id := by
  obtain ⟨a, hfind, howner⟩ := ha
  exact ⟨a, h id a hfind, howner⟩

theorem AccountsKept.accepted (h : AccountsKept s s') {entry : JournalEntry}
    (ha : entry.Accepted s.db) : entry.Accepted s'.db where
  balanced := ha.balanced
  owner := ha.owner
  account l hl := h.hasAccount (ha.account l hl)

theorem AccountsKept.booksOk (h : AccountsKept s s')
    (he : s'.db.journalEntries = s.db.journalEntries) (hI : s.db.BooksOk) : s'.db.BooksOk := by
  intro entry hentry
  rw [he] at hentry
  exact h.accepted (hI entry hentry)

theorem checked_balanced {input : CreateJournalEntryInput} (h : input.check = none) :
    (input.lines.map JournalLineInput.debitAmount).sum =
      (input.lines.map JournalLineInput.creditAmount).sum := by
  unfold CreateJournalEntryInput.check at h
  by_contra hne
  simp [hne] at h

/-- The lookups of a `create` have found the accounts it names. -/
def Linked (c : Create CreateJournalEntryInput) (db : Db) : Prop :=
  c.input.check = none ∧ ∀ l ∈ c.input.lines, db.HasAccount c.enterpriseId l.accountId

theorem newEntry_accepted {c : Create CreateJournalEntryInput} (h : Linked c db) (sequence : Nat)
    (draw : Draw) (now : Instant) : (newEntry c sequence draw now).Accepted db where
  balanced := by
    have hsum : ∀ (ls : List (JournalLineInput × Nat)),
        sumLines (ls.map fun l => newEntryLine c.enterpriseId (draw.lineId l.2) l.1) =
          ⟨((ls.map fun l => l.1.debitAmount).sum : Nat),
            ((ls.map fun l => l.1.creditAmount).sum : Nat)⟩ := by
      intro ls
      induction ls with
      | nil => rfl
      | cons l ls ih =>
        rw [List.map_cons, sumLines_cons, ih]
        simp [newEntryLine]
    have hzip : ∀ f : JournalLineInput → Nat,
        (c.input.lines.zipIdx.map fun l => f l.1) = c.input.lines.map f := by
      intro f
      have hfst : c.input.lines.zipIdx.map Prod.fst = c.input.lines := by simp
      exact List.map_map.symm.trans (congrArg (List.map f) hfst)
    simp only [newEntry, hsum, hzip]
    exact congrArg Nat.cast (checked_balanced h.1)
  owner l hl := by
    obtain ⟨p, -, rfl⟩ := List.mem_map.1 hl
    rfl
  account l hl := by
    obtain ⟨p, hp, rfl⟩ := List.mem_map.1 hl
    exact h.2 p.1 (List.fst_mem_of_mem_zipIdx hp)

/-! ## What each call knows -/

def EntryKnows (c : Create CreateJournalEntryInput) (db : Db) :
    CreateState (List Account) JournalEntry JournalEntryView → Prop
  | .reading _ rest => c.input.check = none ∧
      (rest = journalRepository.lookups c.enterpriseId c.input ∨ rest = [] ∧ Linked c db)
  | .numbering _ | .inserting _ _ => Linked c db
  | .committing row _ _ => row.Accepted db
  | _ => True

/-- The accounts of a trial balance are distinct accounts of its enterprise. -/
structure Listed (db : Db) (e : Uuid) (accounts : List Account) : Prop where
  distinct : (accounts.map Account.id).Nodup
  stored : ∀ a ∈ accounts, db.accounts.find? a.id = some a ∧ a.enterpriseId = e

def BookCall.Knows (call : BookCall) (s : ErpStore) : Prop :=
  match call with
  | .entry (some (c, st)) => EntryKnows c s.db st
  | .trialBalance e (.aggregating accounts) => Listed s.db e accounts
  | _ => True

theorem AccountsKept.linked (h : AccountsKept s s') {c : Create CreateJournalEntryInput}
    (hl : Linked c s.db) : Linked c s'.db :=
  ⟨hl.1, fun l hmem => h.hasAccount (hl.2 l hmem)⟩

theorem AccountsKept.knows (h : AccountsKept s s') {call : BookCall} (hQ : call.Knows s) :
    call.Knows s' := by
  cases call with
  | entry call =>
    cases call with
    | none => trivial
    | some call =>
      obtain ⟨c, st⟩ := call
      cases st with
      | reading found rest =>
        obtain ⟨hcheck, hrest⟩ := hQ
        exact ⟨hcheck, hrest.imp_right fun hdone => ⟨hdone.1, h.linked hdone.2⟩⟩
      | numbering found => exact h.linked hQ
      | inserting found sequence => exact h.linked hQ
      | committing row sequence view => exact h.accepted hQ
      | _ => trivial
  | account e input r => trivial
  | trialBalance e st =>
    cases st with
    | listing => trivial
    | aggregating accounts =>
      have hl : Listed s.db e accounts := hQ
      exact ⟨hl.distinct, fun a ha => ⟨h _ _ (hl.stored a ha).1, (hl.stored a ha).2⟩⟩
    | finished r => trivial

theorem listAccounts_listed : Listed db e (listAccounts collate db e) := by
  have hperm : (listAccounts collate db e).Perm
      (db.accounts.rows.filter fun a => a.enterpriseId = e) := List.mergeSort_perm ..
  constructor
  · have hsub : ((db.accounts.rows.filter fun a => a.enterpriseId = e).map Account.id).Sublist
        (db.accounts.rows.map Account.id) := List.filter_sublist.map _
    exact (hperm.map Account.id).nodup_iff.2 (db.accounts.nodup.sublist hsub)
  · intro a ha
    obtain ⟨hmem, howner⟩ := List.mem_filter.1 (hperm.mem_iff.1 ha)
    exact ⟨Table.find?_of_mem hmem, by simpa using howner⟩

theorem createAccount_ok {input : CreateAccountInput} {id : Uuid} {view : AccountView} {db' : Db}
    (h : createAccount e input id db = .ok (view, db')) :
    ∃ a : Account, db' = { db with accounts := db.accounts.insert a } := by
  simp only [createAccount] at h
  split at h <;> cases h
  exact ⟨_, rfl⟩

/-! ## One step -/

/-- What a step of a call is for the books. -/
def BookStep (call : BookCall) (s s' : ErpStore) : Prop :=
  s'.db.BooksOk ∧ call.Knows s' ∧ AccountsKept s s'

theorem BookStep.silent {call : BookCall} (hI : s.db.BooksOk) (hdb : s'.db = s.db)
    (hQ : call.Knows s) : BookStep call s s' := by
  have hkept : AccountsKept s s' := .of_eq (by rw [hdb])
  exact ⟨by rw [hdb]; exact hI, hkept.knows hQ, hkept⟩

theorem entry_thrown_knows (db : Db) (c : Create CreateJournalEntryInput) (err : ApiError) :
    EntryKnows c db (journalRepository.thrown c err) := by
  have hfinished : journalRepository.thrown c err = .finished (.error err) := by
    simp [Repository.thrown, journalRepository]
  rw [hfinished]
  trivial

theorem BooksOk.commit {entry : JournalEntry} {n : Nat} (hI : db.BooksOk) (h : entry.Accepted db) :
    (journalRepository.commit e entry n db).BooksOk := by
  have keep : ∀ x : JournalEntry, x.Accepted db → x.Accepted (journalRepository.commit e entry n db) :=
    fun x hx => ⟨hx.balanced, hx.owner, hx.account⟩
  intro x hx
  have hrows : x ∈ (db.journalEntries.insert entry).rows := hx
  unfold Table.insert at hrows
  split at hrows
  · exact keep x (hI x hrows)
  · rcases List.mem_append.1 hrows with hmem | hmem
    · exact keep x (hI x hmem)
    · rw [List.mem_singleton.1 hmem]
      exact keep entry h

/-- One statement of `JournalRepository.create`. -/
theorem entry_step {c : Create CreateJournalEntryInput} {draw : Draw}
    {st st' : CreateState (List Account) JournalEntry JournalEntryView} (hI : s.db.BooksOk)
    (hQ : EntryKnows c s.db st) (hst : journalRepository.step c pid draw s st = some (s', st')) :
    BookStep (.entry (some (c, st'))) s s' := by
  cases st with
  | checking =>
    simp only [Repository.step] at hst
    split at hst
    · cases hst
      exact .silent hI rfl trivial
    · rename_i hcheck
      split at hst <;> cases hst
      · exact .silent hI rfl trivial
      · exact .silent hI rfl ⟨hcheck, .inl rfl⟩
  | reading found rest =>
    obtain ⟨hcheck, hrest⟩ := hQ
    rcases hrest with rfl | ⟨rfl, hlinked⟩
    · simp only [journalRepository, Repository.step] at hst
      split at hst <;> cases hst
      · rename_i err _
        exact .silent hI rfl (entry_thrown_knows s.db c err)
      · rename_i hfound
        exact .silent hI rfl ⟨hcheck, .inr ⟨rfl, hcheck, findAccounts_ok hfound⟩⟩
    · cases hst
      exact .silent hI rfl hlinked
  | numbering found =>
    simp only [Repository.step, journalRepository] at hst
    split at hst <;> cases hst
    exact .silent hI rfl hQ
  | inserting found sequence =>
    simp only [Repository.step] at hst
    split at hst
    · split at hst
      · split at hst <;> cases hst
        · exact .silent hI rfl trivial
        · exact .silent hI rfl (entry_thrown_knows s.db c (.prisma .p2002))
      · cases hst
        exact .silent hI rfl (newEntry_accepted hQ sequence draw s.db.now)
    · cases hst
  | recovering =>
    cases hst
    exact .silent hI rfl trivial
  | committing row sequence view =>
    cases hst
    exact ⟨BooksOk.commit hI hQ, trivial, .of_eq rfl⟩
  | recoveringByKey err =>
    simp only [Repository.step] at hst
    split at hst <;> cases hst <;> exact .silent hI rfl trivial
  | recoveringBySale err =>
    simp only [Repository.step] at hst
    split at hst <;> cases hst <;> exact .silent hI rfl trivial
  | finished r => cases hst

theorem entry_failed_knows {c : Create CreateJournalEntryInput}
    {st st' : CreateState (List Account) JournalEntry JournalEntryView}
    (hst : journalRepository.failed c st = some st') : EntryKnows c db st' := by
  cases st with
  | finished r => cases hst
  | recoveringByKey err =>
    cases hst
    trivial
  | recoveringBySale err =>
    cases hst
    trivial
  | _ =>
    cases hst
    exact entry_thrown_knows db c statementFailed

theorem bookThread_step {i : Input} {call t : BookCall} (hI : s.db.BooksOk) (hQ : call.Knows s)
    (hst : bookThread collate pid i s call = some (s', t)) : BookStep t s s' := by
  cases call with
  | entry call =>
    obtain ⟨⟨s₁, call'⟩, hthread, hres⟩ := Option.map_eq_some_iff.1 hst
    cases hres
    cases call with
    | none => cases hthread
    | some call =>
      obtain ⟨c, st⟩ := call
      cases i with
      | proceed draw =>
        obtain ⟨⟨s₂, st'⟩, hstep, hres⟩ := Option.map_eq_some_iff.1 hthread
        cases hres
        exact entry_step hI hQ hstep
      | fail =>
        obtain ⟨st', hfailed, hres⟩ := Option.map_eq_some_iff.1 hthread
        cases hres
        exact .silent hI rfl (entry_failed_knows hfailed)
  | account e input r =>
    cases r with
    | some r => cases hst
    | none =>
      cases i with
      | fail =>
        cases hst
        exact .silent hI rfl trivial
      | proceed draw =>
        simp only [bookThread] at hst
        split at hst <;> cases hst
        · exact .silent hI rfl trivial
        · rename_i hcreated
          obtain ⟨a, rfl⟩ := createAccount_ok hcreated
          have hkept : AccountsKept s
              { s with db := { s.db with accounts := s.db.accounts.insert a } } :=
            fun id x hx => Table.find?_insert_of_some hx
          exact ⟨hkept.booksOk rfl hI, trivial, hkept⟩
  | trialBalance e st =>
    cases st with
    | finished r => cases i <;> cases hst
    | listing =>
      cases i <;> cases hst
      · exact .silent hI rfl listAccounts_listed
      · exact .silent hI rfl trivial
    | aggregating accounts => cases i <;> cases hst <;> exact .silent hI rfl trivial

/-- The outline of the books. -/
theorem books : Outline (bookkeeping collate) Always (fun s => s.db.BooksOk)
    (fun _ call s => call.Knows s) (fun _ s s' => AccountsKept s s') where
  own P pid i s t _ hI hQ hst := bookThread_step hI hQ hst
  stable _ _ _ _ _ _ _ _ hG hQ := hG.knows hQ
  env P x _ hI := by
    have hkept : AccountsKept P.shared ((bookkeeping collate).env x P.shared) :=
      .of_eq (x.accounts _)
    exact ⟨hkept.booksOk (x.entries _) hI, fun pid call hQ => hkept.knows hQ⟩

/-! ## The result -/

theorem BookStarts.annotated {P : BookPool} (h : BookStarts P) :
    Annotated (fun s => s.db.BooksOk) (fun _ call s => call.Knows s) P := by
  constructor
  · intro entry hentry
    rw [h.noEntry] at hentry
    cases hentry
  · intro pid
    cases hcall : P.threads pid with
    | entry call =>
      cases call with
      | none => trivial
      | some call =>
        obtain ⟨c, st⟩ := call
        obtain rfl : st = .checking := h.entries pid _ hcall
        trivial
    | account e input r => trivial
    | trialBalance e st =>
      obtain rfl := h.trialBalances pid e st hcall
      trivial

/-- Over all entries, the lines of an enterprise balance. -/
theorem lines_balanced (hI : db.BooksOk) (e : Uuid) :
    (sumLines (db.entryLines.filter fun l => l.enterpriseId = e)).totalDebit =
      (sumLines (db.entryLines.filter fun l => l.enterpriseId = e)).totalCredit := by
  have hentries : ∀ entries : List JournalEntry, (∀ x ∈ entries, x.Accepted db) →
      (sumLines ((entries.flatMap JournalEntry.lines).filter fun l =>
          l.enterpriseId = e)).totalDebit =
        (sumLines ((entries.flatMap JournalEntry.lines).filter fun l =>
          l.enterpriseId = e)).totalCredit := by
    intro entries
    induction entries with
    | nil => intro _; rfl
    | cons x entries ih =>
      intro hok
      have hx := hok x List.mem_cons_self
      have hrest := ih fun y hy => hok y (List.mem_cons_of_mem _ hy)
      -- the lines of `x` are all of `e`, or none is
      have hlines : x.lines.filter (fun l => l.enterpriseId = e) =
          if x.enterpriseId = e then x.lines else [] := by
        split
        · rename_i hxe
          exact List.filter_eq_self.2 fun l hl => by simp [hx.owner l hl, hxe]
        · rename_i hxe
          exact List.filter_eq_nil_iff.2 fun l hl => by simp [hx.owner l hl, hxe]
      rw [List.flatMap_cons, List.filter_append, hlines, sumLines_append]
      simp only
      split
      · rw [hx.balanced, hrest]
      · rw [hrest]
        rfl
  exact hentries _ hI

/-- The totals agree exactly when the lines left out balance. -/
theorem totals_eq_iff (hI : db.BooksOk) (hl : Listed db e accounts) :
    let view := trialBalanceView accounts (aggregateBalances db e (accounts.map Account.id))
    view.totalDebit = view.totalCredit ↔ db.UnlistedBalance e accounts := by
  intro view
  have hview := totals_trialBalance db e hl.distinct
  have hdebit : view.totalDebit = _ := congrArg Balance.totalDebit hview
  have hcredit : view.totalCredit = _ := congrArg Balance.totalCredit hview
  have hall := lines_balanced hI e
  obtain ⟨hsplit, hsplit'⟩ := sumLines_filter (fun l => l.accountId ∈ accounts.map Account.id)
    (db.entryLines.filter fun l => l.enterpriseId = e)
  have hlisted : (db.entryLines.filter fun l => l.enterpriseId = e).filter
      (fun l => l.accountId ∈ accounts.map Account.id) =
      db.entryLines.filter fun l => l.enterpriseId = e ∧ l.accountId ∈ accounts.map Account.id := by
    rw [List.filter_filter]
    refine List.filter_congr fun l _ => ?_
    rw [← Bool.decide_and]
    exact decide_eq_decide.2 and_comm
  have hunlisted : (db.entryLines.filter fun l => l.enterpriseId = e).filter
      (fun l => !decide (l.accountId ∈ accounts.map Account.id)) =
      db.entryLines.filter fun l => l.enterpriseId = e ∧ l.accountId ∉ accounts.map Account.id := by
    rw [List.filter_filter]
    refine List.filter_congr fun l _ => ?_
    rw [← decide_not, ← Bool.decide_and]
    exact decide_eq_decide.2 and_comm
  rw [hlisted, hunlisted] at hsplit hsplit'
  rw [hdebit, hcredit]
  unfold Db.UnlistedBalance
  simp only
  omega

/-- No account missing from the list, no line left out. -/
theorem unlistedBalance_of_all (hI : db.BooksOk)
    (hall : ∀ a ∈ db.accounts.rows, a.enterpriseId = e → a.id ∈ accounts.map Account.id) :
    db.UnlistedBalance e accounts := by
  have hnone : (db.entryLines.filter fun l =>
      l.enterpriseId = e ∧ l.accountId ∉ accounts.map Account.id) = [] := by
    rw [List.filter_eq_nil_iff]
    intro l hl hunlisted
    obtain ⟨howner, hnot⟩ := of_decide_eq_true hunlisted
    obtain ⟨entry, hentry, hline⟩ := List.mem_flatMap.1 hl
    have haccepted := hI entry hentry
    obtain ⟨a, hfind, ha⟩ := haccepted.account l hline
    rw [← haccepted.owner l hline, howner] at ha
    have hmem := hall a (Table.mem_of_find? hfind) ha
    rw [show a.id = l.accountId from Table.key_of_find? hfind] at hmem
    exact hnot hmem
  unfold Db.UnlistedBalance
  simp only [hnone]
  rfl

/-- A listed account's lines are all of its enterprise. -/
theorem linesOf_listed (hI : db.BooksOk) (hl : Listed db e accounts) {a : Account}
    (ha : a ∈ accounts) :
    (db.entryLines.filter fun l => l.enterpriseId = e ∧ l.accountId = a.id) = db.linesOf a.id := by
  refine List.filter_congr fun l hline => decide_eq_decide.2 ⟨And.right, fun hid => ⟨?_, hid⟩⟩
  obtain ⟨entry, hentry, hmem⟩ := List.mem_flatMap.1 hline
  have haccepted := hI entry hentry
  obtain ⟨x, hfind, hx⟩ := haccepted.account l hmem
  obtain ⟨hstored, howner⟩ := hl.stored a ha
  rw [hid, hstored] at hfind
  rw [haccepted.owner l hmem, ← hx, ← Option.some.inj hfind, howner]

/-- The view of a call at its second statement. -/
theorem Answers.view_eq {P : BookPool} {view : TrialBalanceView}
    (h : Answers collate P pid e accounts view) :
    view = trialBalanceView accounts
      (aggregateBalances P.shared.db e (accounts.map Account.id)) := by
  obtain ⟨draw, P', hst, hview⟩ := h.next
  obtain ⟨s, t, hthread, rfl⟩ := Machine.run_eq_some.1 hst
  rw [h.call] at hthread
  cases hthread
  simp only [Function.update_self] at hview
  cases hview
  rfl

/-- A trial balance is answered at its second statement. -/
theorem answers_of_thread {P : BookPool} {i : Input} {view : TrialBalanceView}
    (hst : bookThread collate pid i P.shared (P.threads pid) =
      some (s, .trialBalance e (.finished (.ok view)))) :
    ∃ accounts draw, i = .proceed draw ∧ Answers collate P pid e accounts view := by
  have hstep : ∀ draw, i = .proceed draw → ∃ P',
      (bookkeeping collate).system.step P (.run pid (.proceed draw)) = some P' ∧
        P'.threads pid = .trialBalance e (.finished (.ok view)) := by
    rintro draw rfl
    exact ⟨_, Machine.run_eq_some.2 ⟨_, _, hst, rfl⟩, Function.update_self ..⟩
  cases hcall : P.threads pid with
  | entry call =>
    rw [hcall] at hst
    obtain ⟨r, -, hres⟩ := Option.map_eq_some_iff.1 hst
    cases hres
  | account e' input r =>
    rw [hcall] at hst
    cases r with
    | some r => cases hst
    | none =>
      cases i with
      | fail => cases hst
      | proceed draw =>
        simp only [bookThread] at hst
        split at hst <;> cases hst
  | trialBalance e' st =>
    rw [hcall] at hst
    cases st with
    | finished r => cases i <;> cases hst
    | listing => cases i <;> cases hst
    | aggregating accounts =>
      cases i with
      | fail => cases hst
      | proceed draw =>
        cases hst
        exact ⟨accounts, draw, rfl, hcall, draw, hstep draw rfl⟩

/-- Where no second statement leaves out unbalanced lines, every trial balance balances. -/
theorem trial_balance_balances (collate : String → String → Bool) {P₀ : BookPool}
    (h0 : BookStarts P₀) : TrialBalances collate MissedBalance P₀ where
  balances P pid e view hr hview := by
    refine hr.inv (fun P => ∀ pid e view, P.threads pid = .trialBalance e (.finished (.ok view)) →
      view.totalDebit = view.totalCredit) ?_ ?_ pid e view hview
    · intro pid e view hcall
      cases h0.trialBalances pid e _ hcall
    · intro P a P' hP ih hK hst pid e view hcall
      rcases Machine.step_thread hst pid with hsame | ⟨i, s, t, rfl, hthread, -, hnew⟩
      · exact ih pid e view (hsame ▸ hcall)
      · rw [← hnew, hcall] at hthread
        obtain ⟨accounts, draw, rfl, h⟩ := answers_of_thread hthread
        obtain ⟨hI, hQ⟩ := books.sound h0.annotated hP.always
        have hl := hQ pid
        rw [h.call] at hl
        rw [h.view_eq]
        exact (totals_eq_iff hI hl).2 (hK e accounts h.call)
  exactly P pid e accounts view hr h := by
    obtain ⟨hI, hQ⟩ := books.sound h0.annotated hr
    have hl := hQ pid
    rw [h.call] at hl
    rw [h.view_eq]
    exact totals_eq_iff hI hl
  noneMissing P pid e accounts view hr h hall := by
    obtain ⟨hI, hQ⟩ := books.sound h0.annotated hr
    have hl := hQ pid
    rw [h.call] at hl
    rw [h.view_eq]
    exact (totals_eq_iff hI hl).2 (unlistedBalance_of_all hI hall)
  accounts P pid e accounts view hr h v hv := by
    obtain ⟨hI, hQ⟩ := books.sound h0.annotated hr
    have hl := hQ pid
    rw [h.call] at hl
    rw [h.view_eq] at hv
    obtain ⟨ha, hsum, hbalance⟩ := trialBalanceView_accounts hv
    rw [linesOf_listed hI hl ha] at hsum
    exact ⟨hsum, hbalance⟩

/-- One account, a trial balance, the creation of a second account, and an entry on both. -/
def splitPool : BookPool where
  shared :=
    { db :=
        { accounts := Table.empty.insert
            { id := 11, enterpriseId := 1, code := "411", label := "Clients", createdAt := 0,
              updatedAt := 0 } }
      lock := fun _ => none }
  threads
    | 0 => .trialBalance 1 .listing
    | 1 => .account 1 ⟨"701", "Ventes"⟩ none
    | 2 => .entry <| some
        (⟨1, { description := "Vente"
               lines := [⟨11, none, 1000, 0⟩, ⟨12, none, 0, 1000⟩] }, none⟩, .checking)
    | _ => .entry none

theorem splitPool_starts : BookStarts splitPool where
  entries pid call h := by
    match pid with
    | 0 => cases h
    | 1 => cases h
    | 2 =>
      cases h
      rfl
    | _ + 3 =>
      cases h
      trivial
  trialBalances pid e st h := by
    match pid with
    | 0 =>
      cases h
      rfl
    | 1 => cases h
    | 2 => cases h
    | _ + 3 => cases h
  noEntry := rfl

theorem trial_balance_sample :
    TrialBalances (fun a b => decide (a ≤ b)) MissedBalance splitPool :=
  trial_balance_balances _ splitPool_starts

/-- The totals of a trial balance that has been returned. -/
def BookCall.totals : BookCall → Option (Int × Int)
  | .trialBalance _ (.finished (.ok view)) => some (view.totalDebit, view.totalCredit)
  | _ => none

/-- The second account and the entry are committed between the two statements. -/
theorem split_entry :
    BookStarts splitPool ∧
      ¬ TrialBalances (fun a b => decide (a ≤ b)) Always splitPool := by
  refine ⟨splitPool_starts, fun h => ?_⟩
  have hrun : (exec (bookkeeping fun a b => decide (a ≤ b)).system (fun _ _ => true) splitPool
      ([.run 0 (.proceed ⟨0, id⟩), .run 1 (.proceed ⟨12, id⟩)] ++
        List.replicate 6 (.run 2 (.proceed ⟨13, id⟩)) ++ [.run 0 (.proceed ⟨0, id⟩)])).map
        (fun P => (P.threads 0).totals) = some (some (1000, 0)) := by decide +kernel
  obtain ⟨P, hP, hres⟩ := Option.map_eq_some_iff.1 hrun
  have hreach := Reach.of_exec (C := Always) _ (fun _ _ _ => trivial) _ hP
  unfold BookCall.totals at hres
  split at hres
  · rename_i e view hcall
    obtain ⟨hdebit, hcredit⟩ := Prod.mk.inj (Option.some.inj hres)
    have hbalance := h.balances P 0 e view hreach hcall
    omega
  · cases hres

end Gescom.Erp
