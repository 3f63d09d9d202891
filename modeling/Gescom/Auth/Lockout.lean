import Gescom.Auth.Login
import Gescom.Lib.Counting

/-!
# The lockout of an account

Wrong passwords for one account, checked by any number of `login` calls at once. The counter is read
with the row and written back after the check of the password: a call that checks a password while
the row has moved on, or while another failure is on its way to the row, makes a failure disappear.
`counts_failures` gives the runs without such a check; `lost_failure` is one with it.
-/

namespace Gescom.Auth

open ReadCommitted Transition

variable {S : Services} {K : LoginPool → Act Draws Beside → Prop} {email : String} {user : User}
  {P P' P₀ : LoginPool} {pid : Nat} {db : Db} {s s' : AuthStore}

/-- The password of the call was checked, and is wrong. -/
def Wrong (call : Option LoginCall) : Prop := ∃ c, call = some c ∧ c.verified = some false

/-- The call is over, and its password was wrong. -/
def FailedLogin (call : Option LoginCall) : Prop :=
  ∃ c r, call = some c ∧ c.verified = some false ∧ c.st = .finished r

/-- A wrong password on its way to the row. -/
def Uncounted (call : Option LoginCall) : Prop := ∃ c user, call = some c ∧ c.st = .counting user

/-- The passwords that are checked are wrong. -/
def NoSuccess (S : Services) (P : LoginPool) : Act Draws Beside → Prop
  | .run pid _ => ∀ c user password, P.threads pid = some c → c.st = .verifying user password →
      S.verifyPassword user.passwordHash password = false
  | .env _ => True

/-- A wrong password is found wrong while the row is as the call has read it, and no other failure is
on its way to the row. -/
def OneAtATime (S : Services) (email : String) (P : LoginPool) : Act Draws Beside → Prop
  | .run pid _ => ∀ c user password, P.threads pid = some c → c.st = .verifying user password →
      S.verifyPassword user.passwordHash password = false →
      (∃ row, P.shared.db.findUser email = some row ∧
        row.failedLoginCount = user.failedLoginCount) ∧
      ∀ other, ¬ Uncounted (P.threads other)
  | .env _ => True

/-- Logins of one active account, whose row is `user`. -/
structure LoginStarts (email : String) (user : User) (P : LoginPool) : Prop where
  calls : ∀ pid c, P.threads pid = some c → ∃ password, c = { st := .finding email password }
  account : P.shared.db.findUser email = some user
  active : inactive user (P.shared.db.enterpriseOf user) = false

/-- In the runs whose steps meet `K` the row has every failure, and five of them lock the account. -/
structure CountsFailures (S : Services) (K : LoginPool → Act Draws Beside → Prop) (email : String)
    (user : User) (P₀ : LoginPool) : Prop where
  counted : ∀ P A, Reach (logins S).system K P₀ P → P.All FailedLogin A →
    ∃ row, P.shared.db.findUser email = some row ∧
      user.failedLoginCount + A.card ≤ row.failedLoginCount
  /-- Nothing clears `lockedUntil` in these runs: a null one has never been set. -/
  limited : user.failedLoginCount = 0 → user.lockedUntil = none →
    ∀ P A row, Reach (logins S).system K P₀ P → P.shared.db.findUser email = some row →
      row.lockedUntil = none → P.All Wrong A → A.card ≤ maxFailedLoginAttempts

/-! ## The row of the account -/

theorem findUser_updateUser (id : Uuid) (f : User → User) (hid : ∀ u, (f u).id = u.id)
    (hemail : ∀ u, (f u).email = u.email) (db : Db) (email : String) :
    (db.updateUser id f hid).findUser email =
      (db.findUser email).map fun u => if u.id = id then f u else u := by
  have hrows : (db.updateUser id f hid).users.rows =
      db.users.rows.map fun u => if u.id = id then f u else u := by
    simp [Db.updateUser, Table.update, Keyed.key]
  unfold Db.findUser
  rw [hrows, List.find?_map]
  congr 2
  funext u
  by_cases hu : u.id = id <;> simp [hu, hemail]

theorem findUser_id (h : db.findUser email = some user) : db.users.find? user.id = some user :=
  Table.find?_of_findBy h

/-- What goes on beside the logins keeps the row. -/
theorem findUser_beside (x : Beside) (h : db.findUser email = some user) :
    ∃ row, (x.apply db).findUser email = some row ∧ row.lockColumns = user.lockColumns := by
  obtain ⟨added, hadded⟩ := x.users db
  have hcolumns : ((x.apply db).users.rows.map User.lockColumns).find? (fun c => c.email == email) =
      some user.lockColumns := by
    rw [← hadded, List.find?_append, List.find?_map]
    have hfind : db.users.rows.find? ((fun c => c.email == email) ∘ User.lockColumns) = some user := h
    rw [hfind]
    rfl
  rw [List.find?_map] at hcolumns
  exact Option.map_eq_some_iff.1 hcolumns

theorem findUser_loginFailed {id : Uuid} (h : db.findUser email = some user) (hid : id = user.id)
    (n : Nat) (lockedUntil : Option Instant) :
    (db.updateUser id (fun u => u.loginFailed n lockedUntil) fun _ => rfl).findUser email =
      some (user.loginFailed n lockedUntil) := by
  rw [findUser_updateUser id (fun u => u.loginFailed n lockedUntil) (fun _ => rfl) (fun _ => rfl), h,
    Option.map_some, if_pos hid.symm]

theorem findUser_countFailure (h : db.findUser email = some user) {read : User}
    (hid : read.id = user.id) :
    ∃ row, (db.countFailure read).findUser email = some row ∧ row.id = user.id ∧
      row.failedLoginCount = read.failedLoginCount + 1 ∧
      (row.lockedUntil = none → read.failedLoginCount + 1 < maxFailedLoginAttempts) := by
  refine ⟨_, findUser_loginFailed h hid _ _, rfl, rfl, fun hnone => ?_⟩
  by_contra hlock
  have hshould : read.shouldLock = true := by
    simpa [User.shouldLock] using Nat.le_of_not_lt hlock
  simp [User.loginFailed, hshould] at hnone

/-! ## One statement -/

/-- The ways to the 401. -/
def LoginState.Refused : LoginState → Prop
  | auditingLock _ | refusing _ | finished _ => True
  | _ => False

/-- The password was right. -/
def LoginState.Succeeding : LoginState → Prop
  | resetting _ | issuing _ | auditing _ _ => True
  | _ => False

/-- What one statement is for the lockout. -/
inductive LoginStep (S : Services) (s : AuthStore) : LoginCall → AuthStore → LoginCall → Prop
  | read {email password verified} {user : User} (h : s.db.findUser email = some user) :
      LoginStep S s ⟨.finding email password, verified⟩ s ⟨.verifying user password, verified⟩
  | verify {user : User} {password verified} :
      LoginStep S s ⟨.verifying user password, verified⟩ s
        ⟨if S.verifyPassword user.passwordHash password then .resetting user else .counting user,
          some (S.verifyPassword user.passwordHash password)⟩
  | count {user : User} {verified st} (h : st.Refused) :
      LoginStep S s ⟨.counting user, verified⟩ (s.autocommit (Db.countFailure user)) ⟨st, verified⟩
  | missing {user : User} {verified} (h : s.db.users.find? user.id = none) :
      LoginStep S s ⟨.counting user, verified⟩ s ⟨.finished (.error (.prisma .p2025)), verified⟩
  | refuse {st s' st' verified} (hst : (∃ email password, st = .finding email password) ∨ st.Refused)
      (hst' : st'.Refused) (husers : s'.db.users = s.db.users) :
      LoginStep S s ⟨st, verified⟩ s' ⟨st', verified⟩
  | succeed {st s' st' verified} (hst : st.Succeeding) (hst' : st'.Succeeding ∨ st'.Refused) :
      LoginStep S s ⟨st, verified⟩ s' ⟨st', verified⟩

theorem login_step {c c' : LoginCall} {d : Draws} (h : c.step S pid d s = some (s', c')) :
    LoginStep S s c s' c' := by
  obtain ⟨⟨s₁, st₁⟩, hst, hres⟩ := Option.map_eq_some_iff.1 h
  obtain ⟨st, verified⟩ := c
  cases hres
  cases st with
  | finding email password =>
    simp only [LoginState.step] at hst
    split at hst
    · cases hst
      exact .refuse (.inl ⟨email, password, rfl⟩) trivial rfl
    · rename_i user hfind
      split at hst
      · cases hst
        exact .refuse (.inl ⟨email, password, rfl⟩) trivial rfl
      · split at hst <;> cases hst
        · exact .refuse (.inl ⟨email, password, rfl⟩) trivial rfl
        · exact .read hfind
  | verifying user password =>
    have hres : (s₁, st₁) = (s, if S.verifyPassword user.passwordHash password then
        LoginState.resetting user else .counting user) := by
      simp only [LoginState.step] at hst
      split at hst
      · rename_i hvalid
        rw [if_pos hvalid]
        exact (Option.some.inj hst).symm
      · rename_i hwrong
        rw [if_neg hwrong]
        exact (Option.some.inj hst).symm
    cases hres
    exact .verify
  | counting user =>
    simp only [LoginState.step] at hst
    split at hst
    · split at hst <;> cases hst
      · exact .missing ‹_›
      · exact .count (by split <;> trivial)
    · cases hst
  | auditingLock user =>
    cases hst
    exact .refuse (.inr trivial) trivial rfl
  | refusing log =>
    cases hst
    exact .refuse (.inr trivial) trivial rfl
  | resetting user =>
    simp only [LoginState.step] at hst
    split at hst
    · split at hst <;> cases hst
      · exact .succeed trivial (.inr trivial)
      · refine .succeed trivial ?_
        split
        · split
          · exact .inr trivial
          · exact .inr trivial
        · exact .inl trivial
    · cases hst
  | issuing user =>
    cases hst
    exact .succeed trivial (.inl trivial)
  | auditing user pair =>
    cases hst
    exact .succeed trivial (.inr trivial)
  | finished r => cases hst

theorem thread_step {d : Draws} {call t : Option LoginCall}
    (h : (logins S).thread pid d s call = some (s', t)) :
    ∃ c c', call = some c ∧ t = some c' ∧ LoginStep S s c s' c' := by
  cases call with
  | none => cases h
  | some c =>
    obtain ⟨⟨s₁, c₁⟩, hstep, hres⟩ := Option.map_eq_some_iff.1 h
    cases hres
    exact ⟨c, c₁, rfl, rfl, login_step hstep⟩

/-! ## Runs -/

/-- The runs in which every failure is counted. -/
def Careful (S : Services) (email : String) (P : LoginPool) (a : Act Draws Beside) : Prop :=
  NoSuccess S P a ∧ OneAtATime S email P a

/-- What a call asserts of the row of the account. -/
def LoginCall.Tracks (email : String) (row : User) (c : LoginCall) : Prop :=
  match c.st with
  | .finding email' _ => email' = email ∧ c.verified = none
  | .verifying user _ => user.id = row.id ∧ c.verified = none
  | .counting user =>
    user.id = row.id ∧ user.failedLoginCount = row.failedLoginCount ∧ c.verified = some false
  | .resetting _ | .issuing _ | .auditing _ _ => False
  | .auditingLock _ | .refusing _ | .finished _ => True

theorem tracks_of_refused {c : LoginCall} (h : c.st.Refused) (row : User) : c.Tracks email row := by
  obtain ⟨st, verified⟩ := c
  cases st with
  | auditingLock user => trivial
  | refusing log => trivial
  | finished r => trivial
  | _ => exact h.elim

theorem LoginCall.Tracks.not_succeeding {c : LoginCall} {row : User} (h : c.Tracks email row) :
    ¬ c.st.Succeeding := by
  obtain ⟨st, verified⟩ := c
  cases st with
  | resetting user => exact h.elim
  | issuing user => exact h.elim
  | auditing user pair => exact h.elim
  | _ => exact id

/-- The row has moved on, for a call with no failure on its way. -/
theorem LoginCall.Tracks.other {c : LoginCall} {row row' : User} (hc : c.Tracks email row)
    (hid : row'.id = row.id) (h : ¬ Uncounted (some c)) : c.Tracks email row' := by
  obtain ⟨st, verified⟩ := c
  cases st with
  | verifying user password => exact ⟨hc.1.trans hid.symm, hc.2⟩
  | counting user => exact absurd ⟨_, user, rfl, rfl⟩ h
  | _ => exact hc

/-- The row has changed in columns that the calls do not look at. -/
theorem LoginCall.Tracks.congr {c : LoginCall} {row row' : User} (hc : c.Tracks email row)
    (h : row'.lockColumns = row.lockColumns) : c.Tracks email row' := by
  obtain ⟨hid, -, hcount, -⟩ := LockColumns.mk.inj h
  obtain ⟨st, verified⟩ := c
  cases st with
  | verifying user password => exact ⟨hc.1.trans hid.symm, hc.2⟩
  | counting user => exact ⟨hc.1.trans hid.symm, hc.2.1.trans hcount.symm, hc.2.2⟩
  | _ => exact hc

theorem counted_of_refused {c : LoginCall} (h : c.st.Refused) : ¬ Uncounted (some c) := by
  rintro ⟨c', user, hc, hst⟩
  obtain rfl := Option.some.inj hc
  rw [hst] at h
  exact h

theorem counted_of_succeeding {c : LoginCall} (h : c.st.Succeeding) : ¬ Uncounted (some c) := by
  rintro ⟨c', user, hc, hst⟩
  obtain rfl := Option.some.inj hc
  rw [hst] at h
  exact h

/-- One failure at a time is on its way to the row. -/
theorem LoginStarts.one (h0 : LoginStarts email user P₀)
    (hr : Reach (logins S).system (Careful S email) P₀ P) :
    ∀ i j, Uncounted (P.threads i) → Uncounted (P.threads j) → i = j := by
  refine hr.exclusive Uncounted ?_ ?_
  · rintro i ⟨c, user, hcall, hst⟩
    obtain ⟨password, rfl⟩ := h0.calls i c hcall
    cases hst
  · rintro P pid d s t - ⟨-, halone⟩ hth ht
    obtain ⟨c, c', hcall, rfl, hstep⟩ := thread_step hth
    right
    cases hstep with
    | read h =>
      obtain ⟨_, _, hc, hst⟩ := ht
      cases hc
      cases hst
    | verify =>
      rename_i read password verified
      cases hpassword : S.verifyPassword read.passwordHash password with
      | true =>
        refine absurd ht (counted_of_succeeding ?_)
        rw [if_pos hpassword]
        trivial
      | false => exact (halone _ read password hcall rfl hpassword).2
    | count h => exact absurd ht (counted_of_refused h)
    | missing h => exact absurd ht (counted_of_refused trivial)
    | refuse h h' => exact absurd ht (counted_of_refused h')
    | succeed h h' =>
      rcases h' with h' | h'
      · exact absurd ht (counted_of_succeeding h')
      · exact absurd ht (counted_of_refused h')

theorem Careful.verify {d : Draws} {c : LoginCall} {row : User}
    (hK : Careful S email P (.run pid d)) (hrow : P.shared.db.findUser email = some row)
    (hcall : P.threads pid = some c) :
    ∀ user password, c.st = .verifying user password →
      S.verifyPassword user.passwordHash password = false ∧
        user.failedLoginCount = row.failedLoginCount := by
  intro user password hc
  have hfalse := hK.1 c user password hcall hc
  obtain ⟨⟨row', hrow', hcount⟩, -⟩ := hK.2 c user password hcall hc hfalse
  rw [hrow] at hrow'
  obtain rfl := Option.some.inj hrow'
  exact ⟨hfalse, hcount.symm⟩

/-- The row of the account, and what the calls assert of it. -/
def Tracked (email : String) (P : LoginPool) : Prop :=
  ∃ row, P.shared.db.findUser email = some row ∧
    ∀ pid c, P.threads pid = some c → c.Tracks email row

/-- A wrong password that is in the row. -/
def Counted (call : Option LoginCall) : Prop :=
  ∃ c, call = some c ∧ c.verified = some false ∧ ¬ Uncounted call

theorem not_counted_of_none {st : LoginState} {verified : Option Bool} {Q : Prop}
    (h : verified = none) (hc : Counted (some ⟨st, verified⟩)) : Q := by
  obtain ⟨c, hcall, hfalse, -⟩ := hc
  cases hcall
  rw [h] at hfalse
  cases hfalse

/-- What one statement leaves of the row, and what its call asserts then. -/
theorem step_tracks {c c' : LoginCall} {row : User} (hrow : s.db.findUser email = some row)
    (hc : c.Tracks email row)
    (hverify : ∀ user password, c.st = .verifying user password →
      S.verifyPassword user.passwordHash password = false ∧
        user.failedLoginCount = row.failedLoginCount)
    (h : LoginStep S s c s' c') :
    (s'.db.users = s.db.users ∧ c'.Tracks email row ∧ (Counted (some c') → Counted (some c))) ∨
      (∃ user, c.st = .counting user ∧ c'.st.Refused) ∧
        ∃ row', s'.db.findUser email = some row' ∧ row'.id = row.id ∧
          row'.failedLoginCount = row.failedLoginCount + 1 ∧
          (row'.lockedUntil = none → row'.failedLoginCount < maxFailedLoginAttempts) := by
  cases h with
  | read h =>
    obtain ⟨rfl, hnone⟩ := hc
    obtain rfl := Option.some.inj (hrow.symm.trans h)
    exact .inl ⟨rfl, ⟨rfl, hnone⟩, not_counted_of_none hnone⟩
  | verify =>
    rename_i user password verified
    obtain ⟨hwrong, hcount⟩ := hverify user password rfl
    refine .inl ⟨rfl, ?_, ?_⟩
    · simp only [hwrong]
      exact ⟨hc.1, hcount, rfl⟩
    · rintro ⟨-, -, -, hnot⟩
      refine absurd ⟨_, user, rfl, ?_⟩ hnot
      simp [hwrong]
  | count hrefused =>
    rename_i user verified st
    obtain ⟨hid, hcount, -⟩ := hc
    obtain ⟨row', hrow', hid', hcount', hlock⟩ := findUser_countFailure hrow hid
    refine .inr ⟨⟨user, rfl, hrefused⟩, row', hrow', hid', hcount'.trans (by rw [hcount]), ?_⟩
    rw [hcount']
    exact hlock
  | missing h =>
    obtain ⟨hid, -⟩ := hc
    rw [hid, findUser_id hrow] at h
    cases h
  | refuse h h' husers =>
    refine .inl ⟨husers, tracks_of_refused h' row, ?_⟩
    rcases h with ⟨email', password, rfl⟩ | h
    · exact not_counted_of_none hc.2
    · rintro ⟨_, hcall, hfalse, -⟩
      cases hcall
      exact ⟨_, rfl, hfalse, counted_of_refused h⟩
  | succeed h h' => exact absurd h hc.not_succeeding

theorem LoginStarts.tracked (h0 : LoginStarts email user P₀)
    (hr : Reach (logins S).system (Careful S email) P₀ P) : Tracked email P := by
  refine hr.inv (Tracked email) ?_ ?_
  · refine ⟨user, h0.account, fun pid c hcall => ?_⟩
    obtain ⟨password, rfl⟩ := h0.calls pid c hcall
    exact ⟨rfl, rfl⟩
  · rintro P a P' hP ⟨row, hrow, hcalls⟩ hK hst
    cases a with
    | env x =>
      obtain rfl := Machine.env_eq_some.1 hst
      obtain ⟨row', hrow', hcolumns⟩ := findUser_beside x hrow
      exact ⟨row', hrow', fun pid c hcall => (hcalls pid c hcall).congr hcolumns⟩
    | run pid d =>
      obtain ⟨s, t, hth, rfl⟩ := Machine.run_eq_some.1 hst
      obtain ⟨c, c', hcall, rfl, hstep⟩ := thread_step hth
      rcases step_tracks hrow (hcalls pid c hcall) (hK.verify hrow hcall) hstep with
        ⟨husers, hc', -⟩ | ⟨⟨user, hc, hc'⟩, row', hrow', hid, -⟩
      · refine ⟨row, ?_, fun other x hx => ?_⟩
        · simp only [Db.findUser, husers]
          exact hrow
        · by_cases hne : other = pid
          · subst hne
            simp only [Function.update_self, Option.some.injEq] at hx
            rw [← hx]
            exact hc'
          · simp only [Function.update_of_ne hne] at hx
            exact hcalls other x hx
      · refine ⟨row', hrow', fun other x hx => ?_⟩
        by_cases hne : other = pid
        · subst hne
          simp only [Function.update_self, Option.some.injEq] at hx
          rw [← hx]
          exact tracks_of_refused hc' row'
        · simp only [Function.update_of_ne hne] at hx
          refine (hcalls other x hx).other hid fun huncounted => hne ?_
          exact h0.one hP other pid (hx ▸ huncounted) ⟨c, user, hcall, hc⟩

/-! ## The result -/

/-- The counter of the account. -/
def failures (email : String) (s : AuthStore) : Nat :=
  ((s.db.findUser email).map User.failedLoginCount).getD 0

theorem failures_eq {row : User} (h : s.db.findUser email = some row) :
    failures email s = row.failedLoginCount := by
  rw [failures, h]
  rfl

/-- A step of a careful run. -/
theorem LoginStarts.run_step (h0 : LoginStarts email user P₀)
    (hr : Reach (logins S).system (Careful S email) P₀ P) {d : Draws}
    (hK : Careful S email P (.run pid d)) {t : Option LoginCall} {row : User}
    (hrow : P.shared.db.findUser email = some row)
    (hth : (logins S).thread pid d P.shared (P.threads pid) = some (s, t)) :
    (s.db.users = P.shared.db.users ∧ (Counted t → Counted (P.threads pid))) ∨
      ∃ row', s.db.findUser email = some row' ∧
        row'.failedLoginCount = row.failedLoginCount + 1 ∧
        (row'.lockedUntil = none → row'.failedLoginCount < maxFailedLoginAttempts) := by
  obtain ⟨c, c', hcall, rfl, hstep⟩ := thread_step hth
  obtain ⟨row', hrow', hcalls⟩ := h0.tracked hr
  rw [hrow] at hrow'
  obtain rfl := Option.some.inj hrow'
  rcases step_tracks hrow (hcalls pid c hcall) (hK.verify hrow hcall) hstep with
    ⟨husers, -, hback⟩ | ⟨-, row', hrow', -, hcount, hlock⟩
  · rw [hcall]
    exact .inl ⟨husers, hback⟩
  · exact .inr ⟨row', hrow', hcount, hlock⟩

/-- Every counted failure is in the row. -/
theorem LoginStarts.counted (h0 : LoginStarts email user P₀)
    (hr : Reach (logins S).system (Careful S email) P₀ P) (A : Finset Nat) (hA : P.All Counted A) :
    user.failedLoginCount + A.card ≤ failures email P.shared := by
  rw [← failures_eq h0.account]
  refine hr.counts Counted (failures email) ?_ ?_ ?_ A hA
  · intro pid hcounted
    cases hcall : P₀.threads pid with
    | none =>
      rw [hcall] at hcounted
      obtain ⟨c, hc, -⟩ := hcounted
      cases hc
    | some c =>
      obtain ⟨password, rfl⟩ := h0.calls pid c hcall
      rw [hcall] at hcounted
      exact not_counted_of_none rfl hcounted
  · intro P x hP _
    obtain ⟨row, hrow, -⟩ := h0.tracked hP
    obtain ⟨row', hrow', hcolumns⟩ := findUser_beside x hrow
    obtain ⟨-, -, hcount, -⟩ := LockColumns.mk.inj hcolumns
    rw [failures_eq hrow, failures_eq (s := (logins S).env x P.shared) hrow', hcount]
  · intro P pid d s t hP hK hth
    obtain ⟨row, hrow, -⟩ := h0.tracked hP
    rcases h0.run_step hP hK hrow hth with ⟨husers, hback⟩ | ⟨row', hrow', hcount, -⟩
    · have hsame : failures email s = failures email P.shared := by
        simp only [failures, Db.findUser, husers]
      exact ⟨hsame.ge, fun ht => .inl (hback ht)⟩
    · rw [failures_eq hrow, failures_eq hrow', hcount]
      exact ⟨Nat.le_succ _, fun _ => .inr (Nat.lt_succ_self _)⟩

/-- Five failures lock the account. -/
theorem LoginStarts.below (h0 : LoginStarts email user P₀) (hzero : user.failedLoginCount = 0)
    (hr : Reach (logins S).system (Careful S email) P₀ P) :
    ∀ row, P.shared.db.findUser email = some row → row.lockedUntil = none →
      row.failedLoginCount < maxFailedLoginAttempts := by
  refine hr.inv (fun P => ∀ row, P.shared.db.findUser email = some row → row.lockedUntil = none →
    row.failedLoginCount < maxFailedLoginAttempts) ?_ ?_
  · intro row hrow _
    rw [h0.account] at hrow
    obtain rfl := Option.some.inj hrow
    rw [hzero]
    decide
  · intro P a P' hP ih hK hst row' hrow' hnone
    obtain ⟨row, hrow, -⟩ := h0.tracked hP
    cases a with
    | env x =>
      obtain rfl := Machine.env_eq_some.1 hst
      obtain ⟨row'', hrow'', hcolumns⟩ := findUser_beside x hrow
      obtain rfl := Option.some.inj (hrow'.symm.trans hrow'')
      obtain ⟨-, -, hcount, hlocked⟩ := LockColumns.mk.inj hcolumns
      rw [hcount]
      exact ih row hrow (hlocked.symm.trans hnone)
    | run pid d =>
      obtain ⟨s, t, hth, rfl⟩ := Machine.run_eq_some.1 hst
      rcases h0.run_step hP hK hrow hth with ⟨husers, -⟩ | ⟨row'', hrow'', -, hlock⟩
      · refine ih row' ?_ hnone
        simp only [Db.findUser, husers] at hrow'
        exact hrow'
      · obtain rfl := Option.some.inj (hrow'.symm.trans hrow'')
        exact hlock hnone

/-- In the runs in which wrong passwords are found one at a time, on the row as it is, every failure
is in the row, and at most five are found before the account is locked. -/
theorem counts_failures (h0 : LoginStarts email user P₀) :
    CountsFailures S (Careful S email) email user P₀ where
  counted P A hr hA := by
    obtain ⟨row, hrow, -⟩ := h0.tracked hr
    refine ⟨row, hrow, ?_⟩
    rw [← failures_eq hrow]
    refine h0.counted hr A fun pid hpid => ?_
    obtain ⟨c, r, hcall, hwrong, hover⟩ := hA pid hpid
    refine ⟨c, hcall, hwrong, ?_⟩
    rw [hcall]
    refine counted_of_refused ?_
    rw [hover]
    trivial
  limited hzero _ P A row hr hrow hnone hA := by
    have hbelow : row.failedLoginCount < 5 := h0.below hzero hr row hrow hnone
    -- all of them are in the row, but the one on its way
    have hall : ∀ B ⊆ A, (∀ pid ∈ B, ¬ Uncounted (P.threads pid)) → B.card ≤ row.failedLoginCount := by
      intro B hB hcounted
      have hle := h0.counted hr B fun pid hpid => by
        obtain ⟨c, hcall, hwrong⟩ := hA pid (hB hpid)
        exact ⟨c, hcall, hwrong, hcounted pid hpid⟩
      rw [failures_eq hrow] at hle
      omega
    show A.card ≤ 5
    by_cases hone : ∃ pid ∈ A, Uncounted (P.threads pid)
    · obtain ⟨pid, hpid, huncounted⟩ := hone
      have hrest := hall (A.erase pid) (Finset.erase_subset _ _) fun other hother hu =>
        (Finset.mem_erase.1 hother).1 (h0.one hr other pid hu huncounted)
      have hcard := Finset.card_erase_add_one hpid
      omega
    · have hevery := hall A (Finset.Subset.refl A) fun pid hpid hu => hone ⟨pid, hpid, hu⟩
      omega

/-! ## Two guesses at once -/

def guessServices : Services where
  toAuthEnv := sampleEnv
  hashPassword password := password
  verifyPassword passwordHash password := passwordHash == password
  verifyCode _ _ := none

def guessDraws : Draws where
  token := ⟨20, 2⟩
  familyId := 8
  userId := 9
  authTokenId := 10
  rawAuthToken := 30
  unusablePassword := ""

/-- Two calls with wrong passwords for the sample user. -/
def guesses : LoginPool where
  shared := { db := sampleDb, lock := fun _ => none }
  threads pid := if pid < 2 then some { st := .finding "a@b.sn" "wrong" } else none

theorem guesses_starts : LoginStarts "a@b.sn" sampleUser guesses where
  calls pid c h := by
    by_cases hpid : pid < 2
    · have hcall : some { st := .finding "a@b.sn" "wrong" } = some c := (if_pos hpid).symm.trans h
      exact ⟨"wrong", (Option.some.inj hcall).symm⟩
    · cases (if_neg hpid).symm.trans h
  account := rfl
  active := rfl

theorem counts_failures_sample :
    CountsFailures guessServices (Careful guessServices "a@b.sn") "a@b.sn" sampleUser guesses :=
  counts_failures guesses_starts

def failedLogin : Option LoginCall → Bool
  | some ⟨.finished _, some false⟩ => true
  | _ => false

theorem failedLogin_iff {call : Option LoginCall} : failedLogin call = true ↔ FailedLogin call := by
  constructor
  · intro h
    unfold failedLogin at h
    split at h
    · exact ⟨_, _, rfl, rfl, rfl⟩
    · cases h
  · rintro ⟨⟨st, verified⟩, r, rfl, hwrong, hover⟩
    obtain rfl : verified = some false := hwrong
    obtain rfl : st = .finished r := hover
    rfl

/-- The password that the step finds is a wrong one. -/
def wrongPassword (S : Services) (P : LoginPool) : Act Draws Beside → Bool
  | .run pid _ => match P.threads pid with
    | some ⟨.verifying user password, _⟩ => !S.verifyPassword user.passwordHash password
    | _ => true
  | .env _ => true

/-- Both calls read the counter at 0, and both write 1. -/
theorem lost_failure : LoginStarts "a@b.sn" sampleUser guesses ∧
    ¬ CountsFailures guessServices (NoSuccess guessServices) "a@b.sn" sampleUser guesses := by
  refine ⟨guesses_starts, fun h => ?_⟩
  have hrun : (exec (logins guessServices).system (wrongPassword guessServices) guesses
      [.run 0 guessDraws, .run 1 guessDraws, .run 0 guessDraws, .run 1 guessDraws,
        .run 0 guessDraws, .run 0 guessDraws, .run 1 guessDraws, .run 1 guessDraws]).map
      (fun P => (failedLogin (P.threads 0), failedLogin (P.threads 1), failures "a@b.sn" P.shared)) =
      some (true, true, 1) := by
    decide +kernel
  obtain ⟨P, hP, hres⟩ := Option.map_eq_some_iff.1 hrun
  obtain ⟨hfirst, hsecond, hfailures⟩ : failedLogin (P.threads 0) = true ∧
      failedLogin (P.threads 1) = true ∧ failures "a@b.sn" P.shared = 1 := by
    simpa [Prod.ext_iff] using hres
  have hreach := Reach.of_exec (C := NoSuccess guessServices) _ (fun P a ha => ?_) _ hP
  · obtain ⟨row, hrow, hcount⟩ := h.counted P {0, 1} hreach fun pid hpid => by
      rcases Finset.mem_insert.1 hpid with rfl | hpid
      · exact failedLogin_iff.1 hfirst
      · rw [Finset.mem_singleton.1 hpid]
        exact failedLogin_iff.1 hsecond
    rw [failures_eq hrow] at hfailures
    rw [hfailures] at hcount
    exact absurd hcount (by decide)
  · cases a with
    | env x => trivial
    | run pid d =>
      rintro ⟨st, verified⟩ user password hcall rfl
      simpa [wrongPassword, hcall] using ha

end Gescom.Auth
