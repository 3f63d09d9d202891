import Gescom.Auth.Login

/-!
# One-time links, statement by statement

`requestPasswordReset` and `verifyEmail` (`account-recovery.service.ts`) and `acceptInvitation`
(`invitations.service.ts:102`), beside `resetPassword` (`ResetState`). A link is found valid by a
read before the transaction that consumes it, and the update that consumes it does not look at it
again. An array given to `$transaction` is built before the transaction begins, with the dates in
it. `accept_alone`: without overlap the statements compute `Auth.acceptInvitation`.
-/

namespace Gescom.Auth

open ReadCommitted Transition

def passwordResetTtlMs : Nat := 60 * 60000

def linkRefused : ApiError := .unauthorized "Jeton invalide ou expiré"

/-! ## `requestPasswordReset` (`account-recovery.service.ts:33`) -/

/-- `where: { userId, type: PASSWORD_RESET, consumedAt: null }`. -/
def AuthToken.pendingReset (userId : Uuid) (t : AuthToken) : Bool :=
  t.userId == userId && t.type == .passwordReset && t.consumedAt.isNone

def Db.pendingResets (db : Db) (userId : Uuid) : List Uuid :=
  (db.authTokens.rows.filter (AuthToken.pendingReset userId)).map AuthToken.id

/-- `updateMany` takes the rows it matches one by one: it waits for each, and looks at it again. -/
inductive RequestState where
  | finding (email : String)
  | matching (user : User) (now : Instant) (rawToken : RawToken)
  | invalidating (user : User) (now : Instant) (rawToken : RawToken) (pending matched : List Uuid)
  | creating (user : User) (now : Instant) (rawToken : RawToken) (matched : List Uuid)
  | committing (user : User) (now : Instant) (rawToken : RawToken) (matched : List Uuid)
    (authToken : AuthToken)
  | mailing (user : User) (rawToken : RawToken)
  | auditing (user : User)
  | finished

theorem AuthToken.consumed_id (now : Instant) (t : AuthToken) :
    { t with consumedAt := some now }.id = t.id := rfl

def Db.consumeAll (matched : List Uuid) (now : Instant) (db : Db) : Db :=
  { db with
    authTokens := db.authTokens.updateWhere (fun t => matched.contains t.id)
      (fun t => { t with consumedAt := some now }) (AuthToken.consumed_id now) }

def Db.commitRequest (now : Instant) (matched : List Uuid) (authToken : AuthToken) (db : Db) : Db :=
  { db.consumeAll matched now with
    authTokens := (db.consumeAll matched now).authTokens.insert authToken }

def RequestState.step (E : AuthEnv) (pid : Nat) (d : Draws) (s : AuthStore) :
    RequestState → Option (AuthStore × RequestState)
  | finding email =>
    match s.db.findUser email with
    | none => some (s, finished)
    | some user => some (s, matching user s.db.now d.rawAuthToken)
  | matching user now rawToken =>
    some (s, invalidating user now rawToken (s.db.pendingResets user.id) [])
  | invalidating user now rawToken [] matched => some (s, creating user now rawToken matched)
  | invalidating user now rawToken (id :: pending) matched =>
    if s.free pid (.authToken id) then
      if (s.db.authTokens.find? id).any (AuthToken.pendingReset user.id) then
        some (s.acquire pid (.authToken id),
          invalidating user now rawToken pending (id :: matched))
      else some (s, invalidating user now rawToken pending matched)
    else none
  | creating user now rawToken matched =>
    let authToken : AuthToken :=
      { id := d.authTokenId, userId := user.id, type := .passwordReset,
        tokenHash := E.hashToken rawToken, expiresAt := now + passwordResetTtlMs }
    if (s.db.authTokens.find? authToken.id).isNone &&
        (s.db.findAuthToken authToken.tokenHash).isNone then
      some (s, committing user now rawToken matched authToken)
    else none
  | committing user now rawToken matched authToken =>
    some (s.commit pid (Db.commitRequest now matched authToken), mailing user rawToken)
  | mailing user _ => some (s, auditing user)
  | auditing user =>
    some (s.autocommit (Db.record (userLog .passwordResetRequested user)), finished)
  | finished => none

/-! ## `verifyEmail` (`account-recovery.service.ts:123`) -/

inductive VerifyState where
  | finding (rawToken : RawToken)
  | consuming (authToken : AuthToken) (now : Instant)
  | updatingUser (authToken : AuthToken) (now : Instant)
  | committing (authToken : AuthToken) (now : Instant)
  | auditing (authToken : AuthToken)
  | finished (r : Except ApiError Unit)

def Db.commitVerify (authToken : AuthToken) (now : Instant) (db : Db) : Db :=
  (db.consumeAuthToken authToken.id now).updateUser authToken.userId
    (fun u => { u with emailVerifiedAt := some now }) fun _ => rfl

def VerifyState.step (E : AuthEnv) (pid : Nat) (s : AuthStore) :
    VerifyState → Option (AuthStore × VerifyState)
  | finding rawToken =>
    match s.db.findValidToken (E.hashToken rawToken) .emailVerification with
    | none => some (s, finished (.error linkRefused))
    | some authToken => some (s, consuming authToken s.db.now)
  | consuming authToken now =>
    if s.free pid (.authToken authToken.id) then
      match s.db.authTokens.find? authToken.id with
      | none => some (s.release pid, finished (.error (.prisma .p2025)))
      | some _ => some (s.acquire pid (.authToken authToken.id), updatingUser authToken now)
    else none
  | updatingUser authToken now =>
    if s.free pid (.user authToken.userId) then
      match s.db.users.find? authToken.userId with
      | none => some (s.release pid, finished (.error (.prisma .p2025)))
      | some _ => some (s.acquire pid (.user authToken.userId), committing authToken now)
    else none
  | committing authToken now =>
    some (s.commit pid (Db.commitVerify authToken now), auditing authToken)
  | auditing authToken =>
    some (s.autocommit (Db.record
      { action := .emailVerified, resource := "User", resourceId := some authToken.userId,
        userId := some authToken.userId }), finished (.ok ()))
  | finished _ => none

/-! ## `acceptInvitation` (`invitations.service.ts:102`) -/

/-- `user` is the row that `tx.user.update` returns. -/
inductive AcceptState where
  | finding (rawToken : RawToken) (passwordHash : String)
  | consuming (authToken : AuthToken) (passwordHash : String)
  | updatingUser (authToken : AuthToken) (passwordHash : String) (consumedAt : Instant)
  | committing (authToken : AuthToken) (passwordHash : String) (consumedAt now : Instant)
    (user : User)
  | auditing (user : User)
  | issuing (user : User)
  | finished (r : Except ApiError Result)

def Db.commitAccept (authToken : AuthToken) (passwordHash : String) (consumedAt now : Instant)
    (db : Db) : Db :=
  (db.consumeAuthToken authToken.id consumedAt).updateUser authToken.userId
    (User.activate passwordHash now) fun _ => rfl

def AcceptState.step (E : AuthEnv) (pid : Nat) (d : Draws) (s : AuthStore) :
    AcceptState → Option (AuthStore × AcceptState)
  | finding rawToken passwordHash =>
    match s.db.findValidToken (E.hashToken rawToken) .invitation with
    | none => some (s, finished (.error linkRefused))
    | some authToken => some (s, consuming authToken passwordHash)
  | consuming authToken passwordHash =>
    if s.free pid (.authToken authToken.id) then
      match s.db.authTokens.find? authToken.id with
      | none => some (s.release pid, finished (.error (.prisma .p2025)))
      | some _ =>
        some (s.acquire pid (.authToken authToken.id),
          updatingUser authToken passwordHash s.db.now)
    else none
  | updatingUser authToken passwordHash consumedAt =>
    if s.free pid (.user authToken.userId) then
      match s.db.users.find? authToken.userId with
      | none => some (s.release pid, finished (.error (.prisma .p2025)))
      | some user =>
        some (s.acquire pid (.user authToken.userId),
          committing authToken passwordHash consumedAt s.db.now
            (user.activate passwordHash s.db.now))
    else none
  | committing authToken passwordHash consumedAt now user =>
    some (s.commit pid (Db.commitAccept authToken passwordHash consumedAt now), auditing user)
  | auditing user =>
    some (s.autocommit (Db.record (userLog .invitationAccepted user)), issuing user)
  | issuing user =>
    some (s.autocommit fun db => (issueTokenPair E user d db).1,
      finished (.ok (.pair ⟨signAccessToken user, d.token.rawToken⟩)))
  | finished _ => none

/-! ## The system -/

/-- A call in progress; a `thrown` one died at one of its statements. -/
inductive LinkState where
  | requestPasswordReset (st : RequestState)
  | resetPassword (st : ResetState)
  | verifyEmail (st : VerifyState)
  | acceptInvitation (st : AcceptState)
  | thrown

def LinkState.returned : LinkState → Bool
  | requestPasswordReset .finished | resetPassword (.finished _) | verifyEmail (.finished _)
  | acceptInvitation (.finished _) | thrown => true
  | _ => false

def LinkState.step (E : AuthEnv) (pid : Nat) (d : Draws) (s : AuthStore) :
    LinkState → Option (AuthStore × LinkState)
  | requestPasswordReset st => (st.step E pid d s).map (Prod.map id requestPasswordReset)
  | resetPassword st => (st.step E pid s).map (Prod.map id resetPassword)
  | verifyEmail st => (st.step E pid s).map (Prod.map id verifyEmail)
  | acceptInvitation st => (st.step E pid d s).map (Prod.map id acceptInvitation)
  | thrown => none

/-- The link whose effect the statement at hand commits. -/
def LinkState.commits : LinkState → Option Uuid
  | resetPassword (.committing authToken _ _ _) => some authToken.id
  | verifyEmail (.committing authToken _) => some authToken.id
  | acceptInvitation (.committing authToken _ _ _ _) => some authToken.id
  | _ => none

/-- A call, and the link whose effect it has committed. -/
structure LinkCall where
  st : LinkState
  effect : Option Uuid := none

inductive LinkInput where
  | proceed (d : Draws)
  | fail

def LinkCall.step (E : AuthEnv) (pid : Nat) (i : LinkInput) (s : AuthStore) (c : LinkCall) :
    Option (AuthStore × LinkCall) :=
  match i with
  | .fail => if c.st.returned then none else some (s.release pid, { c with st := .thrown })
  | .proceed d =>
    (c.st.step E pid d s).map fun r => (r.1, { st := r.2, effect := c.st.commits <|> c.effect })

/-- A change from outside: time passes, users change, links of the other kinds are sent. -/
structure Around where
  apply : Db → Db
  now : ∀ db, db.now ≤ (apply db).now
  kept : ∀ db id t, db.authTokens.find? id = some t → (apply db).authTokens.find? id = some t
  sent : ∀ db id t, (apply db).authTokens.find? id = some t →
    db.authTokens.find? id = some t ∨ t.type ≠ .passwordReset

/-- Any number of calls of the four operations. -/
def links (E : AuthEnv) : Machine AuthStore (Option LinkCall) LinkInput Around where
  thread pid i s call := call.bind fun c => (c.step E pid i s).map fun r => (r.1, some r.2)
  env x s := s.autocommit x.apply

abbrev LinkPool := Pool AuthStore (Option LinkCall)

/-! ## `acceptInvitation` alone -/

theorem accept_alone (S : Services) (pid : Nat) (rawToken : RawToken) (password : String)
    (d : Draws) (db : Db) :
    alone (fun s st => AcceptState.step S.toAuthEnv pid d s st) 6 (unlocked db)
        (.finding rawToken (S.hashPassword password)) =
      (unlocked (acceptInvitation S rawToken password d db).1,
        .finished (acceptInvitation S rawToken password d db).2) := by
  have halone : (unlocked db).Alone pid := fun _ => .inl rfl
  cases hfind : db.findValidToken (S.hashToken rawToken) .invitation with
  | none => simp [alone, AcceptState.step, acceptInvitation, hfind, linkRefused]
  | some a =>
    have hfound : AcceptState.step S.toAuthEnv pid d (unlocked db)
        (.finding rawToken (S.hashPassword password)) =
        some (unlocked db, .consuming a (S.hashPassword password)) := by
      simp [AcceptState.step, hfind]
    have htoken : db.authTokens.find? a.id = some a := by
      simp only [Db.findValidToken, Option.filter_eq_some_iff] at hfind
      exact Table.find?_of_findBy hfind.1
    have hconsume : AcceptState.step S.toAuthEnv pid d (unlocked db)
        (.consuming a (S.hashPassword password)) =
        some ((unlocked db).acquire pid (.authToken a.id),
          .updatingUser a (S.hashPassword password) db.now) := by
      simp [AcceptState.step, htoken]
    have h' := halone.acquire (.authToken a.id)
    rw [alone_succ hfound, alone_succ hconsume]
    cases huser : db.users.find? a.userId with
    | none =>
      have hmissing : AcceptState.step S.toAuthEnv pid d
          ((unlocked db).acquire pid (.authToken a.id))
          (.updatingUser a (S.hashPassword password) db.now) =
          some (((unlocked db).acquire pid (.authToken a.id)).release pid,
            .finished (.error (.prisma .p2025))) := by
        simp [AcceptState.step, h'.free, huser]
      rw [alone_succ hmissing, h'.release]
      simp [alone, AcceptState.step, acceptInvitation, hfind, huser, unlocked]
    | some user =>
      have hupdate : AcceptState.step S.toAuthEnv pid d
          ((unlocked db).acquire pid (.authToken a.id))
          (.updatingUser a (S.hashPassword password) db.now) =
          some (((unlocked db).acquire pid (.authToken a.id)).acquire pid (.user a.userId),
            .committing a (S.hashPassword password) db.now db.now
              (user.activate (S.hashPassword password) db.now)) := by
        simp [AcceptState.step, h'.free, huser]
      have hcommit := (h'.acquire (.user a.userId)).commit
        (Db.commitAccept a (S.hashPassword password) db.now db.now)
      rw [alone_succ hupdate]
      simp only [alone, AcceptState.step, hcommit, acceptInvitation, hfind, huser]
      rfl

end Gescom.Auth
