import Gescom.Auth.Effects

/-!
# One browser, many tabs

Every mount of `AuthProvider` (`auth-provider.tsx:48`) posts to the route handler
(`api/session/refresh/route.ts`), which presents the cookie it was sent with and replaces or deletes
the cookie with its response. The tabs share the cookie, so two requests may carry the same token;
the one that reads it after the other has rotated it looks like a thief (`two_tabs`). Any error of the
API deletes the cookie, the refusals of its rate limiter too; an answer that is not JSON leaves it as
it is. Thirty days after it was set it is gone.
-/

namespace Gescom.Auth

open ReadCommitted Transition

structure Browser where
  api : AuthStore
  cookie : Option RawToken
  cookieExpires : Instant

abbrev Browser.db (b : Browser) : Db := b.api.db

/-- `REFRESH_TOKEN_MAX_AGE_SECONDS`, in milliseconds. -/
def refreshTokenMaxAgeMs : Nat := 30 * 24 * 3600000

def Browser.setRefreshTokenCookie (token : RawToken) (b : Browser) : Browser :=
  { b with cookie := some token, cookieExpires := b.db.now + refreshTokenMaxAgeMs }

def Browser.clearRefreshTokenCookie (b : Browser) : Browser := { b with cookie := none }

/-- Time passes, also for the cookie. -/
def Browser.tick (d : Nat) (b : Browser) : Browser :=
  { b with
    api := b.api.autocommit fun db => { db with now := db.now + d }
    cookie := if b.db.now + d ≤ b.cookieExpires then b.cookie else none }

/-- One mount of `AuthProvider`: its request to the route handler, and the call that makes. -/
inductive Mount where
  | unmounted
  | withoutCookie
  | requesting (carried : RawToken) (st : RefreshState)
  | answered (r : Except ApiError AccessToken)

/-- What a request meets on its way. -/
inductive MountInput where
  /-- Its next step succeeds; a statement that creates a row is given the row's values. -/
  | proceed (new : Draw)
  /-- The API answers with an error that `AuthService.refresh` does not decide: the limiter of
  `AuthController` refuses the request, or a statement of the call fails. -/
  | refused (e : ApiError)
  /-- The answer of the API has no JSON body: `res.json()` throws before the cookie is touched. -/
  | unreadable
  /-- `fetchCurrentUser` throws once the cookie is set; the framework sends it nonetheless or not. -/
  | userFails (cookieSent : Bool)

/-- `POST /api/session/refresh`: the cookie is read when the request is sent and written when the
response is received. -/
def Mount.step (E : AuthEnv) (pid : Nat) (input : MountInput) (b : Browser) :
    Mount → Option (Browser × Mount)
  | unmounted =>
    match b.cookie with
    | none => some (b, withoutCookie)
    | some carried => some (b, requesting carried (.finding carried))
  | withoutCookie => some (b, answered (.error (.unauthorized "Aucune session active")))
  | requesting _ (.finished _ r) =>
    match input, r with
    | .unreadable, _ => some (b, answered (.error (.internal "SyntaxError")))
    | _, .error e => some (b.clearRefreshTokenCookie, answered (.error e))
    | .userFails cookieSent, .ok pair =>
      some (if cookieSent then b.setRefreshTokenCookie pair.refreshToken else b,
        answered (.error (.internal "Impossible de récupérer le profil utilisateur")))
    | _, .ok pair => some (b.setRefreshTokenCookie pair.refreshToken, answered (.ok pair.accessToken))
  | requesting carried st =>
    match input with
    | .proceed new =>
      (st.step E pid new b.api).map fun r => ({ b with api := r.1 }, requesting carried r.2)
    | .refused e => some (b, requesting carried (.finished none (.error e)))
    | .unreadable | .userFails _ => none
  | answered _ => none

/-- Any number of mounts; around them, time passes. -/
def tabs (E : AuthEnv) : Machine Browser Mount MountInput Nat where
  thread pid input b m := m.step E pid input b
  env d b := b.tick d

abbrev Tabs := Pool Browser Mount

inductive MountStep (E : AuthEnv) (b : Browser) (input : MountInput) :
    Mount → Browser → Mount → Prop
  | sendNone (h : b.cookie = none) : MountStep E b input .unmounted b .withoutCookie
  | send {carried} (h : b.cookie = some carried) :
      MountStep E b input .unmounted b (.requesting carried (.finding carried))
  | refuse : MountStep E b input .withoutCookie b
    (.answered (.error (.unauthorized "Aucune session active")))
  | call {new carried st api st'} (hi : input = .proceed new)
      (h : RefreshStep E b.api new st api st') :
      MountStep E b input (.requesting carried st) { b with api } (.requesting carried st')
  | refused {carried st e} (hi : input = .refused e) : MountStep E b input (.requesting carried st) b
    (.requesting carried (.finished none (.error e)))
  | receive {carried e pair} : MountStep E b input (.requesting carried (.finished e (.ok pair)))
      (b.setRefreshTokenCookie pair.refreshToken) (.answered (.ok pair.accessToken))
  | unreadable {carried e r} (hi : input = .unreadable) :
      MountStep E b input (.requesting carried (.finished e r)) b
        (.answered (.error (.internal "SyntaxError")))
  | userFails {sent carried e pair} (hi : input = .userFails sent) :
      MountStep E b input (.requesting carried (.finished e (.ok pair)))
        (if sent then b.setRefreshTokenCookie pair.refreshToken else b)
        (.answered (.error (.internal "Impossible de récupérer le profil utilisateur")))
  | receiveError {carried e err} : MountStep E b input
    (.requesting carried (.finished e (.error err)))
      b.clearRefreshTokenCookie (.answered (.error err))

theorem mount_step {E : AuthEnv} {pid : Nat} {input : MountInput} {b b' : Browser} {m m' : Mount}
    (h : (tabs E).thread pid input b m = some (b', m')) : MountStep E b input m b' m' := by
  cases m with
  | unmounted =>
    simp only [tabs, Mount.step] at h
    split at h <;> cases h
    · exact .sendNone ‹_›
    · exact .send ‹_›
  | withoutCookie => cases h; exact .refuse
  | answered r => cases h
  | requesting carried st =>
    cases st with
    | finished e r =>
      cases input with
      | unreadable => cases h; exact .unreadable rfl
      | userFails sent =>
        cases r with
        | error err => cases h; exact .receiveError
        | ok pair => cases h; exact .userFails rfl
      | proceed new | refused err =>
        cases r with
        | error err => cases h; exact .receiveError
        | ok pair => cases h; exact .receive
    | _ =>
      cases input with
      | unreadable | userFails sent => cases h
      | refused err => cases h; exact .refused rfl
      | proceed new =>
        simp only [tabs, Mount.step, Option.map_eq_some_iff, Prod.exists, Prod.mk.injEq] at h
        obtain ⟨api, st', hst, rfl, rfl⟩ := h
        exact .call rfl (refresh_step hst)

/-! ## What must hold -/

def Mount.InFlight : Mount → Prop
  | requesting _ _ => True
  | withoutCookie => True
  | _ => False

/-- The call has taken the reuse-detection branch. -/
def Mount.Accused (m : Mount) : Prop :=
  ∃ carried e, m = requesting carried (.revoking .reuse e) ∨
    m = requesting carried (.auditing .reuse e)

/-- In the runs whose steps meet `K`, the browser is never taken for a thief and keeps its
session. -/
structure NeverThief (E : AuthEnv) (f : Uuid) (K : Tabs → Act MountInput Nat → Prop)
    (T₀ : Tabs) : Prop where
  not_accused : ∀ T pid, Reach (tabs E).system K T₀ T → ¬ (T.threads pid).Accused
  cookie : ∀ T, Reach (tabs E).system K T₀ T → (∀ pid, ¬ (T.threads pid).InFlight) →
    ∃ raw t, T.shared.cookie = some raw ∧ T.shared.db.findRefreshToken (E.hashToken raw) = some t ∧
      t.familyId = f ∧ t.status = .active

/-- The session stays valid: time does not run past the expiry of its `ACTIVE` tokens. -/
def ValidSession (f : Uuid) (T : Tabs) : Act MountInput Nat → Prop
  | .run _ _ => True
  | .env d => ∀ id t, T.shared.db.token? id = some t → t.familyId = f → t.status = .active →
      T.shared.db.now + d ≤ t.expiresAt

/-- The request is not refused, its answer can be read, and the new cookie reaches the browser. -/
def MountInput.Served : MountInput → Prop
  | proceed _ => True
  | refused _ | unreadable => False
  | userFails cookieSent => cookieSent = true

/-- Requests are served before the cookie is too old; none is sent with a token that is already
rotated, and no token is rotated while another request that carries it has yet to read it. -/
def NoStaleRequest (E : AuthEnv) (f : Uuid) (T : Tabs) (a : Act MountInput Nat) : Prop :=
  ValidSession f T a ∧
    match a with
    | .env d => T.shared.db.now + d ≤ T.shared.cookieExpires
    | .run pid input => input.Served ∧
      match T.threads pid with
      | .unmounted => ∀ raw t, T.shared.cookie = some raw →
          T.shared.db.findRefreshToken (E.hashToken raw) = some t → t.status = .active
      | .requesting _ (.rotating e _) => ∀ j raw t, T.threads j = .requesting raw (.finding raw) →
          T.shared.db.findRefreshToken (E.hashToken raw) = some t → t.id ≠ e.token.id
      | _ => True

/-- The unique index on `tokenHash`. -/
def Db.HashUnique (db : Db) : Prop :=
  ∀ id id' t t', db.token? id = some t → db.token? id' = some t' →
    t.tokenHash = t'.tokenHash → id = id'

/-- A valid session, `f`, of an active account, `user`. -/
structure Db.Session (db : Db) (user : User) (f : Uuid) : Prop where
  unique : db.HashUnique
  owner : ∀ id t, db.token? id = some t → t.familyId = f → t.userId = user.id
  account : db.users.find? user.id = some user
  active : inactive user (db.enterpriseOf user) = false
  valid : ∀ id t, db.token? id = some t → t.familyId = f → t.status = .active → db.now ≤ t.expiresAt

/-- Where runs start: nothing is mounted and the cookie holds the `ACTIVE` token of the session. -/
structure HonestStart (E : AuthEnv) (user : User) (f : Uuid) (T : Tabs) : Prop where
  unmounted : ∀ pid, T.threads pid = .unmounted
  unlocked : ∀ k, T.shared.api.lock k = none
  session : T.shared.db.Session user f
  cookie : ∃ raw t, T.shared.cookie = some raw ∧
    T.shared.db.findRefreshToken (E.hashToken raw) = some t ∧
    t.familyId = f ∧ t.status = .active

/-! ## Tokens as the rows they name -/

variable {E : AuthEnv} {db db' : Db} {raw : RawToken} {id f : Uuid} {user : User}

/-- The raw token names the row. -/
def Db.Names (db : Db) (E : AuthEnv) (raw : RawToken) (id : Uuid) : Prop :=
  ∃ t, db.token? id = some t ∧ t.tokenHash = E.hashToken raw

/-- The raw token names an `ACTIVE` row of the session. -/
def Db.Valid (db : Db) (E : AuthEnv) (f : Uuid) (raw : RawToken) : Prop :=
  ∃ id t, db.token? id = some t ∧ t.tokenHash = E.hashToken raw ∧ t.familyId = f ∧
    t.status = .active

theorem Db.Names.kept (h : db.Names E raw id) (hk : Kept db.token? db'.token?) :
    db'.Names E raw id := by
  obtain ⟨t, ht, hh⟩ := h
  obtain ⟨t', ht', hsame⟩ := hk id t ht
  exact ⟨t', ht', hsame.tokenHash.trans hh⟩

theorem Db.Names.unique {id' : Uuid} (hu : db.HashUnique) (h : db.Names E raw id)
    (h' : db.Names E raw id') : id = id' := by
  obtain ⟨t, ht, hh⟩ := h
  obtain ⟨t', ht', hh'⟩ := h'
  exact hu id id' t t' ht ht' (hh.trans hh'.symm)

theorem findRefreshToken_spec {h : TokenHash} {t : RefreshToken}
    (hf : db.findRefreshToken h = some t) : db.token? t.id = some t ∧ t.tokenHash = h :=
  ⟨token?_of_mem (List.mem_of_find?_eq_some hf), by simpa using List.find?_some hf⟩

/-- Under the unique index a lookup by hash finds the row that is named. -/
theorem findRefreshToken_eq (hu : db.HashUnique) {t : RefreshToken} (ht : db.token? id = some t) :
    db.findRefreshToken t.tokenHash = some t := by
  cases hf : db.findRefreshToken t.tokenHash with
  | none => exact absurd (List.find?_eq_none.1 hf t (token?_mem ht)) (by simp)
  | some x =>
    obtain ⟨hx, hh⟩ := findRefreshToken_spec hf
    obtain rfl := hu _ _ x t hx ht hh
    exact hx.symm.trans ht

/-! ## The writes of a refresh -/

/-- The refresh of the token that was carried: its row is stored and belongs to the session. -/
structure Db.Presents (db : Db) (E : AuthEnv) (f : Uuid) (carried : RawToken)
    (e : Existing) : Prop where
  hash : e.token.tokenHash = E.hashToken carried
  family : e.token.familyId = f
  stored : db.Stores e.token

theorem Db.Presents.kept {e : Existing} (h : db.Presents E f raw e)
    (hk : Kept db.token? db'.token?) : db'.Presents E f raw e :=
  ⟨h.hash, h.family, h.stored.kept hk⟩

theorem Db.Presents.names {e : Existing} (h : db.Presents E f raw e) :
    db.Names E raw e.token.id := by
  obtain ⟨t, ht, hsame⟩ := h.stored
  exact ⟨t, ht, hsame.tokenHash.trans h.hash⟩

theorem Db.Valid.names (h : db.Valid E f raw) : ∃ id, db.Names E raw id := by
  obtain ⟨id, t, ht, hh, -⟩ := h
  exact ⟨id, t, ht, hh⟩

section Create
variable {e : Existing} {new : Draw}
  (hunused : db.unused (e.successor E new db.now).id (e.successor E new db.now).tokenHash = true)
include hunused

theorem create_kept : Kept db.token? (db.createToken (e.successor E new db.now)).token? :=
  (tokensStep_createToken (c := .refresh (.creating e)) hunused ⟨e, rfl, rfl, rfl⟩).kept

theorem unused_unnamed : ¬ db.Names E raw new.id := by
  rintro ⟨t, ht, -⟩
  cases (token?_of_unused hunused).symm.trans ht

theorem unused_hash {t : RefreshToken} (ht : db.token? id = some t) :
    t.tokenHash ≠ E.hashToken new.rawToken := by
  simp only [Db.unused, Bool.and_eq_true, Option.isNone_iff_eq_none] at hunused
  intro hh
  exact List.find?_eq_none.1 hunused.2 t (token?_mem ht) (by simpa [Existing.successor] using hh)

theorem create_session (h : db.Session user f) (hp : db.Presents E f raw e) :
    (db.createToken (e.successor E new db.now)).Session user f where
  unique := by
    intro id id' t t' ht ht' hh
    rcases createToken_back hunused ht with ⟨rfl, rfl⟩ | hold <;>
      rcases createToken_back hunused ht' with ⟨rfl, rfl⟩ | hold'
    · rfl
    · exact absurd hh.symm (unused_hash hunused hold')
    · exact absurd hh (unused_hash hunused hold)
    · exact h.unique id id' t t' hold hold' hh
  owner id t ht hf := by
    rcases createToken_back hunused ht with ⟨-, rfl⟩ | hold
    · obtain ⟨x, hx, hsame⟩ := hp.stored
      exact hsame.userId.symm.trans (h.owner _ x hx (hsame.familyId.trans hp.family))
    · exact h.owner id t hold hf
  account := h.account
  active := h.active
  valid id t ht hf hact := by
    rcases createToken_back hunused ht with ⟨-, rfl⟩ | hold
    · exact Nat.le_add_right ..
    · exact h.valid id t hold hf hact

theorem create_self :
    (db.createToken (e.successor E new db.now)).token? new.id = some
      (e.successor E new db.now) := by
  rw [token?_createToken hunused]
  exact if_pos rfl

theorem create_valid (h : db.Valid E f raw) :
    (db.createToken (e.successor E new db.now)).Valid E f raw := by
  obtain ⟨id, t, ht, hh, hf, hact⟩ := h
  exact ⟨id, t, createToken_row hunused ht, hh, hf, hact⟩

theorem create_new (hp : db.Presents E f raw e) :
    (db.createToken (e.successor E new db.now)).Valid E f new.rawToken :=
  ⟨new.id, e.successor E new db.now, create_self hunused, rfl, hp.family, rfl⟩

end Create

section Rotate
variable {k n : Uuid}

theorem rotate_kept : Kept db.token? (db.rotateToken k n).token? := by
  intro id t ht
  obtain ⟨t', ht', hsame, -⟩ := rotateToken_row n ht
  exact ⟨t', ht', hsame⟩

theorem rotate_session (h : db.Session user f) : (db.rotateToken k n).Session user f where
  unique := by
    intro id id' t t' ht ht' hh
    obtain ⟨x, hx, hsame, -⟩ := rotateToken_back ht
    obtain ⟨x', hx', hsame', -⟩ := rotateToken_back ht'
    exact h.unique id id' x x' hx hx' (by rw [← hsame.tokenHash, ← hsame'.tokenHash, hh])
  owner id t ht hf := by
    obtain ⟨x, hx, hsame, -⟩ := rotateToken_back ht
    exact hsame.userId.trans (h.owner id x hx (hsame.familyId.symm.trans hf))
  account := h.account
  active := h.active
  valid id t ht hf hact := by
    obtain ⟨x, hx, hsame, hx'⟩ := rotateToken_back ht
    rw [hsame.expiresAt]
    exact h.valid id x hx (hsame.familyId.symm.trans hf) (hx' hact)

theorem rotate_valid (h : db.Valid E f raw) (hne : ¬ db.Names E raw k) :
    (db.rotateToken k n).Valid E f raw := by
  obtain ⟨id, t, ht, hh, hf, hact⟩ := h
  refine ⟨id, t, ?_, hh, hf, hact⟩
  rw [token?_rotateToken, if_neg, ht]
  rintro rfl
  exact hne ⟨t, ht, hh⟩

end Rotate

/-! ## The invariant -/

/-- The token that the call has created. -/
def RefreshState.successor : RefreshState → Option RawToken
  | rotating _ new => some new.rawToken
  | finished _ (.ok pair) => some pair.refreshToken
  | _ => none

/-- What holds of a request in flight: it has not been refused, and it will not be. -/
def Mount.Good (m : Mount) (E : AuthEnv) (f : Uuid) (db : Db) : Prop :=
  match m with
  | unmounted => True
  | answered _ => True
  | requesting carried (.finding raw) => raw = carried ∧ db.Valid E f carried
  | requesting carried (.creating e) => db.Presents E f carried e
  | requesting carried (.rotating e new) => db.Presents E f carried e ∧ db.Valid E f new.rawToken
  | requesting carried (.finished (some e) (.ok pair)) =>
    db.Presents E f carried e ∧ db.Valid E f pair.refreshToken
  | _ => False

variable {T T' : Tabs} {pid : Nat}

/-- The request carries the token of the row. -/
def Carries (E : AuthEnv) (T : Tabs) (pid : Nat) (id : Uuid) : Prop :=
  ∃ carried st, T.threads pid = .requesting carried st ∧ T.shared.db.Names E carried id

/-- The response will deliver the token of the row. -/
def Owes (E : AuthEnv) (T : Tabs) (pid : Nat) (id : Uuid) : Prop :=
  ∃ carried st new, T.threads pid = .requesting carried st ∧ st.successor = some new ∧
    T.shared.db.Names E new id

def InCookie (E : AuthEnv) (T : Tabs) (id : Uuid) : Prop :=
  ∃ raw, T.shared.cookie = some raw ∧ T.shared.db.Names E raw id

/-- A token that has not been delivered yet is nowhere else. -/
structure Apart (E : AuthEnv) (T : Tabs) : Prop where
  carried : ∀ pid pid' id, Owes E T pid id → ¬ Carries E T pid' id
  cookie : ∀ pid id, Owes E T pid id → ¬ InCookie E T id
  once : ∀ pid pid' id, Owes E T pid id → Owes E T pid' id → pid = pid'

/-- Nobody has the token of the row. -/
structure Unheard (E : AuthEnv) (T : Tabs) (id : Uuid) : Prop where
  carried : ∀ pid, ¬ Carries E T pid id
  owed : ∀ pid, ¬ Owes E T pid id
  cookie : ¬ InCookie E T id

/-- A step of `pid` may send the cookie's token, make a new one its own, or put the one it owes into
the cookie. -/
theorem Apart.step (h : Apart E T) (pid : Nat)
    (hc : ∀ j id, Carries E T' j id → (∃ j, Carries E T j id) ∨ InCookie E T id)
    (ho : ∀ j id, Owes E T' j id → Owes E T j id ∨ j = pid ∧ Unheard E T id)
    (hk : ∀ id, InCookie E T' id → InCookie E T id ∨ Owes E T pid id ∧ ∀ j, ¬ Owes E T' j id) :
    Apart E T' where
  carried j j' id howes hcarries := by
    rcases ho j id howes with hold | ⟨-, hnew⟩
    · rcases hc j' id hcarries with ⟨i, hold'⟩ | hcookie
      · exact h.carried j i id hold hold'
      · exact h.cookie j id hold hcookie
    · rcases hc j' id hcarries with ⟨i, hold'⟩ | hcookie
      · exact hnew.carried i hold'
      · exact hnew.cookie hcookie
  cookie j id howes hcookie := by
    rcases hk id hcookie with hcookie | ⟨-, hnone⟩
    · rcases ho j id howes with hold | ⟨-, hnew⟩
      · exact h.cookie j id hold hcookie
      · exact hnew.cookie hcookie
    · exact hnone j howes
  once j j' id howes howes' := by
    rcases ho j id howes with hold | ⟨rfl, hnew⟩
    · rcases ho j' id howes' with hold' | ⟨-, hnew⟩
      · exact h.once j j' id hold hold'
      · exact absurd hold (hnew.owed j)
    · rcases ho j' id howes' with hold' | ⟨rfl, -⟩
      · exact absurd hold' (hnew.owed j')
      · rfl

/-- The request has rotated the token of the row, and its response has not been received. -/
def Mount.HasRotated (m : Mount) (id : Uuid) : Prop :=
  ∃ carried e pair, m = requesting carried (.finished (some e) (.ok pair)) ∧ e.token.id = id

structure BrowserInv (E : AuthEnv) (user : User) (f : Uuid) (T : Tabs) : Prop where
  session : T.shared.db.Session user f
  mounts : ∀ pid, (T.threads pid).Good E f T.shared.db
  /-- The cookie's token is `ACTIVE`, unless a response on its way will replace it. -/
  cookie : ∃ raw id t, T.shared.cookie = some raw ∧ T.shared.db.token? id = some t ∧
    t.tokenHash = E.hashToken raw ∧ t.familyId = f ∧
      (t.status = .active ∨ ∃ pid, (T.threads pid).HasRotated id)
  apart : Apart E T

/-- What a request carries is stored. -/
theorem Mount.Good.carried {carried : RawToken} {st : RefreshState}
    (h : (requesting carried st).Good E f db) : ∃ id, db.Names E carried id := by
  cases st with
  | finding raw => exact h.2.names
  | creating e => exact ⟨_, Db.Presents.names h⟩
  | rotating e new => exact ⟨_, h.1.names⟩
  | finished e r =>
    cases e with
    | none => cases h
    | some e =>
      cases r with
      | ok pair => exact ⟨_, h.1.names⟩
      | error err => cases h
  | _ => cases h

/-- What a response will deliver is stored. -/
theorem Mount.Good.successor {carried new : RawToken} {st : RefreshState}
    (h : (requesting carried st).Good E f db) (hnew : st.successor = some new) :
    db.Valid E f new := by
  cases st with
  | rotating e n => cases hnew; exact h.2
  | finished e r =>
    cases e with
    | none => cases h
    | some e =>
      cases r with
      | ok pair => cases hnew; exact h.2
      | error err => cases h
  | _ => cases hnew

theorem Mount.Good.kept {m : Mount} (h : m.Good E f db) (hk : Kept db.token? db'.token?)
    (hfinding : ∀ c r, m = requesting c (.finding r) → db'.Valid E f c)
    (hsucc : ∀ c st n, m = requesting c st → st.successor = some n → db'.Valid E f n) :
    m.Good E f db' := by
  cases m with
  | requesting c st =>
    cases st with
    | finding r => exact ⟨h.1, hfinding c r rfl⟩
    | creating e => exact Db.Presents.kept h hk
    | rotating e n => exact ⟨h.1.kept hk, hsucc c _ _ rfl rfl⟩
    | finished e r =>
      cases e with
      | none => cases h
      | some e =>
        cases r with
        | ok pair => exact ⟨h.1.kept hk, hsucc c _ _ rfl rfl⟩
        | error err => cases h
    | _ => cases h
  | withoutCookie => cases h
  | _ => trivial

/-- A stored token names the row it named before. -/
theorem names_back {id₀ : Uuid} (h : db.Names E raw id₀) (hk : Kept db.token? db'.token?)
    (hu : db'.HashUnique) (h' : db'.Names E raw id) : db.Names E raw id := by
  rwa [← (h.kept hk).unique hu h']

section Back
variable {j : Nat} {carried new : RawToken} {st : RefreshState} (h : BrowserInv E user f T)
  (hk : Kept T.shared.db.token? db'.token?) (hu : db'.HashUnique)
include h hk hu

theorem carries_back (hT : T.threads j = .requesting carried st) (hn : db'.Names E carried id) :
    Carries E T j id := by
  have hgood := h.mounts j
  rw [hT] at hgood
  obtain ⟨id₀, hid₀⟩ := hgood.carried
  exact ⟨carried, st, hT, names_back hid₀ hk hu hn⟩

theorem owes_back (hT : T.threads j = .requesting carried st) (hs : st.successor = some new)
    (hn : db'.Names E new id) : Owes E T j id := by
  have hgood := h.mounts j
  rw [hT] at hgood
  obtain ⟨id₀, hid₀⟩ := (hgood.successor hs).names
  exact ⟨carried, st, new, hT, hs, names_back hid₀ hk hu hn⟩

theorem inCookie_back (hc : T.shared.cookie = some raw) (hn : db'.Names E raw id) :
    InCookie E T id := by
  obtain ⟨raw', id₀, t, hc', ht, hh, -⟩ := h.cookie
  cases hc.symm.trans hc'
  exact ⟨raw, hc, names_back ⟨t, ht, hh⟩ hk hu hn⟩

/-- A statement of the call of `pid` keeps undelivered tokens apart; what `pid` newly owes must be
unheard of. -/
theorem apart_call {api : AuthStore} {st' : RefreshState}
    (hpid : T.threads pid = .requesting carried st)
    (hdb : api.db = db') (hown : ∀ n id, st'.successor = some n → db'.Names E n id →
      Owes E T pid id ∨ Unheard E T id) :
    Apart E ⟨{ T.shared with api }, Function.update T.threads pid (.requesting carried st')⟩ := by
  subst hdb
  refine h.apart.step pid ?_ ?_ ?_
  · rintro j id ⟨c, s, hj, hn⟩
    left
    by_cases hjp : j = pid
    · subst hjp
      simp only [Function.update_self, Mount.requesting.injEq] at hj
      obtain ⟨rfl, -⟩ := hj
      exact ⟨j, carries_back h hk hu hpid hn⟩
    · simp only [Function.update_of_ne hjp] at hj
      exact ⟨j, carries_back h hk hu hj hn⟩
  · rintro j id ⟨c, s, n, hj, hs, hn⟩
    by_cases hjp : j = pid
    · subst hjp
      simp only [Function.update_self, Mount.requesting.injEq] at hj
      obtain ⟨rfl, rfl⟩ := hj
      exact (hown n id hs hn).imp_right fun hun => ⟨rfl, hun⟩
    · simp only [Function.update_of_ne hjp] at hj
      exact .inl (owes_back h hk hu hj hs hn)
  · rintro id ⟨c, hc, hn⟩
    exact .inl (inCookie_back h hk hu hc hn)

end Back

/-- A response on its way stays on its way while another request takes a step. -/
theorem hasRotated_update {m m' : Mount} (hpid : T.threads pid = m)
    (hm : ∀ c e pair, m ≠ .requesting c (.finished (some e) (.ok pair)))
    (h : ∃ j, (T.threads j).HasRotated id) :
    ∃ j, (Function.update T.threads pid m' j).HasRotated id := by
  obtain ⟨j, c, e, pair, hj, hid⟩ := h
  refine ⟨j, c, e, pair, ?_, hid⟩
  rwa [Function.update_of_ne]
  rintro rfl
  exact hm c e pair (hpid.symm.trans hj)

theorem BrowserInv.send {carried : RawToken} {input : MountInput} (h : BrowserInv E user f T)
    (hpid : T.threads pid = .unmounted)
    (hK : NoStaleRequest E f T (.run pid input)) (hcookie : T.shared.cookie = some carried) :
    BrowserInv E user f
      ⟨T.shared, Function.update T.threads pid (.requesting carried (.finding carried))⟩ where
  session := h.session
  mounts j := by
    by_cases hj : j = pid
    · subst hj
      obtain ⟨raw, id, t, hc, ht, hh, hf, -⟩ := h.cookie
      cases hcookie.symm.trans hc
      have hfind := findRefreshToken_eq h.session.unique ht
      rw [hh] at hfind
      simp only [NoStaleRequest, hpid] at hK
      simp only [Function.update_self]
      exact ⟨rfl, id, t, ht, hh, hf, hK.2.2 carried t hcookie hfind⟩
    · simp only [Function.update_of_ne hj]
      exact h.mounts j
  cookie := by
    obtain ⟨raw, id, t, hc, ht, hh, hf, hact⟩ := h.cookie
    exact ⟨raw, id, t, hc, ht, hh, hf, hact.imp_right fun hr => hasRotated_update hpid (by simp) hr⟩
  apart := by
    refine h.apart.step pid ?_ ?_ fun id hk => .inl hk
    · rintro j id ⟨c, s, hj, hn⟩
      by_cases hjp : j = pid
      · subst hjp
        simp only [Function.update_self, Mount.requesting.injEq] at hj
        obtain ⟨rfl, -⟩ := hj
        exact .inr ⟨carried, hcookie, hn⟩
      · simp only [Function.update_of_ne hjp] at hj
        exact .inl ⟨j, c, s, hj, hn⟩
    · rintro j id ⟨c, s, n, hj, hs, hn⟩
      by_cases hjp : j = pid
      · subst hjp
        simp only [Function.update_self, Mount.requesting.injEq] at hj
        obtain ⟨rfl, rfl⟩ := hj
        cases hs
      · simp only [Function.update_of_ne hjp] at hj
        exact .inl ⟨c, s, n, hj, hs, hn⟩

/-- The new cookie is received, whatever the mount is answered. -/
theorem BrowserInv.receive {carried : RawToken} {e : Option Existing} {pair : TokenPair}
    (h : BrowserInv E user f T)
    (hpid : T.threads pid = .requesting carried (.finished e (.ok pair)))
    (r : Except ApiError AccessToken) :
    BrowserInv E user f ⟨T.shared.setRefreshTokenCookie pair.refreshToken,
      Function.update T.threads pid (.answered r)⟩ where
  session := h.session
  mounts j := by
    by_cases hj : j = pid
    · subst hj
      simp only [Function.update_self]
      trivial
    · simp only [Function.update_of_ne hj]
      exact h.mounts j
  cookie := by
    have hgood := h.mounts pid
    rw [hpid] at hgood
    obtain ⟨id, t, ht, hh, hf, hact⟩ := hgood.successor rfl
    exact ⟨pair.refreshToken, id, t, rfl, ht, hh, hf, .inl hact⟩
  apart := by
    have others : ∀ {j id}, Owes E ⟨T.shared.setRefreshTokenCookie pair.refreshToken,
        Function.update T.threads pid (.answered r)⟩ j id → j ≠ pid ∧
          Owes E T j id := by
      rintro j id ⟨c, s, n, hj, hs, hn⟩
      by_cases hjp : j = pid
      · subst hjp
        simp only [Function.update_self] at hj
        cases hj
      · simp only [Function.update_of_ne hjp] at hj
        exact ⟨hjp, c, s, n, hj, hs, hn⟩
    refine h.apart.step pid ?_ (fun j id ho => .inl (others ho).2) ?_
    · rintro j id ⟨c, s, hj, hn⟩
      by_cases hjp : j = pid
      · subst hjp
        simp only [Function.update_self] at hj
        cases hj
      · simp only [Function.update_of_ne hjp] at hj
        exact .inl ⟨j, c, s, hj, hn⟩
    · rintro id ⟨c, hc, hn⟩
      cases hc
      have howes : Owes E T pid id := ⟨carried, _, pair.refreshToken, hpid, rfl, hn⟩
      exact .inr ⟨howes, fun j ho => (others ho).1 (h.apart.once j pid id (others ho).2 howes)⟩

/-- A token of the session passes every check of `refresh`. -/
theorem valid_found (hs : db.Session user f) (hv : db.Valid E f raw) :
    ∃ e, db.findExisting (E.hashToken raw) = some e ∧ RefreshState.found db.now e = .creating e ∧
      db.Presents E f raw e := by
  obtain ⟨id, t, ht, hh, hf, hact⟩ := hv
  have hfind := findRefreshToken_eq hs.unique ht
  rw [hh] at hfind
  refine ⟨⟨t, user, db.enterpriseOf user⟩, ?_, ?_, hh, hf, stores_of_found hfind⟩
  · simp [Db.findExisting, hfind, hs.owner id t ht hf, hs.account]
  · simp only [RefreshState.found, hact, ne_eq, not_true_eq_false, if_false,
      Nat.not_lt.2 (hs.valid id t ht hf hact), hs.active, Bool.false_eq_true]

theorem BrowserInv.found {carried r : RawToken} {e : Existing} (h : BrowserInv E user f T)
    (hpid : T.threads pid = .requesting carried (.finding r))
    (hfind : T.shared.db.findExisting (E.hashToken r) = some e) :
    BrowserInv E user f
      ⟨T.shared, Function.update T.threads pid
        (.requesting carried (.found T.shared.db.now e))⟩ := by
  have hgood := h.mounts pid
  rw [hpid] at hgood
  obtain ⟨rfl, hv⟩ := hgood
  obtain ⟨e', hfind', hfound, hp⟩ := valid_found h.session hv
  cases hfind.symm.trans hfind'
  rw [hfound]
  refine ⟨h.session, fun j => ?_, ?_, ?_⟩
  · by_cases hj : j = pid
    · subst hj
      simp only [Function.update_self]
      exact hp
    · simp only [Function.update_of_ne hj]
      exact h.mounts j
  · obtain ⟨raw, id, t, hc, ht, hh, hf, hact⟩ := h.cookie
    exact ⟨raw, id, t, hc, ht, hh, hf, hact.imp_right fun hr => hasRotated_update hpid (by simp) hr⟩
  · exact apart_call h (fun _ t ht => ⟨t, ht, .refl t⟩) h.session.unique hpid rfl
      (by rintro n id hs; cases hs)

theorem BrowserInv.create {carried : RawToken} {e : Existing} {new : Draw}
    (h : BrowserInv E user f T) (hpid : T.threads pid = .requesting carried (.creating e))
    (hunused : T.shared.db.unused (e.successor E new T.shared.db.now).id
      (e.successor E new T.shared.db.now).tokenHash = true) :
    BrowserInv E user f
      ⟨{ T.shared with
          api := T.shared.api.autocommit (Db.createToken (e.successor E new T.shared.db.now)) },
        Function.update T.threads pid (.requesting carried (.rotating e new))⟩ := by
  have hp : T.shared.db.Presents E f carried e := by
    have hgood := h.mounts pid
    rwa [hpid] at hgood
  have hk := create_kept hunused
  have hs := create_session hunused h.session hp
  refine ⟨hs, fun j => ?_, ?_, ?_⟩
  · by_cases hj : j = pid
    · subst hj
      simp only [Function.update_self]
      exact ⟨hp.kept hk, create_new hunused hp⟩
    · simp only [Function.update_of_ne hj]
      refine (h.mounts j).kept hk (fun c r hm => ?_) fun c st n hm hn => ?_
      · have hgood := h.mounts j
        rw [hm] at hgood
        exact create_valid hunused hgood.2
      · have hgood := h.mounts j
        rw [hm] at hgood
        exact create_valid hunused (hgood.successor hn)
  · obtain ⟨raw, id, t, hc, ht, hh, hf, hact⟩ := h.cookie
    exact ⟨raw, id, t, hc, createToken_row hunused ht, hh, hf, hact.imp_right fun hr =>
      hasRotated_update hpid (by simp) hr⟩
  · refine apart_call h hk hs.unique hpid rfl ?_
    rintro n id hsucc hn
    cases hsucc
    have hid : id = new.id := hn.unique hs.unique ⟨_, create_self hunused, rfl⟩
    subst hid
    right
    constructor
    · rintro j ⟨c, st, -, hc⟩
      exact unused_unnamed hunused hc
    · rintro j ⟨c, st, n, -, -, hc⟩
      exact unused_unnamed hunused hc
    · rintro ⟨c, -, hc⟩
      exact unused_unnamed hunused hc

theorem BrowserInv.rotate {carried : RawToken} {e : Existing} {new : Draw} {input : MountInput}
    (h : BrowserInv E user f T) (hpid : T.threads pid = .requesting carried (.rotating e new))
    (hK : NoStaleRequest E f T (.run pid input)) :
    BrowserInv E user f
      ⟨{ T.shared with api := T.shared.api.autocommit (Db.rotateToken e.token.id new.id) },
        Function.update T.threads pid
          (.requesting carried
            (.finished (some e) (.ok ⟨signAccessToken e.user, new.rawToken⟩)))⟩ := by
  have hgood := h.mounts pid
  rw [hpid] at hgood
  obtain ⟨hp, hv⟩ := hgood
  have hk : Kept T.shared.db.token? (T.shared.db.rotateToken e.token.id new.id).token? :=
    rotate_kept
  have hs : (T.shared.db.rotateToken e.token.id new.id).Session user f := rotate_session h.session
  -- the rotated row is the carried one: no response owes it
  have owed : ∀ {j c st n}, T.threads j = .requesting c st → st.successor = some n →
      ¬ T.shared.db.Names E n e.token.id := fun hj hn hnames =>
    h.apart.carried _ pid e.token.id ⟨_, _, _, hj, hn, hnames⟩ ⟨carried, _, hpid, hp.names⟩
  refine ⟨hs, fun j => ?_, ?_, ?_⟩
  · by_cases hj : j = pid
    · subst hj
      simp only [Function.update_self]
      exact ⟨hp.kept hk, rotate_valid hv (owed hpid rfl)⟩
    · simp only [Function.update_of_ne hj]
      refine (h.mounts j).kept hk (fun c r hm => ?_) fun c st n hm hn => ?_
      · have hgood := h.mounts j
        rw [hm] at hgood
        obtain ⟨rfl, id, t, ht, hh, hf, hact⟩ := hgood
        refine rotate_valid ⟨id, t, ht, hh, hf, hact⟩ fun hnames => ?_
        -- a request that has not read its token yet does not carry the rotated one
        simp only [NoStaleRequest, hpid] at hK
        have hfind := findRefreshToken_eq h.session.unique ht
        rw [hh] at hfind
        have hid : id = e.token.id := Db.Names.unique h.session.unique ⟨t, ht, hh⟩ hnames
        exact hK.2.2 j r t hm hfind ((token?_id ht).trans hid)
      · have hgood := h.mounts j
        rw [hm] at hgood
        exact rotate_valid (hgood.successor hn) (owed hm hn)
  · obtain ⟨raw, id, t, hc, ht, hh, hf, hact⟩ := h.cookie
    by_cases hid : id = e.token.id
    · subst hid
      obtain ⟨t', ht', hsame⟩ := hk _ t ht
      exact ⟨raw, _, t', hc, ht', hsame.tokenHash.trans hh, hsame.familyId.trans hf,
        .inr ⟨pid, carried, e, _, Function.update_self .., rfl⟩⟩
    · refine ⟨raw, id, t, hc, ?_, hh, hf, hact.imp_right fun hr => hasRotated_update hpid
        (by simp) hr⟩
      show (T.shared.db.rotateToken e.token.id new.id).token? id = some t
      rw [token?_rotateToken, if_neg hid, ht]
  · refine apart_call h hk hs.unique hpid rfl ?_
    rintro n id hsucc hn
    cases hsucc
    exact .inl (owes_back h hk hs.unique hpid rfl hn)

theorem BrowserInv.call {carried : RawToken} {st st' : RefreshState} {new : Draw} {api : AuthStore}
    {input : MountInput} (h : BrowserInv E user f T) (hK : NoStaleRequest E f T (.run pid input))
    (hpid : T.threads pid = .requesting carried st)
    (hstep : RefreshStep E T.shared.api new st api st') :
    BrowserInv E user f
      ⟨{ T.shared with api }, Function.update T.threads pid (.requesting carried st')⟩ := by
  have hgood := h.mounts pid
  rw [hpid] at hgood
  cases hstep with
  | unknown hnone =>
    obtain ⟨rfl, hv⟩ := hgood
    obtain ⟨e, hfind, -⟩ := valid_found h.session hv
    cases hnone.symm.trans hfind
  | found hfind => exact BrowserInv.found h hpid hfind
  | revoke => cases hgood
  | audit => cases hgood
  | expire => cases hgood
  | create hunused => exact BrowserInv.create h hpid hunused
  | rotate => exact BrowserInv.rotate h hpid hK
  | missing hstmt hnone =>
    rcases hstmt with rfl | ⟨n, rfl⟩
    · cases hgood
    · obtain ⟨t, ht, -⟩ := hgood.1.stored
      cases hnone.symm.trans ht

theorem BrowserInv.tick {d : Nat} (h : BrowserInv E user f T) (hK : NoStaleRequest E f T (.env d)) :
    BrowserInv E user f { T with shared := (tabs E).env d T.shared } where
  session := ⟨h.session.unique, h.session.owner, h.session.account, h.session.active, hK.1⟩
  mounts j := by
    have hgood := h.mounts j
    refine hgood.kept (fun _ t ht => ⟨t, ht, .refl t⟩) (fun c r hm => ?_) fun c st n hm hn => ?_
    · simp only [hm] at hgood
      exact hgood.2
    · simp only [hm] at hgood
      exact hgood.successor hn
  cookie := by
    obtain ⟨raw, id, t, hc, hrow⟩ := h.cookie
    exact ⟨raw, id, t, (if_pos hK.2).trans hc, hrow⟩
  apart := by
    refine ⟨h.apart.carried, ?_, h.apart.once⟩
    rintro pid id howes ⟨raw, hc, hn⟩
    exact h.apart.cookie pid id howes ⟨raw, (if_pos hK.2).symm.trans hc, hn⟩

theorem BrowserInv.step {a : Act MountInput Nat} (h : BrowserInv E user f T) (hK : NoStaleRequest E f T a)
    (hst : (tabs E).system.step T a = some T') : BrowserInv E user f T' := by
  cases a with
  | env d =>
    obtain rfl := Machine.env_eq_some.1 hst
    exact BrowserInv.tick h hK
  | run pid input =>
    obtain ⟨b, m, hth, rfl⟩ := Machine.run_eq_some.1 hst
    have hstep := mount_step hth
    have hgood := h.mounts pid
    generalize hm : T.threads pid = m₀ at hstep hgood
    cases hstep with
    | sendNone hnone =>
      obtain ⟨raw, -, -, hc, -⟩ := h.cookie
      cases hnone.symm.trans hc
    | send hcookie => exact BrowserInv.send h hm hK hcookie
    | refuse => cases hgood
    | call _ hstep => exact BrowserInv.call h hK hm hstep
    | refused hi =>
      subst hi
      exact absurd hK.2.1 id
    | receive => exact BrowserInv.receive h hm _
    | unreadable hi =>
      subst hi
      exact absurd hK.2.1 id
    | userFails hi =>
      subst hi
      obtain rfl : _ = true := hK.2.1
      exact BrowserInv.receive h hm _
    | @receiveError carried e err => cases e <;> cases hgood

variable {T₀ : Tabs}

theorem HonestStart.inv (h : HonestStart E user f T₀) : BrowserInv E user f T₀ where
  session := h.session
  mounts pid := by
    rw [h.unmounted pid]
    trivial
  cookie := by
    obtain ⟨raw, t, hc, hfind, hf, hact⟩ := h.cookie
    obtain ⟨ht, hh⟩ := findRefreshToken_spec hfind
    exact ⟨raw, t.id, t, hc, ht, hh, hf, .inl hact⟩
  apart := by
    have nothing : ∀ {pid id}, ¬ Owes E T₀ pid id := by
      rintro pid id ⟨c, st, n, hpid, -⟩
      cases (h.unmounted pid).symm.trans hpid
    exact ⟨fun _ _ _ ho => absurd ho nothing, fun _ _ ho => absurd ho nothing,
      fun _ _ _ ho => absurd ho nothing⟩

/-! ## The result -/

/-- An honest browser is never taken for a thief in the runs where every request is served and none
carries a token that another request has rotated. -/
theorem honest_never_thief (h0 : HonestStart E user f T₀) :
    NeverThief E f (NoStaleRequest E f) T₀ := by
  have inv : ∀ {T}, Reach (tabs E).system (NoStaleRequest E f) T₀ T → BrowserInv E user f T :=
    fun hr => hr.inv (BrowserInv E user f) h0.inv fun _ _ _ _ hI hK hst => BrowserInv.step hI hK hst
  constructor
  · rintro T pid hr ⟨carried, e, hpid | hpid⟩
    · have hgood := (inv hr).mounts pid
      rw [hpid] at hgood
      cases hgood
    · have hgood := (inv hr).mounts pid
      rw [hpid] at hgood
      cases hgood
  · intro T hr hidle
    obtain ⟨raw, id, t, hc, ht, hh, hf, hact | ⟨pid, c, e, pair, hpid, -⟩⟩ := (inv hr).cookie
    · have hfind := findRefreshToken_eq (inv hr).session.unique ht
      rw [hh] at hfind
      exact ⟨raw, t, hc, hfind, hf, hact⟩
    · exact absurd (by rw [hpid]; trivial) (hidle pid)

/-- A browser whose cookie holds the token of the sample session. -/
def sampleTabs : Tabs where
  shared :=
    { api := { db := sampleDb, lock := fun _ => none }
      cookie := some 10
      cookieExpires := refreshTokenMaxAgeMs }
  threads _ := .unmounted

theorem sampleTabs_start : HonestStart sampleEnv sampleUser 7 sampleTabs where
  unmounted _ := rfl
  unlocked _ := rfl
  session := {
    unique := fun id id' t t' ht ht' _ => by
      rw [← token?_id ht, ← token?_id ht', sampleDb_token ht, sampleDb_token ht']
    owner := fun id t ht _ => by rw [sampleDb_token ht]; rfl
    account := rfl
    active := rfl
    valid := fun _ _ _ _ _ => Nat.zero_le _ }
  cookie := ⟨10, _, rfl, rfl, rfl, rfl⟩

theorem honest_never_thief_sample :
    NeverThief sampleEnv 7 (NoStaleRequest sampleEnv 7) sampleTabs :=
  honest_never_thief sampleTabs_start

/-- Two tabs load together: both requests carry the token, the first one rotates it, the second one
finds it `ROTATED` and takes the reuse-detection branch. -/
theorem two_tabs : HonestStart sampleEnv sampleUser 7 sampleTabs ∧
    ¬ NeverThief sampleEnv 7 (ValidSession 7) sampleTabs := by
  refine ⟨sampleTabs_start, fun hthief => ?_⟩
  let go (pid : Nat) : Act MountInput Nat := .run pid (.proceed ⟨11, 2⟩)
  have hrun : (exec (tabs sampleEnv).system (fun _ a => match a with
      | .run _ _ => true
      | .env _ => false) sampleTabs [go 0, go 1, go 0, go 0, go 0, go 1]).map
        (fun T => match T.threads 1 with
      | .requesting _ (.revoking .reuse _) => true
      | _ => false) = some true := by decide +kernel
  obtain ⟨T, hT, hres⟩ := Option.map_eq_some_iff.1 hrun
  refine hthief.not_accused T 1 (Reach.of_exec _ ?_ _ hT) ?_
  · rintro T (⟨pid, input⟩ | d) ha
    · trivial
    · cases ha
  · split at hres
    · exact ⟨_, _, .inl ‹_›⟩
    · cases hres

end Gescom.Auth
