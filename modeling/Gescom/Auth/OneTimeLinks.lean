import Gescom.Auth.Links

/-!
# One-time links are used once

Two calls may find one link valid and both use it, and two requests of one user may both invalidate
the links before them and then both send theirs. `one_time` gives the runs in which each link has
one effect and each user one live reset link: no call finds a link valid while another is using it,
and no request commits its link while another of its user is between its `updateMany` and its commit.
`links_overlap` has a run outside it for either half.
-/

namespace Gescom.Auth

open ReadCommitted Transition

/-! ## What must hold -/

/-- The link a call has found valid and has not committed the effect of. -/
def LinkState.redeeming : LinkState → Option Uuid
  | resetPassword (.updatingUser authToken _) | resetPassword (.consuming authToken _ _)
  | resetPassword (.revoking authToken _ _) | resetPassword (.committing authToken _ _ _)
  | verifyEmail (.consuming authToken _) | verifyEmail (.updatingUser authToken _)
  | verifyEmail (.committing authToken _) | acceptInvitation (.consuming authToken _)
  | acceptInvitation (.updatingUser authToken _ _)
  | acceptInvitation (.committing authToken _ _ _ _) => some authToken.id
  | _ => none

/-- The link the statement at hand finds valid. -/
def LinkState.finds (E : AuthEnv) (db : Db) : LinkState → Option Uuid
  | resetPassword (.finding rawToken _) =>
    (db.findValidToken (E.hashToken rawToken) .passwordReset).map AuthToken.id
  | verifyEmail (.finding rawToken) =>
    (db.findValidToken (E.hashToken rawToken) .emailVerification).map AuthToken.id
  | acceptInvitation (.finding rawToken _) =>
    (db.findValidToken (E.hashToken rawToken) .invitation).map AuthToken.id
  | _ => none

/-- The user of a request that has matched the links before its own, and has not committed. -/
def LinkState.invalidates : LinkState → Option Uuid
  | requestPasswordReset (.invalidating user _ _ _ _)
  | requestPasswordReset (.creating user _ _ _)
  | requestPasswordReset (.committing user _ _ _ _) => some user.id
  | _ => none

def Redeems (id : Uuid) (call : Option LinkCall) : Prop :=
  ∃ c, call = some c ∧ c.st.redeeming = some id

def Invalidates (userId : Uuid) (call : Option LinkCall) : Prop :=
  ∃ c, call = some c ∧ c.st.invalidates = some userId

/-- The call has committed the effect of the link. -/
def Spent (id : Uuid) (call : Option LinkCall) : Prop := ∃ c, call = some c ∧ c.effect = some id

/-- No other call is using the link that is found, and no other request of the user is under way when
one commits. -/
structure NoOverlap (E : AuthEnv) (P : LinkPool) (pid : Nat) : Prop where
  found : ∀ c id, P.threads pid = some c → c.st.finds E P.shared.db = some id →
    ∀ other, ¬ Redeems id (P.threads other)
  request : ∀ c user now rawToken matched authToken, P.threads pid = some c →
    c.st = .requestPasswordReset (.committing user now rawToken matched authToken) →
    ∀ other, other ≠ pid → ¬ Invalidates user.id (P.threads other)

def InTurn (E : AuthEnv) (P : LinkPool) : Act LinkInput Around → Prop
  | .run pid (.proceed _) => NoOverlap E P pid
  | .run _ .fail => True
  | .env _ => True

/-- A reset link that is neither consumed nor expired. -/
def AuthToken.Live (now : Instant) (t : AuthToken) : Prop :=
  t.type = .passwordReset ∧ t.consumedAt = none ∧ now ≤ t.expiresAt

instance (now : Instant) (t : AuthToken) : Decidable (t.Live now) := by
  unfold AuthToken.Live
  infer_instance

/-- No user has two live reset links. -/
def Db.OneLive (db : Db) : Prop :=
  ∀ t ∈ db.authTokens.rows, ∀ t' ∈ db.authTokens.rows, t.userId = t'.userId →
    t.Live db.now → t'.Live db.now → t = t'

def LinkState.Fresh : LinkState → Prop
  | requestPasswordReset st => ∃ email, st = .finding email
  | resetPassword st => ∃ rawToken newPasswordHash, st = .finding rawToken newPasswordHash
  | verifyEmail st => ∃ rawToken, st = .finding rawToken
  | acceptInvitation st => ∃ rawToken passwordHash, st = .finding rawToken passwordHash
  | thrown => True

structure LinkStarts (P : LinkPool) : Prop where
  calls : ∀ pid c, P.threads pid = some c → c.st.Fresh ∧ c.effect = none
  live : P.shared.db.OneLive

/-- In the runs whose steps meet `K` a link has one effect at most, and a user one live reset link. -/
structure OneTime (E : AuthEnv) (K : LinkPool → Act LinkInput Around → Prop) (P₀ : LinkPool) :
    Prop where
  once : ∀ P id i j, Reach (links E).system K P₀ P → Spent id (P.threads i) →
    Spent id (P.threads j) → i = j
  oneLive : ∀ P, Reach (links E).system K P₀ P → P.shared.db.OneLive

/-! ## Links under the writes -/

variable {E : AuthEnv} {pid : Nat} {s s' : AuthStore} {db db' : Db} {id : Uuid} {t : AuthToken}
  {c c' : LinkCall} {P P' P₀ : LinkPool} {new : AuthToken → Prop}

def Db.Consumed (db : Db) (id : Uuid) : Prop :=
  ∃ t, db.authTokens.find? id = some t ∧ t.consumedAt.isSome = true

/-- Links stay, and stay consumed; the unconsumed ones were there, or are `new`. -/
structure Db.Grows (new : AuthToken → Prop) (db db' : Db) : Prop where
  row : ∀ id t, db.authTokens.find? id = some t → ∃ t', db'.authTokens.find? id = some t'
  consumed : ∀ id, db.Consumed id → db'.Consumed id
  back : ∀ id t, db'.authTokens.find? id = some t → t.consumedAt = none →
    db.authTokens.find? id = some t ∨ new t

def Nothing : AuthToken → Prop := fun _ => False

theorem Db.Grows.of_eq (h : db'.authTokens = db.authTokens) : db.Grows Nothing db' where
  row id t ht := ⟨t, by rw [h, ht]⟩
  consumed id hc := by
    unfold Db.Consumed
    rw [h]
    exact hc
  back id t ht _ := .inl (by rw [← h, ht])

theorem find?_consumeAll (db : Db) (matched : List Uuid) (now : Instant) (id : Uuid) :
    (db.consumeAll matched now).authTokens.find? id =
      (db.authTokens.find? id).map fun t =>
        if matched.contains t.id then { t with consumedAt := some now } else t :=
  db.authTokens.find?_updateWhere (fun t => matched.contains t.id)
    (fun t => { t with consumedAt := some now }) (fun _ => rfl) id

theorem consumeAuthToken_eq (db : Db) (id : Uuid) (now : Instant) :
    (db.consumeAuthToken id now).authTokens = (db.consumeAll [id] now).authTokens := by
  refine Table.ext ?_
  simp [Db.consumeAuthToken, Db.consumeAll, Table.update, Keyed.key]

theorem grows_consumeAll (db : Db) (matched : List Uuid) (now : Instant) :
    db.Grows Nothing (db.consumeAll matched now) where
  row id t ht := by
    rw [find?_consumeAll, ht]
    exact ⟨_, rfl⟩
  consumed id hc := by
    obtain ⟨t, ht, hsome⟩ := hc
    unfold Db.Consumed
    rw [find?_consumeAll, ht, Option.map_some]
    refine ⟨_, rfl, ?_⟩
    split
    · rfl
    · exact hsome
  back id t ht hnone := by
    rw [find?_consumeAll] at ht
    obtain ⟨t₀, ht₀, heq⟩ := Option.map_eq_some_iff.1 ht
    split at heq
    · rw [← heq] at hnone
      cases hnone
    · rw [← heq]
      exact .inl ht₀

theorem consumed_consumeAll {matched : List Uuid} (now : Instant) (hid : id ∈ matched)
    (ht : db.authTokens.find? id = some t) : (db.consumeAll matched now).Consumed id := by
  have hkey : t.id = id := Table.key_of_find? ht
  unfold Db.Consumed
  rw [find?_consumeAll, ht, Option.map_some]
  refine ⟨_, rfl, ?_⟩
  rw [if_pos (by simpa [hkey] using hid)]
  rfl

theorem grows_insert (db : Db) (authToken : AuthToken) :
    db.Grows (· = authToken) { db with authTokens := db.authTokens.insert authToken } where
  row id t ht := ⟨t, Table.find?_insert_of_some ht⟩
  consumed id hc := by
    obtain ⟨t, ht, hsome⟩ := hc
    exact ⟨t, Table.find?_insert_of_some ht, hsome⟩
  back id t ht _ := by
    rcases Table.mem_insert (Table.mem_of_find? ht) with hold | rfl
    · left
      rw [← Table.key_of_find? ht]
      exact Table.find?_of_mem hold
    · exact .inr rfl

theorem Db.Grows.trans {new' : AuthToken → Prop} {db'' : Db} (h : db.Grows Nothing db')
    (h' : db'.Grows new' db'') : db.Grows new' db'' where
  row id t ht := by
    obtain ⟨t', ht'⟩ := h.row id t ht
    exact h'.row id t' ht'
  consumed id hc := h'.consumed id (h.consumed id hc)
  back id t ht hnone := by
    rcases h'.back id t ht hnone with hmid | hnew
    · exact .inl ((h.back id t hmid hnone).resolve_right fun hnothing => hnothing)
    · exact .inr hnew

/-! ## One call -/

/-- The reset links of the user that are not consumed yet are among `ids`. -/
def Db.ResetsIn (db : Db) (userId : Uuid) (ids : List Uuid) : Prop :=
  ∀ id t, db.authTokens.find? id = some t → t.pendingReset userId = true → id ∈ ids

/-- A request under way has matched all the links of its user. -/
def LinkState.Matched (db : Db) : LinkState → Prop
  | requestPasswordReset (.invalidating user _ _ pending matched) =>
    db.ResetsIn user.id (pending ++ matched)
  | requestPasswordReset (.creating user _ _ matched) => db.ResetsIn user.id matched
  | requestPasswordReset (.committing user _ _ matched authToken) =>
    db.ResetsIn user.id matched ∧ authToken.userId = user.id
  | _ => True

structure LinkCall.Holds (db : Db) (c : LinkCall) : Prop where
  spent : ∀ id, c.effect = some id → db.Consumed id
  row : ∀ id, c.st.redeeming = some id → ∃ t, db.authTokens.find? id = some t
  matched : c.st.Matched db

/-- What one statement of a call does to the links. -/
inductive LinkStep (E : AuthEnv) (s : AuthStore) (c : LinkCall) : AuthStore → LinkCall → Prop
  | silent (s' : AuthStore) (c' : LinkCall) (tokens : s'.db.authTokens = s.db.authTokens)
      (now : s'.db.now = s.db.now) (effect : c'.effect = c.effect)
      (redeeming : ∀ id, c'.st.redeeming = some id →
        c.st.redeeming = some id ∨ c.st.finds E s.db = some id)
      (matched : c.st.Matched s.db → c'.st.Matched s.db) : LinkStep E s c s' c'
  | redeem (s' : AuthStore) (c' : LinkCall) (id : Uuid) (now : Instant)
      (redeeming : c.st.redeeming = some id)
      (tokens : s'.db.authTokens = (s.db.consumeAll [id] now).authTokens)
      (clock : s'.db.now = s.db.now) (effect : c'.effect = some id)
      (ended : c'.st.redeeming = none ∧ c'.st.invalidates = none) : LinkStep E s c s' c'
  | request (s' : AuthStore) (c' : LinkCall) (user : User) (now : Instant) (rawToken : RawToken)
      (matched : List Uuid) (authToken : AuthToken)
      (stmt : c.st = .requestPasswordReset (.committing user now rawToken matched authToken))
      (db : s'.db = s.db.commitRequest now matched authToken) (effect : c'.effect = c.effect)
      (ended : c'.st.redeeming = none ∧ c'.st.invalidates = none) : LinkStep E s c s' c'

/-- Nothing is matched where no request is under way. -/
theorem matched_of_none {st : LinkState} (h : st.invalidates = none) : st.Matched db := by
  cases st with
  | requestPasswordReset st =>
    cases st with
    | invalidating user now rawToken pending matched => cases h
    | creating user now rawToken matched => cases h
    | committing user now rawToken matched authToken => cases h
    | _ => trivial
  | _ => trivial

/-- A statement that leaves the links alone, in a call that requests nothing. -/
theorem LinkStep.of_quiet (tokens : s'.db.authTokens = s.db.authTokens)
    (now : s'.db.now = s.db.now) (effect : c'.effect = c.effect)
    (redeeming : ∀ id, c'.st.redeeming = some id →
      c.st.redeeming = some id ∨ c.st.finds E s.db = some id)
    (quiet : c'.st.invalidates = none) : LinkStep E s c s' c' :=
  .silent s' c' tokens now effect redeeming fun _ => matched_of_none quiet

/-- The call has refused its link, is done with it or has none. -/
theorem LinkStep.done (tokens : s'.db.authTokens = s.db.authTokens)
    (now : s'.db.now = s.db.now) (effect : c'.effect = c.effect)
    (ended : c'.st.redeeming = none ∧ c'.st.invalidates = none) : LinkStep E s c s' c' := by
  refine .of_quiet tokens now effect (fun id hid => ?_) ended.2
  rw [ended.1] at hid
  cases hid

theorem LinkStep.goesOn (tokens : s'.db.authTokens = s.db.authTokens)
    (now : s'.db.now = s.db.now) (effect : c'.effect = c.effect)
    (redeeming : c'.st.redeeming = c.st.redeeming) (quiet : c'.st.invalidates = none) :
    LinkStep E s c s' c' :=
  .of_quiet tokens now effect (fun _ hid => .inl (redeeming ▸ hid)) quiet

theorem LinkStep.found (tokens : s'.db.authTokens = s.db.authTokens)
    (now : s'.db.now = s.db.now) (effect : c'.effect = c.effect)
    (finds : c.st.finds E s.db = c'.st.redeeming) (quiet : c'.st.invalidates = none) :
    LinkStep E s c s' c' :=
  .of_quiet tokens now effect (fun _ hid => .inr (finds.trans hid)) quiet

theorem row_of_valid {tokenHash : TokenHash} {type : AuthTokenType} {a : AuthToken}
    (h : db.findValidToken tokenHash type = some a) :
    db.authTokens.find? a.id = some a ∧ a.consumedAt = none := by
  simp only [Db.findValidToken, Option.filter_eq_some_iff, Bool.and_eq_true] at h
  exact ⟨Table.find?_of_findBy h.1, by simpa using h.2.1.2⟩

theorem reset_link {st st' : ResetState} {e : Option Uuid} (h : st.step E pid s = some (s', st')) :
    LinkStep E s ⟨.resetPassword st, e⟩ s'
      ⟨.resetPassword st', (LinkState.resetPassword st).commits <|> e⟩ := by
  cases st with
  | finding rawToken newPasswordHash =>
    simp only [ResetState.step] at h
    split at h <;> cases h
    · exact .done rfl rfl rfl ⟨rfl, rfl⟩
    · rename_i authToken hfind
      refine .found rfl rfl rfl ?_ rfl
      simp only [LinkState.finds, hfind, Option.map_some]
      rfl
  | updatingUser authToken newPasswordHash =>
    simp only [ResetState.step] at h
    split at h
    · split at h <;> cases h
      · exact .done rfl rfl rfl ⟨rfl, rfl⟩
      · exact .goesOn rfl rfl rfl rfl rfl
    · cases h
  | consuming authToken newPasswordHash now =>
    simp only [ResetState.step] at h
    split at h
    · split at h <;> cases h
      · exact .done rfl rfl rfl ⟨rfl, rfl⟩
      · exact .goesOn rfl rfl rfl rfl rfl
    · cases h
  | revoking authToken newPasswordHash now =>
    simp only [ResetState.step] at h
    split at h <;> cases h
    exact .goesOn rfl rfl rfl rfl rfl
  | committing authToken newPasswordHash now revoked =>
    cases h
    exact .redeem _ _ authToken.id now rfl (consumeAuthToken_eq s.db authToken.id now) rfl rfl
      ⟨rfl, rfl⟩
  | auditing authToken =>
    cases h
    exact .done rfl rfl rfl ⟨rfl, rfl⟩
  | finished r => cases h

theorem verify_link {st st' : VerifyState} {e : Option Uuid}
    (h : st.step E pid s = some (s', st')) :
    LinkStep E s ⟨.verifyEmail st, e⟩ s'
      ⟨.verifyEmail st', (LinkState.verifyEmail st).commits <|> e⟩ := by
  cases st with
  | finding rawToken =>
    simp only [VerifyState.step] at h
    split at h <;> cases h
    · exact .done rfl rfl rfl ⟨rfl, rfl⟩
    · rename_i authToken hfind
      refine .found rfl rfl rfl ?_ rfl
      simp only [LinkState.finds, hfind, Option.map_some]
      rfl
  | consuming authToken now =>
    simp only [VerifyState.step] at h
    split at h
    · split at h <;> cases h
      · exact .done rfl rfl rfl ⟨rfl, rfl⟩
      · exact .goesOn rfl rfl rfl rfl rfl
    · cases h
  | updatingUser authToken now =>
    simp only [VerifyState.step] at h
    split at h
    · split at h <;> cases h
      · exact .done rfl rfl rfl ⟨rfl, rfl⟩
      · exact .goesOn rfl rfl rfl rfl rfl
    · cases h
  | committing authToken now =>
    cases h
    exact .redeem _ _ authToken.id now rfl (consumeAuthToken_eq s.db authToken.id now) rfl rfl
      ⟨rfl, rfl⟩
  | auditing authToken =>
    cases h
    exact .done rfl rfl rfl ⟨rfl, rfl⟩
  | finished r => cases h

theorem accept_link {st st' : AcceptState} {d : Draws} {e : Option Uuid}
    (h : st.step E pid d s = some (s', st')) :
    LinkStep E s ⟨.acceptInvitation st, e⟩ s'
      ⟨.acceptInvitation st', (LinkState.acceptInvitation st).commits <|> e⟩ := by
  cases st with
  | finding rawToken passwordHash =>
    simp only [AcceptState.step] at h
    split at h <;> cases h
    · exact .done rfl rfl rfl ⟨rfl, rfl⟩
    · rename_i authToken hfind
      refine .found rfl rfl rfl ?_ rfl
      simp only [LinkState.finds, hfind, Option.map_some]
      rfl
  | consuming authToken passwordHash =>
    simp only [AcceptState.step] at h
    split at h
    · split at h <;> cases h
      · exact .done rfl rfl rfl ⟨rfl, rfl⟩
      · exact .goesOn rfl rfl rfl rfl rfl
    · cases h
  | updatingUser authToken passwordHash consumedAt =>
    simp only [AcceptState.step] at h
    split at h
    · split at h <;> cases h
      · exact .done rfl rfl rfl ⟨rfl, rfl⟩
      · exact .goesOn rfl rfl rfl rfl rfl
    · cases h
  | committing authToken passwordHash consumedAt now user =>
    cases h
    exact .redeem _ _ authToken.id consumedAt rfl (consumeAuthToken_eq s.db authToken.id consumedAt)
      rfl rfl ⟨rfl, rfl⟩
  | auditing user =>
    cases h
    exact .done rfl rfl rfl ⟨rfl, rfl⟩
  | issuing user =>
    cases h
    exact .done rfl rfl rfl ⟨rfl, rfl⟩
  | finished r => cases h

theorem request_link {st st' : RequestState} {d : Draws} {e : Option Uuid}
    (h : st.step E pid d s = some (s', st')) :
    LinkStep E s ⟨.requestPasswordReset st, e⟩ s'
      ⟨.requestPasswordReset st', (LinkState.requestPasswordReset st).commits <|> e⟩ := by
  cases st with
  | finding email =>
    simp only [RequestState.step] at h
    split at h <;> cases h <;> exact .done rfl rfl rfl ⟨rfl, rfl⟩
  | matching user now rawToken =>
    cases h
    refine .silent _ _ rfl rfl rfl (fun id hid => by cases hid) fun _ id t ht hpending => ?_
    have hid : t.id = id := Table.key_of_find? ht
    rw [List.append_nil, ← hid]
    exact List.mem_map.2 ⟨t, List.mem_filter.2 ⟨Table.mem_of_find? ht, hpending⟩, rfl⟩
  | invalidating user now rawToken pending matched =>
    cases pending with
    | nil =>
      cases h
      exact .silent _ _ rfl rfl rfl (fun id hid => by cases hid) id
    | cons id pending =>
      simp only [RequestState.step] at h
      split at h
      · split at h <;> cases h
        · refine .silent _ _ rfl rfl rfl (fun id hid => by cases hid) fun hin id' t ht hpending => ?_
          have hmem := hin id' t ht hpending
          simp only [List.cons_append, List.mem_cons, List.mem_append] at hmem ⊢
          rcases hmem with rfl | hmem | hmem
          · exact .inr (.inl rfl)
          · exact .inl hmem
          · exact .inr (.inr hmem)
        · rename_i hnot
          refine .silent _ _ rfl rfl rfl (fun id hid => by cases hid) fun hin id' t ht hpending => ?_
          have hmem := hin id' t ht hpending
          simp only [List.cons_append, List.mem_cons] at hmem
          rcases hmem with rfl | hmem
          · rw [ht] at hnot
            exact absurd hpending hnot
          · exact hmem
      · cases h
  | creating user now rawToken matched =>
    simp only [RequestState.step] at h
    split at h <;> cases h
    exact .silent _ _ rfl rfl rfl (fun id hid => by cases hid) fun hin => ⟨hin, rfl⟩
  | committing user now rawToken matched authToken =>
    cases h
    exact .request _ _ user now rawToken matched authToken rfl rfl rfl ⟨rfl, rfl⟩
  | mailing user rawToken =>
    cases h
    exact .done rfl rfl rfl ⟨rfl, rfl⟩
  | auditing user =>
    cases h
    exact .done rfl rfl rfl ⟨rfl, rfl⟩
  | finished => cases h

theorem link_step {i : LinkInput} (h : c.step E pid i s = some (s', c')) :
    LinkStep E s c s' c' := by
  obtain ⟨st, e⟩ := c
  cases i with
  | fail =>
    simp only [LinkCall.step] at h
    split at h <;> cases h
    exact .done rfl rfl rfl ⟨rfl, rfl⟩
  | proceed d =>
    obtain ⟨⟨s₁, st₁⟩, hst, hres⟩ := Option.map_eq_some_iff.1 h
    cases hres
    cases st with
    | requestPasswordReset st =>
      obtain ⟨⟨s₂, st₂⟩, hst', hres⟩ := Option.map_eq_some_iff.1 hst
      cases hres
      exact request_link hst'
    | resetPassword st =>
      obtain ⟨⟨s₂, st₂⟩, hst', hres⟩ := Option.map_eq_some_iff.1 hst
      cases hres
      exact reset_link hst'
    | verifyEmail st =>
      obtain ⟨⟨s₂, st₂⟩, hst', hres⟩ := Option.map_eq_some_iff.1 hst
      cases hres
      exact verify_link hst'
    | acceptInvitation st =>
      obtain ⟨⟨s₂, st₂⟩, hst', hres⟩ := Option.map_eq_some_iff.1 hst
      cases hres
      exact accept_link hst'
    | thrown => cases hst

/-! ## Every call, after a step -/

/-- A link that is found is unconsumed. -/
theorem row_of_finds {st : LinkState} (h : st.finds E db = some id) :
    ∃ t, db.authTokens.find? id = some t ∧ t.consumedAt = none := by
  cases st with
  | requestPasswordReset st => cases h
  | resetPassword st =>
    cases st with
    | finding rawToken newPasswordHash =>
      obtain ⟨a, ha, rfl⟩ := Option.map_eq_some_iff.1 h
      exact ⟨a, row_of_valid ha⟩
    | _ => cases h
  | verifyEmail st =>
    cases st with
    | finding rawToken =>
      obtain ⟨a, ha, rfl⟩ := Option.map_eq_some_iff.1 h
      exact ⟨a, row_of_valid ha⟩
    | _ => cases h
  | acceptInvitation st =>
    cases st with
    | finding rawToken passwordHash =>
      obtain ⟨a, ha, rfl⟩ := Option.map_eq_some_iff.1 h
      exact ⟨a, row_of_valid ha⟩
    | _ => cases h
  | thrown => cases h

theorem LinkStep.redeeming_back (h : LinkStep E s c s' c') (hid : c'.st.redeeming = some id) :
    c.st.redeeming = some id ∨ c.st.finds E s.db = some id := by
  cases h with
  | silent _ _ _ redeeming _ => exact redeeming id hid
  | redeem _ _ _ _ _ _ ended =>
    rw [ended.1] at hid
    cases hid
  | request _ _ _ _ _ _ _ _ ended =>
    rw [ended.1] at hid
    cases hid

theorem LinkStep.effect_back (h : LinkStep E s c s' c') (hid : c'.effect = some id) :
    c.effect = some id ∨ c.st.redeeming = some id ∧ c'.st.redeeming = none := by
  cases h with
  | silent _ _ effect _ _ => exact .inl (effect.symm.trans hid)
  | redeem _ _ redeeming _ _ effect ended =>
    rw [effect] at hid
    exact .inr ⟨redeeming.trans hid, ended.1⟩
  | request _ _ _ _ _ _ _ effect _ => exact .inl (effect.symm.trans hid)

theorem Db.Grows.congr {db'' : Db} (h : db.Grows new db')
    (heq : db''.authTokens = db'.authTokens) : db.Grows new db'' where
  row id t ht := by
    rw [heq]
    exact h.row id t ht
  consumed id hc := by
    unfold Db.Consumed
    rw [heq]
    exact h.consumed id hc
  back id t ht := by
    rw [heq] at ht
    exact h.back id t ht

/-- What a step leaves of the links: a request adds its own, any other step none. -/
theorem LinkStep.grows (h : LinkStep E s c s' c') :
    s.db.Grows Nothing s'.db ∨
      ∃ user now rawToken matched authToken,
        c.st = .requestPasswordReset (.committing user now rawToken matched authToken) ∧
        s'.db = s.db.commitRequest now matched authToken ∧ s.db.Grows (· = authToken) s'.db := by
  cases h with
  | silent tokens => exact .inl (.of_eq tokens)
  | redeem _ now _ tokens => exact .inl ((grows_consumeAll s.db _ now).congr tokens)
  | request user now rawToken matched authToken stmt hdb =>
    refine .inr ⟨user, now, rawToken, matched, authToken, stmt, hdb, ?_⟩
    refine ((grows_consumeAll s.db matched now).trans (grows_insert _ authToken)).congr ?_
    rw [hdb]
    rfl

theorem LinkCall.Holds.grows (h : c.Holds db) (g : db.Grows new db')
    (hnew : ∀ t userId, new t → c.st.invalidates = some userId → t.pendingReset userId = false) :
    c.Holds db' where
  spent id hid := g.consumed id (h.spent id hid)
  row id hid := by
    obtain ⟨t, ht⟩ := h.row id hid
    exact g.row id t ht
  matched := by
    have keeps : ∀ userId ids, c.st.invalidates = some userId → db.ResetsIn userId ids →
        db'.ResetsIn userId ids := by
      intro userId ids hst hin id t ht hpending
      have hnone : t.consumedAt = none := by
        simp only [AuthToken.pendingReset, Bool.and_eq_true] at hpending
        simpa using hpending.2
      rcases g.back id t ht hnone with hold | hnewt
      · exact hin id t hold hpending
      · rw [hnew t userId hnewt hst] at hpending
        cases hpending
    have hmatched := h.matched
    obtain ⟨st, e⟩ := c
    cases st with
    | requestPasswordReset st =>
      cases st with
      | invalidating user now rawToken pending matched => exact keeps user.id _ rfl hmatched
      | creating user now rawToken matched => exact keeps user.id _ rfl hmatched
      | committing user now rawToken matched authToken =>
        exact ⟨keeps user.id _ rfl hmatched.1, hmatched.2⟩
      | _ => trivial
    | _ => trivial

theorem LinkCall.Holds.step (h : c.Holds s.db) (hst : LinkStep E s c s' c') : c'.Holds s'.db := by
  have hgrows := hst.grows
  cases hst with
  | silent tokens now effect redeeming matched =>
    have g : s.db.Grows Nothing s'.db := .of_eq tokens
    refine LinkCall.Holds.grows ⟨?_, ?_, matched h.matched⟩ g fun _ _ hnothing => hnothing.elim
    · intro id hid
      exact h.spent id (effect.symm.trans hid)
    · intro id hid
      rcases redeeming id hid with hold | hfinds
      · exact h.row id hold
      · obtain ⟨t, ht, -⟩ := row_of_finds hfinds
        exact ⟨t, ht⟩
  | redeem id now redeeming tokens clock effect ended =>
    refine ⟨fun id' hid' => ?_, fun id' hid' => ?_, matched_of_none ended.2⟩
    · obtain rfl := Option.some.inj (effect.symm.trans hid')
      obtain ⟨t, ht⟩ := h.row _ redeeming
      unfold Db.Consumed
      rw [tokens]
      exact consumed_consumeAll now (List.mem_singleton.2 rfl) ht
    · rw [ended.1] at hid'
      cases hid'
  | request user now rawToken matched authToken stmt hdb effect ended =>
    refine ⟨fun id hid => ?_, fun id hid => ?_, matched_of_none ended.2⟩
    · have hspent := h.spent id (effect.symm.trans hid)
      rcases hgrows with g | ⟨_, _, _, _, _, -, -, g⟩
      · exact g.consumed id hspent
      · exact g.consumed id hspent
    · rw [ended.1] at hid
      cases hid

/-! ## Live links -/

theorem OneLive.grows (h : db.OneLive) (g : db.Grows new db') (hnow : db.now ≤ db'.now)
    (hnew : ∀ t, new t → t.type ≠ .passwordReset) : db'.OneLive := by
  have hold : ∀ t ∈ db'.authTokens.rows, t.Live db'.now →
      t ∈ db.authTokens.rows ∧ t.Live db.now := by
    rintro t ht ⟨htype, hnone, hexpires⟩
    rcases g.back t.id t (Table.find?_of_mem ht) hnone with hfind | hnewt
    · exact ⟨Table.mem_of_find? hfind, htype, hnone, Nat.le_trans hnow hexpires⟩
    · exact absurd htype (hnew t hnewt)
  intro t ht t' ht' huser hlive hlive'
  obtain ⟨hmem, hlive⟩ := hold t ht hlive
  obtain ⟨hmem', hlive'⟩ := hold t' ht' hlive'
  exact h t hmem t' hmem' huser hlive hlive'

/-- A request that has matched all the links of its user leaves one, its own. -/
theorem OneLive.request {user : User} {now : Instant} {matched : List Uuid} {authToken : AuthToken}
    (h : db.OneLive) (hin : db.ResetsIn user.id matched) (howner : authToken.userId = user.id) :
    (db.commitRequest now matched authToken).OneLive := by
  have hold : ∀ t ∈ (db.commitRequest now matched authToken).authTokens.rows, t.Live db.now →
      t = authToken ∨ t ∈ db.authTokens.rows ∧ t.userId ≠ user.id := by
    rintro t ht ⟨htype, hnone, -⟩
    rcases Table.mem_insert ht with hmem | heq
    · right
      have hfind := Table.find?_of_mem hmem
      rw [find?_consumeAll] at hfind
      obtain ⟨t₀, ht₀, heq⟩ := Option.map_eq_some_iff.1 hfind
      have hkey : t₀.id = t.id := Table.key_of_find? ht₀
      split at heq
      · rw [← heq] at hnone
        cases hnone
      · rename_i hnot
        subst heq
        refine ⟨Table.mem_of_find? ht₀, fun huser => hnot ?_⟩
        have hpending : t₀.pendingReset user.id = true := by
          simp [AuthToken.pendingReset, huser, htype, hnone]
        exact List.contains_iff_mem.2 (hin _ t₀ ht₀ hpending)
    · exact .inl heq
  intro t ht t' ht' huser hlive hlive'
  rcases hold t ht hlive with rfl | ⟨hmem, hne⟩
  · rcases hold t' ht' hlive' with rfl | ⟨-, hne'⟩
    · rfl
    · exact absurd (huser.symm.trans howner) hne'
  · rcases hold t' ht' hlive' with rfl | ⟨hmem', -⟩
    · exact absurd (huser.trans howner) hne
    · exact h t hmem t' hmem' huser hlive hlive'

/-! ## Runs -/

/-- What a pool has between two steps. -/
structure Linked (P : LinkPool) : Prop where
  holds : ∀ pid c, P.threads pid = some c → c.Holds P.shared.db
  alone : ∀ i j id, Redeems id (P.threads i) → Redeems id (P.threads j) → i = j
  unspent : ∀ i j id, Redeems id (P.threads i) → ¬ Spent id (P.threads j)
  live : P.shared.db.OneLive

theorem link_thread {i : LinkInput} {call t : Option LinkCall}
    (h : (links E).thread pid i s call = some (s', t)) :
    ∃ c c', call = some c ∧ t = some c' ∧ c.step E pid i s = some (s', c') := by
  cases call with
  | none => cases h
  | some c =>
    obtain ⟨⟨s₁, c₁⟩, hstep, hres⟩ := Option.map_eq_some_iff.1 h
    cases hres
    exact ⟨c, c₁, rfl, rfl, hstep⟩

theorem LinkStep.clock (h : LinkStep E s c s' c') : s'.db.now = s.db.now := by
  cases h with
  | silent _ now => exact now
  | redeem _ _ _ _ clock => exact clock
  | request _ _ _ _ _ _ hdb => rw [hdb]; rfl

/-- A step of a call, for the whole pool. -/
theorem Linked.step (h : Linked P) (hcall : P.threads pid = some c)
    (hst : LinkStep E P.shared c s c')
    (hfound : ∀ id, c.st.finds E P.shared.db = some id → c'.st.redeeming = some id →
      ∀ other, ¬ Redeems id (P.threads other))
    (hothers : ∀ other x, other ≠ pid → P.threads other = some x → x.Holds s.db)
    (hlive : s.db.OneLive) :
    Linked { shared := s, threads := Function.update P.threads pid (some c') } := by
  -- who has the link after the step had it before, or has just found it
  have redeems : ∀ {other id}, Redeems id (Function.update P.threads pid (some c') other) →
      Redeems id (P.threads other) ∨ other = pid ∧ c.st.finds E P.shared.db = some id ∧
        ∀ k, ¬ Redeems id (P.threads k) := by
    rintro other id ⟨x, hx, hid⟩
    by_cases hne : other = pid
    · subst hne
      rw [Function.update_self] at hx
      obtain rfl := Option.some.inj hx
      rcases hst.redeeming_back hid with hold | hfinds
      · exact .inl ⟨c, hcall, hold⟩
      · exact .inr ⟨rfl, hfinds, hfound id hfinds hid⟩
    · rw [Function.update_of_ne hne] at hx
      exact .inl ⟨x, hx, hid⟩
  have spent : ∀ {other id}, Spent id (Function.update P.threads pid (some c') other) →
      Spent id (P.threads other) ∨
        other = pid ∧ c.st.redeeming = some id ∧ c'.st.redeeming = none := by
    rintro other id ⟨x, hx, hid⟩
    by_cases hne : other = pid
    · subst hne
      rw [Function.update_self] at hx
      obtain rfl := Option.some.inj hx
      rcases hst.effect_back hid with hold | hredeeming
      · exact .inl ⟨c, hcall, hold⟩
      · exact .inr ⟨rfl, hredeeming⟩
    · rw [Function.update_of_ne hne] at hx
      exact .inl ⟨x, hx, hid⟩
  refine ⟨fun other x hx => ?_, fun i j id hi hj => ?_, fun i j id hi hj => ?_, hlive⟩
  · by_cases hne : other = pid
    · subst hne
      simp only [Function.update_self] at hx
      obtain rfl := Option.some.inj hx
      exact (h.holds other c hcall).step hst
    · simp only [Function.update_of_ne hne] at hx
      exact hothers other x hne hx
  · rcases redeems hi with hold | ⟨rfl, -, hnone⟩
    · rcases redeems hj with hold' | ⟨rfl, -, hnone⟩
      · exact h.alone i j id hold hold'
      · exact absurd hold (hnone i)
    · rcases redeems hj with hold' | ⟨rfl, -, -⟩
      · exact absurd hold' (hnone j)
      · rfl
  · rcases redeems hi with hold | ⟨rfl, hfinds, hnone⟩
    · rcases spent hj with hold' | ⟨rfl, hredeeming, hover⟩
      · exact h.unspent i j id hold hold'
      · -- the call that commits is the one that had the link, and has it no more
        obtain rfl := h.alone i j id hold ⟨c, hcall, hredeeming⟩
        obtain ⟨x, hx, hid⟩ := hi
        simp only [Function.update_self, Option.some.injEq] at hx
        rw [← hx, hover] at hid
        cases hid
    · rcases spent hj with ⟨x, hx, hspent⟩ | ⟨rfl, hredeeming, -⟩
      · obtain ⟨t, ht, hsome⟩ := (h.holds j x hx).spent id hspent
        obtain ⟨t', ht', hnone'⟩ := row_of_finds hfinds
        rw [ht] at ht'
        obtain rfl := Option.some.inj ht'
        rw [hnone'] at hsome
        cases hsome
      · exact absurd ⟨c, hcall, hredeeming⟩ (hnone _)

/-- A step that sends no link. -/
theorem Linked.others (h : Linked P) (pid : Nat) (g : P.shared.db.Grows Nothing db)
    (hnow : db.now = P.shared.db.now) :
    (∀ other x, other ≠ pid → P.threads other = some x → x.Holds db) ∧ db.OneLive :=
  ⟨fun other x _ hx => (h.holds other x hx).grows g fun _ _ hnothing => hnothing.elim,
    OneLive.grows h.live g (Nat.le_of_eq hnow.symm) fun _ hnothing => hnothing.elim⟩

theorem LinkStarts.linked (h0 : LinkStarts P₀) (hr : Reach (links E).system (InTurn E) P₀ P) :
    Linked P := by
  refine hr.inv Linked ?_ ?_
  · have fresh : ∀ pid c, P₀.threads pid = some c →
        c.st.redeeming = none ∧ c.effect = none ∧ c.st.invalidates = none := by
      intro pid c hcall
      obtain ⟨hfresh, hnone⟩ := h0.calls pid c hcall
      obtain ⟨st, e⟩ := c
      cases st with
      | requestPasswordReset st =>
        obtain ⟨email, rfl⟩ := hfresh
        exact ⟨rfl, hnone, rfl⟩
      | resetPassword st =>
        obtain ⟨rawToken, newPasswordHash, rfl⟩ := hfresh
        exact ⟨rfl, hnone, rfl⟩
      | verifyEmail st =>
        obtain ⟨rawToken, rfl⟩ := hfresh
        exact ⟨rfl, hnone, rfl⟩
      | acceptInvitation st =>
        obtain ⟨rawToken, passwordHash, rfl⟩ := hfresh
        exact ⟨rfl, hnone, rfl⟩
      | thrown => exact ⟨rfl, hnone, rfl⟩
    refine ⟨fun pid c hcall => ?_, fun i j id hi => ?_, fun i j id hi => ?_, h0.live⟩
    · obtain ⟨hredeeming, heffect, hinvalidates⟩ := fresh pid c hcall
      refine ⟨fun id hid => ?_, fun id hid => ?_, matched_of_none hinvalidates⟩
      · rw [heffect] at hid
        cases hid
      · rw [hredeeming] at hid
        cases hid
    · obtain ⟨c, hcall, hid⟩ := hi
      rw [(fresh i c hcall).1] at hid
      cases hid
    · obtain ⟨c, hcall, hid⟩ := hi
      rw [(fresh i c hcall).1] at hid
      cases hid
  · intro P a P' _ h hK hst
    cases a with
    | env x =>
      obtain rfl := Machine.env_eq_some.1 hst
      have g : P.shared.db.Grows (fun t => t.type ≠ .passwordReset) (x.apply P.shared.db) :=
        ⟨fun id t ht => ⟨t, x.kept _ id t ht⟩, fun id ⟨t, ht, hsome⟩ => ⟨t, x.kept _ id t ht, hsome⟩,
          fun id t ht _ => x.sent _ id t ht⟩
      refine ⟨fun pid c hcall => (h.holds pid c hcall).grows g fun t userId hnew _ => ?_, h.alone,
        h.unspent, OneLive.grows h.live g (x.now _) fun _ hnew => hnew⟩
      simp [AuthToken.pendingReset, hnew]
    | run pid i =>
      obtain ⟨s, t, hth, rfl⟩ := Machine.run_eq_some.1 hst
      obtain ⟨c, c', hcall, rfl, hcstep⟩ := link_thread hth
      have hstep := link_step hcstep
      cases i with
      | fail =>
        simp only [LinkCall.step] at hcstep
        split at hcstep <;> cases hcstep
        obtain ⟨hothers, hlive⟩ := h.others pid (.of_eq rfl) rfl
        exact h.step hcall hstep (fun id _ hid => by cases hid) hothers hlive
      | proceed d =>
        have hturn : NoOverlap E P pid := hK
        have hfound : ∀ id, c.st.finds E P.shared.db = some id → c'.st.redeeming = some id →
            ∀ other, ¬ Redeems id (P.threads other) :=
          fun id hfinds _ => hturn.found c id hcall hfinds
        rcases hstep.grows with g | ⟨user, now, rawToken, matched, authToken, stmt, hdb, g⟩
        · obtain ⟨hothers, hlive⟩ := h.others pid g hstep.clock
          exact h.step hcall hstep hfound hothers hlive
        · obtain ⟨hin, howner⟩ : P.shared.db.ResetsIn user.id matched ∧ authToken.userId = user.id := by
            have hmatched := (h.holds pid c hcall).matched
            rw [stmt] at hmatched
            exact hmatched
          refine h.step hcall hstep hfound (fun other x hne hx => ?_) ?_
          · refine (h.holds other x hx).grows g fun t userId hnew hst => ?_
            by_contra hpending
            simp only [hnew, AuthToken.pendingReset, howner, Bool.not_eq_false, Bool.and_eq_true,
              beq_iff_eq] at hpending
            rw [← hpending.1.1] at hst
            exact hturn.request c user now rawToken matched authToken hcall stmt other hne ⟨x, hx, hst⟩
          · rw [hdb]
            exact OneLive.request h.live hin howner

/-- As long as no call finds a link that another call is using, and no request sends its link while
another of its user is under way, each link has one effect and each user one live reset link. -/
theorem one_time (h0 : LinkStarts P₀) : OneTime E (InTurn E) P₀ where
  once P id i j hr hi hj := by
    refine hr.exclusive (Spent id) ?_ ?_ i j hi hj
    · rintro pid ⟨c, hcall, hid⟩
      rw [(h0.calls pid c hcall).2] at hid
      cases hid
    · rintro P pid x s t hP _ hth ⟨c', ht, hid⟩
      obtain ⟨c, c'', hcall, rfl, hstep⟩ := link_thread hth
      obtain rfl := Option.some.inj ht
      rcases (link_step hstep).effect_back hid with hold | ⟨hredeeming, -⟩
      · exact .inl ⟨c, hcall, hold⟩
      · exact .inr fun j => (h0.linked hP).unspent pid j id ⟨c, hcall, hredeeming⟩
  oneLive P hr := (h0.linked hr).live

/-! ## Two calls at once -/

def resetToken : AuthToken where
  id := 40
  userId := 3
  type := .passwordReset
  tokenHash := 1030
  expiresAt := passwordResetTtlMs

/-- The sample user with one reset link, and two calls. -/
def linkPool (first second : LinkState) : LinkPool where
  shared := { db := { sampleDb with authTokens := ⟨[resetToken], by decide⟩ }, lock := fun _ => none }
  threads
    | 0 => some { st := first }
    | 1 => some { st := second }
    | _ => none

theorem linkPool_starts {first second : LinkState} (h : first.Fresh) (h' : second.Fresh) :
    LinkStarts (linkPool first second) where
  calls pid c hcall := by
    match pid with
    | 0 => cases hcall; exact ⟨h, rfl⟩
    | 1 => cases hcall; exact ⟨h', rfl⟩
    | _ + 2 => cases hcall
  live t ht t' ht' _ _ _ := (List.mem_singleton.1 ht).trans (List.mem_singleton.1 ht').symm

def linkDraws (n : Nat) : Draws := ⟨⟨n, n⟩, n, n, n, n, ""⟩

/-- Two resets with the link of the sample user. -/
def twoResets : LinkPool :=
  linkPool (.resetPassword (.finding 30 "#a")) (.resetPassword (.finding 30 "#b"))

/-- Two requests of the sample user. -/
def twoRequests : LinkPool :=
  linkPool (.requestPasswordReset (.finding "a@b.sn")) (.requestPasswordReset (.finding "a@b.sn"))

theorem twoResets_starts : LinkStarts twoResets := linkPool_starts ⟨30, "#a", rfl⟩ ⟨30, "#b", rfl⟩

theorem twoRequests_starts : LinkStarts twoRequests := linkPool_starts ⟨_, rfl⟩ ⟨_, rfl⟩

theorem one_time_sample : OneTime sampleEnv (InTurn sampleEnv) twoResets :=
  one_time twoResets_starts

def turns (pid n : Nat) : List (Act LinkInput Around) :=
  List.replicate n (.run pid (.proceed (linkDraws (50 + pid))))

/-- The user of a live reset link. -/
def Db.liveReset (db : Db) (id : Uuid) : Option Uuid :=
  ((db.authTokens.find? id).filter fun t => t.Live db.now).map AuthToken.userId

theorem liveReset_some {userId : Uuid} (h : db.liveReset id = some userId) :
    ∃ t, db.authTokens.find? id = some t ∧ t.userId = userId ∧ t.Live db.now := by
  obtain ⟨t, ht, howner⟩ := Option.map_eq_some_iff.1 h
  obtain ⟨hfind, hlive⟩ := Option.filter_eq_some_iff.1 ht
  exact ⟨t, hfind, howner, of_decide_eq_true hlive⟩

/-- Two resets find the link before either consumes it, and both set their password. Two requests
match the link before theirs, the second waits for it to be consumed by the first, and both send
one. -/
theorem links_overlap :
    (LinkStarts twoResets ∧ ¬ OneTime sampleEnv Always twoResets) ∧
      LinkStarts twoRequests ∧ ¬ OneTime sampleEnv Always twoRequests := by
  have hresets : (exec (links sampleEnv).system (fun _ _ => true) twoResets
      (turns 0 1 ++ turns 1 1 ++ turns 0 4 ++ turns 1 4)).map
      (fun P => ((P.threads 0).map LinkCall.effect, (P.threads 1).map LinkCall.effect)) =
      some (some (some 40), some (some 40)) := by decide +kernel
  have hrequests : (exec (links sampleEnv).system (fun _ _ => true) twoRequests
      (turns 0 2 ++ turns 1 2 ++ turns 0 4 ++ turns 1 4)).map
      (fun P => (P.shared.db.liveReset 50, P.shared.db.liveReset 51)) =
      some (some 3, some 3) := by decide +kernel
  refine ⟨⟨twoResets_starts, fun h => ?_⟩, twoRequests_starts, fun h => ?_⟩
  · obtain ⟨P, hP, hres⟩ := Option.map_eq_some_iff.1 hresets
    obtain ⟨hfirst, hsecond⟩ := Prod.mk.inj hres
    obtain ⟨c, hc, heffect⟩ := Option.map_eq_some_iff.1 hfirst
    obtain ⟨c', hc', heffect'⟩ := Option.map_eq_some_iff.1 hsecond
    have hsame := h.once P 40 0 1 (Reach.of_exec _ (fun _ _ _ => trivial) _ hP) ⟨c, hc, heffect⟩
      ⟨c', hc', heffect'⟩
    cases hsame
  · obtain ⟨P, hP, hres⟩ := Option.map_eq_some_iff.1 hrequests
    obtain ⟨hfirst, hsecond⟩ := Prod.mk.inj hres
    obtain ⟨t, ht, howner, hlive⟩ := liveReset_some hfirst
    obtain ⟨t', ht', howner', hlive'⟩ := liveReset_some hsecond
    have hsame := h.oneLive P (Reach.of_exec _ (fun _ _ _ => trivial) _ hP) t
      (Table.mem_of_find? ht) t' (Table.mem_of_find? ht') (howner.trans howner'.symm) hlive hlive'
    have hid : t.id = 50 := Table.key_of_find? ht
    have hid' : t'.id = 51 := Table.key_of_find? ht'
    rw [hsame, hid'] at hid
    cases hid

end Gescom.Auth
