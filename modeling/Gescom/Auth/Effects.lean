import Gescom.Auth.Calls

/-!
# What statements do to the refresh tokens

A row keeps its key, its owner and its family for ever. Its status changes in three ways: it is
created `ACTIVE`, a refresh rotates the token it has presented, and anything may revoke it.
-/

namespace Gescom.Auth

open ReadCommitted Transition

abbrev Rows := Uuid → Option RefreshToken

/-- Rows stay, with the columns nothing updates. -/
def Kept (row row' : Rows) : Prop := ∀ id t, row id = some t → ∃ t', row' id = some t' ∧ t.Same t'

def AuthCall.rotates (c : AuthCall) (id : Uuid) : Prop :=
  ∃ e new, c = refresh (.rotating e new) ∧ e.token.id = id

def AuthCall.createsIn (c : AuthCall) (userId familyId : Uuid) : Prop :=
  ∃ e, c = refresh (.creating e) ∧ e.token.userId = userId ∧ e.token.familyId = familyId

/-- A row keeps its status, unless it is revoked or the call rotates it; only the create of a
refresh adds a row. -/
structure TokensStep (c : AuthCall) (row row' : Rows) : Prop where
  old : ∀ id t, row id = some t → ∃ t', row' id = some t' ∧ t.Same t' ∧
    (t'.status = t.status ∨ t'.status = .revoked ∨ t'.status = .rotated ∧ c.rotates id)
  new : ∀ id t', row' id = some t' → row id = none → c.createsIn t'.userId t'.familyId

variable {E : AuthEnv} {c c' : AuthCall} {db db' : Db} {s s' : AuthStore} {pid pid' : Nat}
  {id f : Uuid}
  {row row' : Rows}

theorem TokensStep.kept (h : TokensStep c row row') : Kept row row' := by
  intro id t ht
  obtain ⟨t', ht', hsame, -⟩ := h.old id t ht
  exact ⟨t', ht', hsame⟩

theorem TokensStep.refl : TokensStep c row row where
  old _ t ht := ⟨t, ht, .refl t, .inl rfl⟩
  new _ _ ht hnone := by rw [hnone] at ht; cases ht

theorem tokensStep_revokeWhere (db : Db) (p : RefreshToken → Bool) (now : Instant) :
    TokensStep c db.token? (db.revokeWhere p now).token? where
  old id t ht := by
    rw [token?_revokeWhere, ht, Option.map_some]
    refine ⟨_, rfl, ?_⟩
    split
    · exact ⟨⟨rfl, rfl, rfl, rfl, rfl⟩, .inr (.inl rfl)⟩
    · exact ⟨.refl t, .inl rfl⟩
  new id t' ht' hnone := by
    rw [token?_revokeWhere, hnone] at ht'
    cases ht'

theorem tokensStep_expireToken : TokensStep c db.token? (db.expireToken id).token? where
  old k t ht := by
    rw [token?_expireToken]
    by_cases hk : k = id
    · subst hk
      rw [if_pos rfl, ht]
      exact ⟨_, rfl, ⟨rfl, rfl, rfl, rfl, rfl⟩, .inr (.inl rfl)⟩
    · rw [if_neg hk]
      exact ⟨t, ht, .refl t, .inl rfl⟩
  new k t' ht' hnone := by
    rw [token?_expireToken] at ht'
    by_cases hk : k = id
    · subst hk
      rw [if_pos rfl, hnone] at ht'
      cases ht'
    · rw [if_neg hk, hnone] at ht'
      cases ht'

theorem tokensStep_rotateToken (replacedBy : Uuid) (hc : c.rotates id) :
    TokensStep c db.token? (db.rotateToken id replacedBy).token? where
  old k t ht := by
    obtain ⟨t', ht', hsame, hstatus⟩ := rotateToken_row replacedBy ht
    refine ⟨t', ht', hsame, hstatus.imp_right fun hr => .inr ⟨hr.1, ?_⟩⟩
    rw [hr.2]
    exact hc
  new k t' ht' hnone := by
    obtain ⟨t, ht, -⟩ := rotateToken_back ht'
    cases hnone.symm.trans ht

theorem tokensStep_createToken {t : RefreshToken} (h : db.unused t.id t.tokenHash = true)
    (hc : c.createsIn t.userId t.familyId) : TokensStep c db.token? (db.createToken t).token? where
  old k x hx := ⟨x, createToken_row h hx, .refl x, .inl rfl⟩
  new k t' ht' hnone := by
    rcases createToken_back h ht' with ⟨-, rfl⟩ | hold
    · exact hc
    · cases hnone.symm.trans hold

theorem refresh_tokensStep {st st' : RefreshState} {new : Draw}
    (h : RefreshStep E s new st s' st') : TokensStep (.refresh st) s.db.token? s'.db.token? := by
  cases h with
  | unknown => exact .refl
  | found => exact .refl
  | revoke => exact tokensStep_revokeWhere ..
  | audit => exact .refl
  | expire => exact tokensStep_expireToken
  | create hunused => exact tokensStep_createToken hunused ⟨_, rfl, rfl, rfl⟩
  | rotate => exact tokensStep_rotateToken _ ⟨_, _, rfl, rfl⟩
  | missing => exact .refl

theorem logout_tokensStep {st st' : LogoutState} (h : st.step E pid s = some (s', st')) :
    TokensStep (.logout st) s.db.token? s'.db.token? := by
  cases st with
  | finding raw u =>
    simp only [LogoutState.step] at h
    split at h
    · cases h; exact .refl
    · split at h <;> cases h <;> exact .refl
  | revoking t u =>
    simp only [LogoutState.step] at h
    split at h <;> cases h
    exact tokensStep_revokeWhere ..
  | readingUser u => cases h; exact .refl
  | auditing u user => cases h; exact .refl
  | finished => cases h

theorem reset_tokensStep {st st' : ResetState} (h : st.step E pid s = some (s', st')) :
    TokensStep (.resetPassword st) s.db.token? s'.db.token? := by
  cases st with
  | finding raw hash =>
    simp only [ResetState.step] at h
    split at h <;> cases h <;> exact .refl
  | updatingUser a hash =>
    simp only [ResetState.step] at h
    split at h
    · split at h <;> cases h <;> exact .refl
    · cases h
  | consuming a hash now =>
    simp only [ResetState.step] at h
    split at h
    · split at h <;> cases h <;> exact .refl
    · cases h
  | revoking a hash now =>
    simp only [ResetState.step] at h
    split at h <;> cases h
    exact .refl
  | committing a hash now revoked =>
    cases h
    exact tokensStep_revokeWhere ((s.db.resetUser a.userId hash).consumeAuthToken a.id now) _ _
  | auditing a => cases h; exact .refl
  | finished r => cases h

theorem suspend_tokensStep {st st' : SuspendState} (h : st.step pid s = some (s', st')) :
    TokensStep (.suspendEnterprise st) s.db.token? s'.db.token? := by
  cases st with
  | finding actor e =>
    simp only [SuspendState.step] at h
    split at h <;> cases h <;> exact .refl
  | settingStatus actor e =>
    simp only [SuspendState.step] at h
    split at h <;> cases h <;> exact .refl
  | revoking actor e =>
    simp only [SuspendState.step] at h
    split at h <;> cases h
    exact tokensStep_revokeWhere ..
  | auditing actor e => cases h; exact .refl
  | finished r => cases h

theorem tokens_step {i : Input} (h : (sessions E).thread pid i s c = some (s', c')) :
    TokensStep c s.db.token? s'.db.token? := by
  cases call_step h with
  | fail => exact .refl
  | refresh hst => exact refresh_tokensStep hst
  | logout hst => exact logout_tokensStep hst
  | resetPassword hst => exact reset_tokensStep hst
  | suspendEnterprise hst => exact suspend_tokensStep hst

/-- A login adds a row in a family of its own; the rest of the environment leaves the tokens
alone. -/
theorem env_tokens (e : Env) (db : Db) :
    (e.apply db).token? = db.token? ∨
      ∃ t, e = .login t ∧ db.token? t.id = none ∧
        (∀ k, (e.apply db).token? k = if k = t.id then some t.issued else db.token? k) ∧
        ∀ id t', db.token? id = some t' → t'.familyId ≠ t.familyId := by
  cases e with
  | login t =>
    simp only [Env.apply, Db.openFamily]
    split
    · rename_i h
      exact .inr ⟨t, rfl, token?_of_unused h.1, fun k => token?_createToken (t := t.issued) h.1,
        fun _ _ ht' => h.2 _ (token?_mem ht')⟩
    · exact .inl rfl
  | _ => exact .inl rfl

theorem env_kept (e : Env) (db : Db) : Kept db.token? (e.apply db).token? := by
  intro id t ht
  rcases env_tokens e db with h | ⟨t₀, -, hnone, hrow, -⟩
  · rw [h]
    exact ⟨t, ht, .refl t⟩
  · rw [hrow, if_neg]
    · exact ⟨t, ht, .refl t⟩
    · rintro rfl
      rw [hnone] at ht
      cases ht

/-! ## Rows a call has read -/

/-- The row is still there, with the columns nothing updates. -/
def Db.Stores (db : Db) (t : RefreshToken) : Prop := ∃ t', db.token? t.id = some t' ∧ t.Same t'

theorem stores_of_found {tokenHash : TokenHash} {t : RefreshToken}
    (h : db.findRefreshToken tokenHash = some t) : db.Stores t :=
  ⟨t, token?_of_mem (List.mem_of_find?_eq_some h), .refl t⟩

theorem findExisting_token {tokenHash : TokenHash} {e : Existing}
    (h : db.findExisting tokenHash = some e) : db.findRefreshToken tokenHash = some e.token := by
  simp only [Db.findExisting, Option.bind_eq_some_iff, Option.map_eq_some_iff] at h
  obtain ⟨t, ht, u, -, rfl⟩ := h
  exact ht

theorem findExisting_user {tokenHash : TokenHash} {e : Existing}
    (h : db.findExisting tokenHash = some e) :
    db.users.find? e.token.userId = some e.user ∧ e.enterprise = db.enterpriseOf e.user := by
  simp only [Db.findExisting, Option.bind_eq_some_iff, Option.map_eq_some_iff] at h
  obtain ⟨t, -, u, hu, rfl⟩ := h
  exact ⟨hu, rfl⟩

theorem Db.Stores.kept {t : RefreshToken} (h : db.Stores t) (hk : Kept db.token? db'.token?) :
    db'.Stores t := by
  obtain ⟨t', ht', hsame⟩ := h
  obtain ⟨t'', ht'', hsame'⟩ := hk t.id t' ht'
  exact ⟨t'', ht'', hsame.trans hsame'⟩

/-- A refresh keeps the row it has found in sight. -/
theorem refresh_stores {st st' : RefreshState} {new : Draw} (hst : RefreshStep E s new st s' st')
    (h : ∀ e, st.existing = some e → s.db.Stores e.token) :
    ∀ e, st'.existing = some e → s'.db.Stores e.token := by
  have hk := (refresh_tokensStep hst).kept
  intro e he
  cases hst with
  | unknown => cases he
  | found hfind =>
    rw [existing_found] at he
    cases he
    exact stores_of_found (findExisting_token hfind)
  | revoke => exact (h e he).kept hk
  | audit => exact (h e he).kept hk
  | expire => exact (h e he).kept hk
  | create => exact (h e he).kept hk
  | rotate => exact (h e he).kept hk
  | missing hstmt => exact h e (by rcases hstmt with rfl | ⟨n, rfl⟩ <;> exact he)

end Gescom.Auth
