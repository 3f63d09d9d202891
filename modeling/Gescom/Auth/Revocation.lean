import Gescom.Auth.Effects

/-!
# Revocation is final

Once a logout, a detected reuse, an inactive account, a password reset or a suspension has revoked a
family, none of its tokens should be `ACTIVE` again. `refresh` can break this: it reads the
presented token, creates the successor and rotates in three statements, and the last two check
nothing. `revocation_final` gives the runs where revocation is final; `revoked_family_revived` is
one where it is not.
-/

namespace Gescom.Auth

open ReadCommitted Transition

/-! ## What must hold -/

/-- What a committed revocation is about. -/
inductive Scope where
  | family (id : Uuid)
  | user (id : Uuid)
  | enterprise (id : Uuid)
  deriving DecidableEq, Repr

def Scope.covers (db : Db) (t : RefreshToken) : Scope → Prop
  | family f => t.familyId = f
  | user u => t.userId = u
  | enterprise e => db.ofEnterprise e t = true

/-- The revocation that the next statement of a call commits. -/
def AuthCall.revokes : AuthCall → Option Scope
  | refresh (.revoking _ e) => some (.family e.token.familyId)
  | logout (.revoking t _) => some (.family t.familyId)
  | resetPassword (.committing a _ _ _) => some (.user a.userId)
  | suspendEnterprise (.revoking _ e) => some (.enterprise e)
  | _ => none

def Db.revoked (db : Db) (id : Uuid) : Prop := ∃ t, db.token? id = some t ∧ t.status = .revoked

/-- In the runs whose steps meet `K`, revocations are final. -/
structure RevocationFinal (E : AuthEnv) (K : AuthPool → Act Input Env → Prop)
    (P₀ : AuthPool) : Prop where
  /-- After a revocation, no token of a family it covers is `ACTIVE`. -/
  final : ∀ P P₁ P₂ pid new scope, Reach (sessions E).system K P₀ P →
    K P (.run pid (.proceed new)) →
    (P.threads pid).revokes = some scope →
      (sessions E).system.step P (.run pid (.proceed new)) = some P₁ →
    Reach (sessions E).system K P₁ P₂ →
    ∀ id t, P.shared.db.token? id = some t → scope.covers P.shared.db t →
      ∀ id' t', P₂.shared.db.token? id' = some t' → t'.familyId = t.familyId → t'.status ≠ .active
  /-- A `REVOKED` row stays `REVOKED`. -/
  terminal : ∀ P P' id, Reach (sessions E).system K P₀ P → Reach (sessions E).system K P P' →
    P.shared.db.revoked id → P'.shared.db.revoked id

/-- The presented token has not been revoked when `refresh` creates its successor or rotates it, and
no token of the user has appeared between the `updateMany` of `resetPassword` and its commit. -/
def NothingRevokedMeanwhile (P : AuthPool) : Act Input Env → Prop
  | .run pid (.proceed _) =>
    match P.threads pid with
    | .refresh (.creating e) => ¬ P.shared.db.revoked e.token.id
    | .refresh (.rotating e _) => ¬ P.shared.db.revoked e.token.id
    | .resetPassword (.committing a _ _ revoked) =>
      ∀ id t, P.shared.db.token? id = some t → t.userId = a.userId → t.status ≠ .revoked →
        id ∈ revoked
    | _ => True
  | _ => True

/-- A family has one owner. -/
def Db.Owned (db : Db) : Prop :=
  ∀ id id' t t', db.token? id = some t → db.token? id' = some t' → t.familyId = t'.familyId →
    t.userId = t'.userId

/-- Where runs start: no call has begun, no lock is held, each family belongs to one user. -/
structure Starts (P : AuthPool) : Prop where
  fresh : ∀ pid, (P.threads pid).Fresh
  unlocked : ∀ k, P.shared.lock k = none
  owned : P.shared.db.Owned

variable {E : AuthEnv} {c c' : AuthCall} {db db' : Db} {s s' : AuthStore} {pid pid' : Nat}
  {id f : Uuid}

/-! ## What calls know of the rows they have read -/

/-- The refresh token a call has found. -/
def AuthCall.presented : AuthCall → Option RefreshToken
  | refresh st => st.existing.map Existing.token
  | logout (.revoking t _) => some t
  | _ => none

/-- The row a call has found is stored. -/
def AuthCall.Asserts (_ : Nat) (c : AuthCall) (s : AuthStore) : Prop :=
  ∀ t, c.presented = some t → s.db.Stores t

theorem refresh_asserts {st st' : RefreshState} {new : Draw} (hst : RefreshStep E s new st s' st')
    (hA : (AuthCall.refresh st).Asserts pid s) : (AuthCall.refresh st').Asserts pid s' := by
  intro t ht
  obtain ⟨e, he, rfl⟩ := Option.map_eq_some_iff.1 ht
  exact refresh_stores hst (fun e he => hA e.token (by rw [AuthCall.presented, he]; rfl)) e he

theorem logout_asserts {st st' : LogoutState} (hst : st.step E pid s = some (s', st')) :
    (AuthCall.logout st').Asserts pid s' := by
  intro t ht
  cases st with
  | finding raw u =>
    simp only [LogoutState.step] at hst
    split at hst
    · cases hst; cases ht
    · rename_i t₀ hfound
      split at hst <;> cases hst <;> cases ht
      exact stores_of_found hfound
  | revoking t₀ u =>
    simp only [LogoutState.step] at hst
    split at hst <;> cases hst
    cases ht
  | readingUser u => cases hst; cases ht
  | auditing u user => cases hst; cases ht
  | finished => cases hst

theorem asserts_step {i : Input} (h : (sessions E).thread pid i s c = some (s', c'))
    (hA : c.Asserts pid s) : c'.Asserts pid s' := by
  cases call_step h with
  | refresh hst => exact refresh_asserts hst hA
  | logout hst => exact logout_asserts hst
  | _ => intro t ht; cases ht

/-! ## Families keep their owner -/

theorem owned_step (h : TokensStep c db.token? db'.token?)
    (hA : ∀ t, c.presented = some t → db.Stores t) (hO : db.Owned) : db'.Owned := by
  -- every row has an older row of its family and its user
  have origin : ∀ id t, db'.token? id = some t →
      ∃ k t₀, db.token? k = some t₀ ∧ t₀.familyId = t.familyId ∧ t₀.userId = t.userId := by
    intro id t ht
    cases hold : db.token? id with
    | some t₀ =>
      obtain ⟨t', ht', hsame, -⟩ := h.old id t₀ hold
      rw [ht] at ht'
      cases ht'
      exact ⟨id, t₀, hold, hsame.familyId.symm, hsame.userId.symm⟩
    | none =>
      obtain ⟨e, rfl, hu, hf⟩ := h.new id t ht hold
      obtain ⟨t₀, ht₀, hsame⟩ := hA e.token rfl
      exact ⟨_, t₀, ht₀, hsame.familyId.trans hf, hsame.userId.trans hu⟩
  intro id id' t t' ht ht' hfam
  obtain ⟨k, t₀, ht₀, hf, hu⟩ := origin id t ht
  obtain ⟨k', t₀', ht₀', hf', hu'⟩ := origin id' t' ht'
  rw [← hu, ← hu']
  exact hO k k' t₀ t₀' ht₀ ht₀' (by rw [hf, hf', hfam])

theorem owned_env (e : Env) (hO : db.Owned) : (e.apply db).Owned := by
  rcases env_tokens e db with h | ⟨t₀, -, -, hrow, hnew⟩
  · intro id id' t t' ht ht'
    rw [h] at ht ht'
    exact hO id id' t t' ht ht'
  · intro id id' t t' ht ht' hfam
    rw [hrow] at ht ht'
    by_cases hid : id = t₀.id <;> by_cases hid' : id' = t₀.id
    · rw [if_pos hid] at ht
      rw [if_pos hid'] at ht'
      cases ht
      cases ht'
      rfl
    · rw [if_pos hid] at ht
      rw [if_neg hid'] at ht'
      cases ht
      exact absurd hfam.symm (hnew id' t' ht')
    · rw [if_neg hid] at ht
      rw [if_pos hid'] at ht'
      cases ht'
      exact absurd hfam (hnew id t ht)
    · rw [if_neg hid] at ht
      rw [if_neg hid'] at ht'
      exact hO id id' t t' ht ht' hfam

/-- Calls know their rows and families have one owner, in every run. -/
theorem sessionOutline :
    Outline (sessions E) Always (fun s => s.db.Owned) (fun pid c s => c.Asserts pid s)
    (fun _ s s' => Kept s.db.token? s'.db.token?) where
  own _ _ _ _ _ _ hI hQ hst :=
    ⟨owned_step (tokens_step hst) hQ hI, asserts_step hst hQ, (tokens_step hst).kept⟩
  stable _ _ _ _ _ _ _ _ hG hQ := fun t ht => (hQ t ht).kept hG
  env P e _ hI := ⟨owned_env e hI, fun _ _ hQ t ht => (hQ t ht).kept (env_kept e P.shared.db)⟩

variable {P P' P₀ : AuthPool}

theorem Starts.annotated (h : Starts P₀) :
    Annotated (fun s => s.db.Owned) (fun pid c s => AuthCall.Asserts pid c s) P₀ := by
  refine ⟨h.owned, fun pid t ht => ?_⟩
  have hf := h.fresh pid
  cases hc : P₀.threads pid with
  | refresh st =>
    rw [hc] at hf ht
    obtain ⟨raw, rfl⟩ := hf
    cases ht
  | logout st =>
    rw [hc] at hf ht
    obtain ⟨raw, u, rfl⟩ := hf
    cases ht
  | _ => rw [hc] at ht; cases ht

/-! ## Dead families -/

/-- Every row of the family is `REVOKED`. -/
structure Db.Dead (db : Db) (f : Uuid) : Prop where
  exists_row : ∃ id t, db.token? id = some t ∧ t.familyId = f
  revoked : ∀ id t, db.token? id = some t → t.familyId = f → t.status = .revoked

/-- Under the condition a statement revives no row. -/
theorem no_revival {P : AuthPool} {new : Draw}
    (hK : NothingRevokedMeanwhile P (.run pid (.proceed new)))
    (hst : TokensStep (P.threads pid) P.shared.db.token? db'.token?) {t : RefreshToken}
    (ht : P.shared.db.token? id = some t) (hrev : t.status = .revoked) :
    ∃ t', db'.token? id = some t' ∧ t.Same t' ∧ t'.status = .revoked := by
  obtain ⟨t', ht', hsame, hkeep | hrev' | ⟨-, e, n, hc, rfl⟩⟩ := hst.old id t ht
  · exact ⟨t', ht', hsame, hkeep.trans hrev⟩
  · exact ⟨t', ht', hsame, hrev'⟩
  · simp only [NothingRevokedMeanwhile, hc] at hK
    exact absurd ⟨t, ht, hrev⟩ hK

theorem revoked_step {a : Act Input Env} (hK : NothingRevokedMeanwhile P a)
    (hst : (sessions E).system.step P a = some P') (h : P.shared.db.revoked id) :
    P'.shared.db.revoked id := by
  obtain ⟨t, ht, hrev⟩ := h
  cases a with
  | run pid i =>
    obtain ⟨s, c, hth, rfl⟩ := Machine.run_eq_some.1 hst
    cases i with
    | proceed new =>
      obtain ⟨t', ht', -, hrev'⟩ := no_revival hK (tokens_step hth) ht hrev
      exact ⟨t', ht', hrev'⟩
    | fail =>
      cases call_step hth
      exact ⟨t, ht, hrev⟩
  | env e =>
    obtain rfl := Machine.env_eq_some.1 hst
    rcases env_tokens e P.shared.db with h | ⟨t₀, -, hnone, hrow, -⟩
    · exact ⟨t, by rw [← ht, ← h]; rfl, hrev⟩
    · refine ⟨t, ?_, hrev⟩
      show (e.apply P.shared.db).token? id = some t
      rw [hrow, if_neg, ht]
      rintro rfl
      rw [hnone] at ht
      cases ht

theorem dead_step
    (hann : Annotated (fun s => s.db.Owned) (fun pid c s => AuthCall.Asserts pid c s) P)
    {a : Act Input Env} (hK : NothingRevokedMeanwhile P a)
    (hst : (sessions E).system.step P a = some P')
    (h : P.shared.db.Dead f) : P'.shared.db.Dead f := by
  have hkept : Kept P.shared.db.token? P'.shared.db.token? := by
    cases a with
    | run pid i =>
      obtain ⟨s, c, hth, rfl⟩ := Machine.run_eq_some.1 hst
      exact (tokens_step hth).kept
    | env e =>
      obtain rfl := Machine.env_eq_some.1 hst
      exact env_kept e P.shared.db
  obtain ⟨k, t₀, ht₀, hf₀⟩ := h.exists_row
  obtain ⟨t₀', ht₀', hsame₀⟩ := hkept k t₀ ht₀
  refine ⟨⟨k, t₀', ht₀', hsame₀.familyId.trans hf₀⟩, fun id t' ht' hf => ?_⟩
  cases hold : P.shared.db.token? id with
  | some t =>
    obtain ⟨x, hx, hsame⟩ := hkept id t hold
    rw [ht'] at hx
    cases hx
    obtain ⟨y, hy, hrev⟩ := revoked_step hK hst
      ⟨t, hold, h.revoked id t hold (hsame.familyId.symm.trans hf)⟩
    rw [ht'] at hy
    cases hy
    exact hrev
  | none =>
    cases a with
    | run pid i =>
      obtain ⟨s, c, hth, rfl⟩ := Machine.run_eq_some.1 hst
      -- a new row comes from a presented token of the family, which is revoked
      obtain ⟨e, hc, -, hfam⟩ := (tokens_step hth).new id t' ht' hold
      obtain ⟨t₁, ht₁, hsame⟩ := hann.2 pid e.token (by rw [hc]; rfl)
      cases i with
      | proceed new =>
        simp only [NothingRevokedMeanwhile, hc] at hK
        exact absurd ⟨t₁, ht₁, h.revoked _ t₁ ht₁ (hsame.familyId.trans (hfam.trans hf))⟩ hK
      | fail =>
        cases call_step hth
        cases hold.symm.trans ht'
    | env e =>
      obtain rfl := Machine.env_eq_some.1 hst
      have hrow : (e.apply P.shared.db).token? id = some t' := ht'
      rcases env_tokens e P.shared.db with hsame | ⟨t₁, -, -, hnew, hfresh⟩
      · rw [hsame, hold] at hrow
        cases hrow
      · rw [hnew] at hrow
        by_cases hid : id = t₁.id
        · rw [if_pos hid] at hrow
          cases hrow
          exact absurd (hf₀.trans hf.symm) (hfresh k t₀ ht₀)
        · rw [if_neg hid, hold] at hrow
          cases hrow

/-- `updateMany` on every row of a family leaves it dead. -/
theorem dead_revokeWhere (db : Db) {p : RefreshToken → Bool} {now : Instant} {t : RefreshToken}
    (ht : db.token? id = some t)
    (hp : ∀ k x, db.token? k = some x → x.familyId = t.familyId → x.status ≠ .revoked →
    p x = true) : (db.revokeWhere p now).Dead t.familyId := by
  have hrow := fun k => token?_revokeWhere db k p now
  refine ⟨⟨id, _, by rw [hrow, ht, Option.map_some], ?_⟩, fun k x hx hf => ?_⟩
  · split <;> rfl
  · rw [hrow] at hx
    obtain ⟨y, hy, rfl⟩ := Option.map_eq_some_iff.1 hx
    split at hf
    · rw [if_pos ‹_›]
      rfl
    · rename_i hnot
      rw [if_neg hnot]
      by_contra hne
      exact hnot (by simp [hp k y hy hf hne, hne])

/-! ## The result -/

/-- The statement that commits a revocation leaves every family it covers dead. -/
theorem revocation_kills
    (hann : Annotated (fun s => s.db.Owned) (fun pid c s => AuthCall.Asserts pid c s) P)
    {new : Draw} (hK : NothingRevokedMeanwhile P (.run pid (.proceed new))) {scope : Scope}
    (hscope : (P.threads pid).revokes = some scope)
    (hst : (sessions E).thread pid (.proceed new) P.shared (P.threads pid) = some (s', c'))
    {t : RefreshToken} (ht : P.shared.db.token? id = some t) (hcov : scope.covers P.shared.db t) :
    s'.db.Dead t.familyId := by
  have sameUser : ∀ k x, P.shared.db.token? k = some x → x.familyId = t.familyId →
      x.userId = t.userId :=
    fun k x hx hf => hann.1 k id x t hx ht hf
  have hstep := call_step hst
  cases hc : P.threads pid with
  | refresh st =>
    rw [hc] at hscope hstep
    cases st <;> cases hscope
    cases hstep with
    | refresh hstep =>
      cases hstep with
      | revoke => exact dead_revokeWhere _ ht fun k x _ hf _ => by simpa using hf.trans hcov
      | missing hstmt => rcases hstmt with hstmt | ⟨n, hstmt⟩ <;> cases hstmt
  | logout st =>
    rw [hc] at hscope hstep
    cases st <;> cases hscope
    cases hstep with
    | logout hstep =>
      simp only [LogoutState.step] at hstep
      split at hstep <;> cases hstep
      exact dead_revokeWhere _ ht fun k x _ hf _ => by simpa using hf.trans hcov
  | resetPassword st =>
    rw [hc] at hscope hstep
    simp only [NothingRevokedMeanwhile, hc] at hK
    cases st <;> cases hscope
    rename_i a hash now revoked
    cases hstep with
    | resetPassword hstep =>
      cases hstep
      refine dead_revokeWhere ((P.shared.db.resetUser a.userId hash).consumeAuthToken a.id now) ht
        ?_
      intro k x hx hf hlive
      have hmem := hK k x hx ((sameUser k x hx hf).trans hcov) hlive
      simpa [token?_id hx] using hmem
  | suspendEnterprise st =>
    rw [hc] at hscope hstep
    cases st <;> cases hscope
    cases hstep with
    | suspendEnterprise hstep =>
      simp only [SuspendState.step] at hstep
      split at hstep <;> cases hstep
      refine dead_revokeWhere _ ht fun k x hx hf _ => ?_
      have hsame := sameUser k x hx hf
      simp only [Scope.covers, Db.ofEnterprise] at hcov ⊢
      rw [hsame]
      exact hcov
  | thrown =>
    rw [hc] at hscope
    cases hscope

/-- Revocations are final in every run where no refresh goes on with a token that has been revoked
since it was read, and no password reset commits over a token it has not seen. -/
theorem revocation_final (h0 : Starts P₀) : RevocationFinal E NothingRevokedMeanwhile P₀ where
  final P P₁ P₂ pid new scope hr hK hscope hst h id t ht hcov id' t' ht' hf := by
    have hann := sessionOutline.sound h0.annotated hr.always
    obtain ⟨s, c, hth, rfl⟩ := Machine.run_eq_some.1 hst
    have hdead := revocation_kills hann hK hscope hth ht hcov
    have hdead₂ : P₂.shared.db.Dead t.familyId := by
      refine h.inv (fun P => P.shared.db.Dead t.familyId) hdead fun Q a Q' hrQ hd hKQ hstQ => ?_
      have hannQ := sessionOutline.sound h0.annotated ((hr.step hK hst).trans hrQ).always
      exact dead_step hannQ hKQ hstQ hd
    rw [hdead₂.revoked id' t' ht' hf]
    decide
  terminal P P' id _ h hrev :=
    h.inv (fun P => P.shared.db.revoked id) hrev fun _ _ _ _ hd hK hst => revoked_step hK hst hd

/-- One refresh and one logout of the same session. -/
def logoutPool : AuthPool where
  shared := { db := sampleDb, lock := fun _ => none }
  threads pid := [AuthCall.refresh (.finding 10), .logout (.finding 10 3)].getD pid .thrown

theorem logoutPool_starts : Starts logoutPool where
  unlocked _ := rfl
  fresh pid := by
    match pid with
    | 0 => exact ⟨10, rfl⟩
    | 1 => exact ⟨10, 3, rfl⟩
    | n + 2 => trivial
  owned id id' t t' ht ht' _ := by rw [sampleDb_token ht, sampleDb_token ht']

theorem revocation_final_sample : RevocationFinal sampleEnv NothingRevokedMeanwhile logoutPool :=
  revocation_final logoutPool_starts

/-- The refresh reads the token in `ACTIVE`, the logout revokes the family, the refresh creates the
successor: the revoked family has an `ACTIVE` token again. -/
theorem revoked_family_revived :
    Starts logoutPool ∧ ¬ RevocationFinal sampleEnv Always logoutPool := by
  refine ⟨logoutPool_starts, fun hfinal => ?_⟩
  let M := (sessions sampleEnv).system
  let go (pid : Nat) : Act Input Env := .run pid (.proceed ⟨11, 2⟩)
  let run := exec M fun _ _ => true
  have hrun : ((run logoutPool [go 0, go 1]).bind fun P => (M.step P (go 1)).bind fun P₁ =>
      (run P₁ [go 0]).map fun P₂ =>
        ((P.threads 1).revokes, (P.shared.db.token? 1).map RefreshToken.familyId,
          (P₂.shared.db.token? 2).map fun t => (t.familyId, t.status))) =
      some (some (.family 7), some 7, some (7, .active)) := by decide +kernel
  simp only [Option.bind_eq_some_iff, Option.map_eq_some_iff, Prod.mk.injEq] at hrun
  obtain ⟨P, hP, P₁, hP₁, P₂, hP₂, hscope, ⟨t, ht, hf⟩, t', ht', hf', hactive⟩ := hrun
  have reached : ∀ {Q Q' as}, run Q as = some Q' → Reach M Always Q Q' :=
    fun h => Reach.of_exec _ (fun _ _ _ => trivial) _ h
  exact hfinal.final P P₁ P₂ 1 ⟨11, 2⟩ (.family 7) (reached hP) trivial hscope hP₁
    (reached hP₂) 1 t ht hf 2 t' ht'
    (hf'.trans hf.symm) hactive

end Gescom.Auth
