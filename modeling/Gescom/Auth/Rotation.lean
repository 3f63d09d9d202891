import Gescom.Auth.Effects

/-!
# Rotation is single-use

Only refreshes here. A family should have one `ACTIVE` token, each token should be exchanged once,
and a token that is presented twice should close its family. `refresh` checks the status when it
reads the row and rotates two statements later, so two presentations of one token can both succeed
(`exchanged_twice`). `rotation_single_use` gives the runs where they cannot.
-/

namespace Gescom.Auth

open ReadCommitted Transition

/-- Any number of `refresh` calls. -/
def refreshes (E : AuthEnv) : Machine AuthStore RefreshState Draw Env where
  thread pid new s st := st.step E pid new s
  env e s := s.autocommit e.apply

abbrev RefreshPool := Pool AuthStore RefreshState

/-! ## What must hold -/

def Db.hasStatus (db : Db) (id : Uuid) (status : RefreshTokenStatus) : Prop :=
  ∃ t, db.token? id = some t ∧ t.status = status

/-- Between the create of the successor and the rotation of the presented token. -/
def RefreshState.Rotating (st : RefreshState) (id : Uuid) : Prop :=
  ∃ e new, st = rotating e new ∧ e.token.id = id

/-- The call has exchanged the token for a pair. -/
def RefreshState.Exchanged (st : RefreshState) (id : Uuid) : Prop :=
  ∃ e pair, st = finished (some e) (.ok pair) ∧ e.token.id = id

/-- The presentation of a stored token is over. -/
def RefreshState.Completed (st : RefreshState) (id : Uuid) : Prop :=
  ∃ e r, st = finished (some e) r ∧ e.token.id = id

/-- The call has not begun or is over. -/
def RefreshState.Idle (st : RefreshState) : Prop :=
  (∃ raw, st = finding raw) ∨ ∃ e r, st = finished e r

/-- In the runs whose steps meet `K`, rotation is single-use. -/
structure SingleUse (E : AuthEnv) (K : RefreshPool → Act Draw Env → Prop)
    (P₀ : RefreshPool) : Prop where
  one_active : ∀ P, Reach (refreshes E).system K P₀ P → (∀ pid, (P.threads pid).Idle) →
    ∀ id id' t t', P.shared.db.token? id = some t → P.shared.db.token? id' = some t' →
      t.familyId = t'.familyId →
      t.status = .active → t'.status = .active → id = id'
  exchanged_once : ∀ P i j id, Reach (refreshes E).system K P₀ P → (P.threads i).Exchanged id →
    (P.threads j).Exchanged id → i = j
  /-- Two presentations of one token have completed: calls that start later with the family are
  refused. -/
  refused_after_two : ∀ P P' i j k id t raw, Reach (refreshes E).system K P₀ P → i ≠ j →
    (P.threads i).Completed id → (P.threads j).Completed id → P.shared.db.token? id = some t →
    P.threads k = .finding raw → Reach (refreshes E).system K P P' →
    ∀ e r, P'.threads k = .finished (some e) r → e.token.familyId = t.familyId →
      ∃ err, r = .error err

/-- When `refresh` uses the presented token up, by creating its successor or by expiring it, nobody
has done so before: the row is still `ACTIVE` (or at least not `ROTATED`), and no other call is
about to rotate it. -/
def PresentedUnused (P : RefreshPool) : Act Draw Env → Prop
  | .run pid _ =>
    match P.threads pid with
    | .creating e => P.shared.db.hasStatus e.token.id .active ∧
      ∀ j, ¬ (P.threads j).Rotating e.token.id
    | .expiring e => ¬ P.shared.db.hasStatus e.token.id .rotated ∧
      ∀ j, ¬ (P.threads j).Rotating e.token.id
    | _ => True
  | .env _ => True

/-- Where runs start: no call has begun, each family has one `ACTIVE` token at most. -/
structure RefreshStarts (P : RefreshPool) : Prop where
  fresh : ∀ pid, ∃ raw, P.threads pid = .finding raw
  one_active : ∀ id id' t t', P.shared.db.token? id = some t → P.shared.db.token? id' = some t' →
    t.familyId = t'.familyId → t.status = .active → t'.status = .active → id = id'

/-! ## Live tokens -/

/-- `ACTIVE`, and no successor of it exists yet. -/
structure Live (P : RefreshPool) (f id : Uuid) : Prop where
  row : ∃ t, P.shared.db.token? id = some t ∧ t.familyId = f ∧ t.status = .active
  unused : ∀ j, ¬ (P.threads j).Rotating id

/-- The family has no live token left. -/
structure Closed (P : RefreshPool) (f : Uuid) : Prop where
  exists_row : ∃ id t, P.shared.db.token? id = some t ∧ t.familyId = f
  none_live : ∀ id, ¬ Live P f id

/-- Where a live token comes from: it was live, it is the successor of one that no longer is, or a
login has opened its family. -/
inductive Origin (P : RefreshPool) (a : Act Draw Env) (P' : RefreshPool) (f id : Uuid) : Prop
  | old (h : Live P f id)
  | successor (pid : Nat) (new : Draw) (e : Existing) (step : a = .run pid new)
    (live : Live P f e.token.id)
      (used : (P'.threads pid).Rotating e.token.id) (drawn : id = new.id)
  | opened (t : RefreshToken) (step : a = .env (.login t)) (drawn : id = t.id)
      (fresh : ∀ k x, P.shared.db.token? k = some x → x.familyId ≠ f)

variable {E : AuthEnv} {P P' P₀ : RefreshPool} {a : Act Draw Env} {pid : Nat} {f id : Uuid}

/-- One statement of one call. -/
theorem refreshes_run {new : Draw} (h : (refreshes E).system.step P (.run pid new) = some P') :
    ∃ s st, RefreshStep E P.shared new (P.threads pid) s st ∧
      P' = { shared := s, threads := Function.update P.threads pid st } := by
  obtain ⟨s, st, hth, rfl⟩ := Machine.run_eq_some.1 h
  exact ⟨s, st, refresh_step hth, rfl⟩

/-- A call that is rotating is not affected by the steps of the others. -/
theorem rotating_update {st : RefreshState} {j : Nat} (h : (P.threads j).Rotating id)
    (hpid : ¬ (P.threads pid).Rotating id) : (Function.update P.threads pid st j).Rotating id := by
  by_cases hj : j = pid
  · subst hj
    exact absurd h hpid
  · rwa [Function.update_of_ne hj]

theorem Live.of_update {s : AuthStore} {st : RefreshState}
    (h : Live ⟨s, Function.update P.threads pid st⟩ f id) (hpid : ¬ (P.threads pid).Rotating id)
    (hrow : ∀ t, s.db.token? id = some t → t.status = .active → P.shared.db.token? id = some t) :
    Live P f id := by
  obtain ⟨t, ht, hf, hact⟩ := h.row
  exact ⟨⟨t, hrow t ht hact, hf, hact⟩, fun j hj => h.unused j (rotating_update hj hpid)⟩

/-- The rows a call has found are stored. -/
def Sees (P : RefreshPool) : Prop :=
  ∀ pid e, (P.threads pid).existing = some e → P.shared.db.Stores e.token

theorem live_origin_env (e : Env) (h : Live { P with shared := P.shared.autocommit e.apply } f id) :
    Origin P (.env e) { P with shared := P.shared.autocommit e.apply } f id := by
  obtain ⟨t, ht, hf, hact⟩ := h.row
  have hrow : (e.apply P.shared.db).token? id = some t := ht
  rcases env_tokens e P.shared.db with hsame | ⟨x, rfl, hnone, hnew, hfresh⟩
  · rw [hsame] at hrow
    exact .old ⟨⟨t, hrow, hf, hact⟩, h.unused⟩
  · rw [hnew] at hrow
    by_cases hid : id = x.id
    · rw [if_pos hid] at hrow
      cases hrow
      exact .opened x rfl hid fun k y hy => hf ▸ hfresh k y hy
    · rw [if_neg hid] at hrow
      exact .old ⟨⟨t, hrow, hf, hact⟩, h.unused⟩

theorem live_origin_run {new : Draw} {s : AuthStore} {st : RefreshState} (hsees : Sees P)
    (hK : PresentedUnused P (.run pid new))
    (hstep : RefreshStep E P.shared new (P.threads pid) s st)
    (h : Live ⟨s, Function.update P.threads pid st⟩ f id) :
    Origin P (.run pid new) ⟨s, Function.update P.threads pid st⟩ f id := by
  have hself := hsees pid
  generalize hc : P.threads pid = c at hstep hself
  have idle : (∀ e n, c ≠ .rotating e n) → ¬ (P.threads pid).Rotating id := by
    rintro hne ⟨e, n, he, -⟩
    exact hne e n (hc.symm.trans he)
  cases hstep with
  | unknown => exact .old (h.of_update (idle (by simp)) fun _ ht _ => ht)
  | found => exact .old (h.of_update (idle (by simp)) fun _ ht _ => ht)
  | audit => exact .old (h.of_update (idle (by simp)) fun _ ht _ => ht)
  | @revoke why e =>
    refine .old (h.of_update (idle (by simp)) fun t ht hact => ?_)
    simp only [autocommit_db, Db.revokeFamily, token?_revokeWhere, Option.map_eq_some_iff] at ht
    obtain ⟨x, hx, rfl⟩ := ht
    split at hact
    · cases hact
    · rwa [if_neg ‹_›]
  | @expire e =>
    refine .old (h.of_update (idle (by simp)) fun t ht hact => ?_)
    simp only [autocommit_db, token?_expireToken] at ht
    split at ht
    · obtain ⟨x, -, rfl⟩ := Option.map_eq_some_iff.1 ht
      cases hact
    · exact ht
  | @create e hunused =>
    simp only [PresentedUnused, hc] at hK
    obtain ⟨⟨t₀, ht₀, hact₀⟩, hnone⟩ := hK
    obtain ⟨x, hx, hsame⟩ := hself e rfl
    obtain rfl := Option.some.inj (hx.symm.trans ht₀)
    obtain ⟨t, ht, hf, hact⟩ := h.row
    simp only [autocommit_db, token?_createToken hunused] at ht
    split at ht
    · rename_i hid
      cases ht
      exact .successor pid new e rfl ⟨⟨x, hx, hsame.familyId.trans hf, hact₀⟩, hnone⟩
        ⟨e, new, Function.update_self .., rfl⟩ hid
    · exact .old ⟨⟨t, ht, hf, hact⟩, fun j hj => h.unused j (rotating_update hj (idle (by simp)))⟩
  | @rotate e n =>
    obtain ⟨t, ht, hf, hact⟩ := h.row
    simp only [autocommit_db, token?_rotateToken] at ht
    split at ht
    · obtain ⟨x, -, rfl⟩ := Option.map_eq_some_iff.1 ht
      cases hact
    · rename_i hid
      refine .old ⟨⟨t, ht, hf, hact⟩, fun j hj => h.unused j (rotating_update hj ?_)⟩
      rintro ⟨e', n', he', rfl⟩
      cases hc.symm.trans he'
      exact hid rfl
  | missing hstmt hnone =>
    -- the row was found earlier and rows stay
    obtain ⟨x, hx, -⟩ := hself _ (by rcases hstmt with rfl | ⟨n, rfl⟩ <;> rfl)
    cases hnone.symm.trans hx

theorem live_origin (hsees : Sees P) (hK : PresentedUnused P a)
    (hst : (refreshes E).system.step P a = some P') (h : Live P' f id) : Origin P a P' f id := by
  cases a with
  | env e =>
    obtain rfl := Machine.env_eq_some.1 hst
    exact live_origin_env e h
  | run pid new =>
    obtain ⟨s, st, hstep, rfl⟩ := refreshes_run hst
    exact live_origin_run hsees hK hstep h

/-! ## Families stay closed -/

theorem pool_kept (hst : (refreshes E).system.step P a = some P') :
    Kept P.shared.db.token? P'.shared.db.token? := by
  cases a with
  | env e =>
    obtain rfl := Machine.env_eq_some.1 hst
    exact env_kept e P.shared.db
  | run pid new =>
    obtain ⟨s, st, hstep, rfl⟩ := refreshes_run hst
    exact (refresh_tokensStep hstep).kept

/-- No statement makes a stored row `ACTIVE` again. -/
theorem active_before (hst : (refreshes E).system.step P a = some P') {t : RefreshToken}
    (ht : P.shared.db.token? id = some t) (hact : P'.shared.db.hasStatus id .active) :
    t.status = .active := by
  obtain ⟨t', ht', hact'⟩ := hact
  cases a with
  | env e =>
    obtain rfl := Machine.env_eq_some.1 hst
    have hrow : (e.apply P.shared.db).token? id = some t' := ht'
    rcases env_tokens e P.shared.db with hsame | ⟨x, -, hnone, hnew, -⟩
    · rw [hsame, ht] at hrow
      cases hrow
      exact hact'
    · rw [hnew, if_neg, ht] at hrow
      · cases hrow
        exact hact'
      · rintro rfl
        cases hnone.symm.trans ht
  | run pid new =>
    obtain ⟨s, st, hstep, rfl⟩ := refreshes_run hst
    obtain ⟨y, hy, -, hkeep | hrev | ⟨hrot, -⟩⟩ := (refresh_tokensStep hstep).old id t ht
    all_goals obtain rfl := Option.some.inj (hy.symm.trans ht')
    · exact hkeep.symm.trans hact'
    · cases hrev.symm.trans hact'
    · cases hrot.symm.trans hact'

theorem closed_step (hsees : Sees P) (hK : PresentedUnused P a)
    (hst : (refreshes E).system.step P a = some P') (h : Closed P f) : Closed P' f := by
  obtain ⟨k, t, ht, hf⟩ := h.exists_row
  obtain ⟨t', ht', hsame⟩ := pool_kept hst k t ht
  refine ⟨⟨k, t', ht', hsame.familyId.trans hf⟩, fun id hlive => ?_⟩
  cases live_origin hsees hK hst hlive with
  | old hold => exact h.none_live id hold
  | successor pid new e hstep hlive' _ _ => exact h.none_live _ hlive'
  | opened t₀ hstep _ hfresh => exact hfresh k t ht hf

/-! ## The invariant -/

/-- The call is refused, or about to be after it has revoked the family. -/
def RefreshState.Refused (st : RefreshState) (e : Existing) : Prop :=
  (∃ why, st = auditing why e) ∨ ∃ err, st = finished (some e) (.error err)

structure RotationInv (P : RefreshPool) : Prop where
  sees : Sees P
  one : ∀ f id id', Live P f id → Live P f id' → id = id'
  /-- A token that is revoked while a call is about to expire it belongs to a closed family. -/
  expiring : ∀ pid e, P.threads pid = .expiring e → P.shared.db.hasStatus e.token.id .revoked →
    Closed P e.token.familyId
  exchanged : ∀ pid id, (P.threads pid).Exchanged id → ¬ P.shared.db.hasStatus id .active
  refused : ∀ pid e, (P.threads pid).Refused e → Closed P e.token.familyId

theorem sees_step (hsees : Sees P) (hst : (refreshes E).system.step P a = some P') : Sees P' := by
  have hk := pool_kept hst
  intro j e he
  rcases Machine.step_thread hst j with hsame | ⟨new, s, st, rfl, hth, hs, hst'⟩
  · rw [hsame] at he
    exact (hsees j e he).kept hk
  · rw [hst'] at he
    rw [hs]
    exact refresh_stores (refresh_step hth) (hsees j) e he

theorem one_step (h : RotationInv P) (hK : PresentedUnused P a)
    (hst : (refreshes E).system.step P a = some P')
    {id' : Uuid} (hl : Live P' f id) (hl' : Live P' f id') : id = id' := by
  -- a live token that is not new is the presented one, which has just been used
  have used : ∀ {k pid e}, Live P' f k → Live P f k → Live P f e → (P'.threads pid).Rotating e →
      False := by
    intro k pid e hk hold he hrot
    rw [h.one f k e hold he] at hk
    exact hk.unused pid hrot
  cases live_origin h.sees hK hst hl with
  | old hold =>
    cases live_origin h.sees hK hst hl' with
    | old hold' => exact h.one f id id' hold hold'
    | successor pid new e _ hlive hrot _ => exact (used hl hold hlive hrot).elim
    | opened t _ _ hfresh =>
      obtain ⟨x, hx, hf, -⟩ := hold.row
      exact absurd hf (hfresh id x hx)
  | successor pid new e hstep hlive hrot hid =>
    cases live_origin h.sees hK hst hl' with
    | old hold' => exact (used hl' hold' hlive hrot).elim
    | successor pid' new' e' hstep' _ _ hid' =>
      rw [hstep] at hstep'
      cases hstep'
      rw [hid, hid']
    | opened t hstep' _ _ => rw [hstep] at hstep'; cases hstep'
  | opened t hstep hid hfresh =>
    cases live_origin h.sees hK hst hl' with
    | old hold' =>
      obtain ⟨x, hx, hf, -⟩ := hold'.row
      exact absurd hf (hfresh id' x hx)
    | successor pid new e hstep' _ _ _ => rw [hstep] at hstep'; cases hstep'
    | opened t' hstep' hid' _ =>
      rw [hstep] at hstep'
      cases hstep'
      rw [hid, hid']

/-- `updateMany` on a family closes it. -/
theorem closed_revokeFamily {t : RefreshToken} (threads : Nat → RefreshState) (s : AuthStore)
    (ht : s.db.token? id = some t) (hf : t.familyId = f) :
    Closed ⟨s.autocommit (Db.revokeFamily f), threads⟩ f := by
  have hrow := fun k => token?_revokeWhere s.db k (fun t => t.familyId == f) s.db.now
  refine ⟨⟨id, _, by rw [autocommit_db, Db.revokeFamily, hrow, ht, Option.map_some], ?_⟩,
    fun k hlive => ?_⟩
  · split <;> exact hf
  · obtain ⟨x, hx, hxf, hact⟩ := hlive.row
    rw [autocommit_db, Db.revokeFamily, hrow] at hx
    obtain ⟨y, -, rfl⟩ := Option.map_eq_some_iff.1 hx
    split at hact
    · cases hact
    · rename_i hnot
      rw [if_neg hnot] at hxf
      exact hnot (by simp [hxf, hact])

/-- Expiring the presented token closes its family, if nobody has used the token before. -/
theorem closed_expireToken {new : Draw} {e : Existing} (h : RotationInv P)
    (hpid : P.threads pid = .expiring e) (hK : PresentedUnused P (.run pid new))
    (hst : (refreshes E).system.step P (.run pid new) = some P')
    (hrev : P'.shared.db.hasStatus e.token.id .revoked) : Closed P' e.token.familyId := by
  obtain ⟨t, ht, hsame⟩ := h.sees pid e (by rw [hpid]; rfl)
  by_cases hstatus : t.status = .revoked
  · exact closed_step h.sees hK hst (h.expiring pid e hpid ⟨t, ht, hstatus⟩)
  · have hK' := hK
    simp only [PresentedUnused, hpid] at hK'
    have hact : t.status = .active := by
      cases hs : t.status with
      | active => rfl
      | rotated => exact absurd ⟨t, ht, hs⟩ hK'.1
      | revoked => exact absurd hs hstatus
    have hlive : Live P e.token.familyId e.token.id := ⟨⟨t, ht, hsame.familyId, hact⟩, hK'.2⟩
    obtain ⟨t', ht', hsame'⟩ := pool_kept hst _ t ht
    refine ⟨⟨_, t', ht', hsame'.familyId.trans hsame.familyId⟩, fun k hk => ?_⟩
    cases live_origin h.sees hK hst hk with
    | old hold =>
      -- it was the only live token, and it is revoked now
      obtain rfl := h.one _ _ _ hold hlive
      obtain ⟨x, hx, -, hxact⟩ := hk.row
      obtain ⟨y, hy, hyrev⟩ := hrev
      cases hx.symm.trans hy
      cases hxact.symm.trans hyrev
    | successor pid' new' e' hstep _ hrot _ =>
      cases hstep
      obtain ⟨s, st, hth, rfl⟩ := refreshes_run hst
      rw [hpid] at hth
      obtain ⟨e'', n, he'', -⟩ := hrot
      simp only [Function.update_self] at he''
      subst he''
      cases hth
    | opened x hstep _ _ => cases hstep

/-- A row that has just been revoked closes its family. -/
theorem closed_of_revoked (h : RotationInv P) (hK : PresentedUnused P a)
    (hst : (refreshes E).system.step P a = some P') {t : RefreshToken}
    (ht : P.shared.db.token? id = some t)
    (hrev : P'.shared.db.hasStatus id .revoked) : t.status = .revoked ∨ Closed P' t.familyId := by
  obtain ⟨t', ht', hrev'⟩ := hrev
  have untouched : P'.shared.db.token? id = some t → t.status = .revoked := by
    intro hsame
    cases hsame.symm.trans ht'
    exact hrev'
  cases a with
  | env e =>
    obtain rfl := Machine.env_eq_some.1 hst
    left
    apply untouched
    show (e.apply P.shared.db).token? id = some t
    rcases env_tokens e P.shared.db with hsame | ⟨x, -, hnone, hnew, -⟩
    · rw [hsame, ht]
    · rw [hnew, if_neg, ht]
      rintro rfl
      cases hnone.symm.trans ht
  | run pid new =>
    obtain ⟨s, st, hstep, rfl⟩ := refreshes_run hst
    generalize hc : P.threads pid = c at hstep
    cases hstep with
    | unknown => exact .inl (untouched ht)
    | found => exact .inl (untouched ht)
    | audit => exact .inl (untouched ht)
    | missing => exact .inl (untouched ht)
    | @revoke why e =>
      by_cases hf : t.familyId = e.token.familyId
      · rw [hf]
        exact .inr (closed_revokeFamily _ _ ht hf)
      · left
        apply untouched
        simp [Db.revokeFamily, token?_revokeWhere, ht, hf]
    | @expire e =>
      by_cases hid : id = e.token.id
      · subst hid
        obtain ⟨x, hx, hsame⟩ := h.sees pid e (by rw [hc]; rfl)
        cases hx.symm.trans ht
        rw [hsame.familyId]
        exact .inr (closed_expireToken h hc hK hst ⟨t', ht', hrev'⟩)
      · left
        apply untouched
        simp [token?_expireToken, hid, ht]
    | @create e hunused =>
      left
      apply untouched
      rw [autocommit_db]
      exact createToken_row hunused ht
    | @rotate e n =>
      by_cases hid : id = e.token.id
      · subst hid
        simp only [autocommit_db, token?_rotateToken, if_true, ht, Option.map_some,
          Option.some.injEq] at ht'
        subst ht'
        cases hrev'
      · left
        apply untouched
        simp [token?_rotateToken, hid, ht]

/-- What the own step of a call establishes about it. -/
theorem refused_step {new : Draw} {s : AuthStore} {st : RefreshState} {e : Existing}
    (h : RotationInv P) (hK : PresentedUnused P (.run pid new))
    (hst : (refreshes E).system.step P (.run pid new) = some ⟨s, Function.update P.threads pid st⟩)
    (hstep : RefreshStep E P.shared new (P.threads pid) s st) (href : st.Refused e) :
    Closed ⟨s, Function.update P.threads pid st⟩ e.token.familyId := by
  have hself := h.sees pid
  generalize hc : P.threads pid = c at hstep hself
  have keep : c.Refused e → Closed ⟨s, Function.update P.threads pid st⟩ e.token.familyId :=
    fun hr => closed_step h.sees hK hst (h.refused pid e (hc ▸ hr))
  cases hstep with
  | unknown => rcases href with ⟨why, he⟩ | ⟨err, he⟩ <;> cases he
  | found =>
    rename_i e' _
    have := found_cases P.shared.db.now e'
    rcases href with ⟨why, he⟩ | ⟨err, he⟩ <;> rw [he] at this <;> simp at this
  | revoke =>
    rcases href with ⟨why, he⟩ | ⟨err, he⟩ <;> cases he
    obtain ⟨t, ht, hsame⟩ := hself e rfl
    exact closed_revokeFamily _ _ ht hsame.familyId
  | @audit why e' =>
    rcases href with ⟨why', he⟩ | ⟨err, he⟩ <;> cases he
    exact keep (.inl ⟨why, rfl⟩)
  | expire =>
    rcases href with ⟨why', he⟩ | ⟨err, he⟩ <;> cases he
    obtain ⟨t, ht, -⟩ := hself e rfl
    exact closed_expireToken h hc hK hst
      ⟨t.revoke P.shared.db.now, by simp [token?_expireToken, ht], rfl⟩
  | create => rcases href with ⟨why', he⟩ | ⟨err, he⟩ <;> cases he
  | rotate => rcases href with ⟨why', he⟩ | ⟨err, he⟩ <;> cases he
  | missing hstmt hnone =>
    obtain ⟨x, hx, -⟩ := hself _ (by rcases hstmt with rfl | ⟨n, rfl⟩ <;> rfl)
    cases hnone.symm.trans hx

/-- A call that has just read a live row is not expiring a revoked one. -/
theorem expiring_step {new : Draw} {s : AuthStore} {st : RefreshState} {e : Existing}
    (hstep : RefreshStep E P.shared new (P.threads pid) s st) (he : st = .expiring e) :
    ¬ s.db.hasStatus e.token.id .revoked := by
  generalize P.threads pid = c at hstep
  cases hstep with
  | @found raw e' hfind =>
    have hcases := found_cases P.shared.db.now e'
    rw [he] at hcases
    simp only [reduceCtorEq, false_and, and_false, false_or, or_false, RefreshState.expiring.injEq]
      at hcases
    obtain ⟨hact, rfl, -⟩ := hcases
    rintro ⟨t, ht, hrev⟩
    have hrow := token?_of_mem (List.mem_of_find?_eq_some (findExisting_token hfind))
    cases hrow.symm.trans ht
    cases hact.symm.trans hrev
  | _ => cases he

theorem exchanged_step {new : Draw} {s : AuthStore} {st : RefreshState}
    (hstep : RefreshStep E P.shared new (P.threads pid) s st) (hex : st.Exchanged id) :
    ¬ s.db.hasStatus id .active := by
  obtain ⟨e, pair, he, rfl⟩ := hex
  generalize P.threads pid = c at hstep
  cases hstep with
  | found =>
    rename_i e' _
    have hcases := found_cases P.shared.db.now e'
    rw [he] at hcases
    simp at hcases
  | rotate =>
    cases he
    rintro ⟨t, ht, hact⟩
    simp only [autocommit_db, token?_rotateToken, if_true, Option.map_eq_some_iff] at ht
    obtain ⟨x, -, rfl⟩ := ht
    cases hact
  | _ => cases he

theorem RotationInv.step (h : RotationInv P) (hK : PresentedUnused P a)
    (hst : (refreshes E).system.step P a = some P') : RotationInv P' where
  sees := sees_step h.sees hst
  one f id id' hl hl' := one_step h hK hst hl hl'
  expiring j e he hrev := by
    rcases Machine.step_thread hst j with hsame | ⟨new, s, st, rfl, hth, hs, hst'⟩
    · rw [hsame] at he
      obtain ⟨t, ht, hsees⟩ := h.sees j e (by rw [he]; rfl)
      rcases closed_of_revoked h hK hst ht hrev with hrev' | hclosed
      · exact closed_step h.sees hK hst (h.expiring j e he ⟨t, ht, hrev'⟩)
      · rwa [hsees.familyId] at hclosed
    · rw [hs] at hrev
      exact absurd hrev (expiring_step (refresh_step hth) (hst'.symm.trans he))
  exchanged j id hex hact := by
    rcases Machine.step_thread hst j with hsame | ⟨new, s, st, rfl, hth, hs, hst'⟩
    · rw [hsame] at hex
      have hex' := hex
      obtain ⟨e, pair, he, rfl⟩ := hex
      obtain ⟨t, ht, -⟩ := h.sees j e (by rw [he]; rfl)
      exact h.exchanged j _ hex' ⟨t, ht, active_before hst ht hact⟩
    · rw [hst'] at hex
      rw [hs] at hact
      exact exchanged_step (refresh_step hth) hex hact
  refused j e href := by
    rcases Machine.step_thread hst j with hsame | ⟨new, s, st, rfl, hth, -⟩
    · rw [hsame] at href
      exact closed_step h.sees hK hst (h.refused j e href)
    · obtain ⟨s, st, hstep, rfl⟩ := refreshes_run hst
      simp only [Function.update_self] at href
      exact refused_step h hK hst hstep href

theorem RefreshStarts.inv (h : RefreshStarts P) : RotationInv P where
  sees pid e he := by
    obtain ⟨raw, hpid⟩ := h.fresh pid
    rw [hpid] at he
    cases he
  one f id id' hl hl' := by
    obtain ⟨t, ht, hf, hact⟩ := hl.row
    obtain ⟨t', ht', hf', hact'⟩ := hl'.row
    exact h.one_active id id' t t' ht ht' (hf.trans hf'.symm) hact hact'
  expiring pid e he := by
    obtain ⟨raw, hpid⟩ := h.fresh pid
    rw [hpid] at he
    cases he
  exchanged pid id hex := by
    obtain ⟨raw, hpid⟩ := h.fresh pid
    obtain ⟨e, pair, he, -⟩ := hex
    rw [hpid] at he
    cases he
  refused pid e href := by
    obtain ⟨raw, hpid⟩ := h.fresh pid
    rcases href with ⟨why, he⟩ | ⟨err, he⟩ <;> rw [hpid] at he <;> cases he

theorem rotationInv_reach (h0 : RefreshStarts P₀)
    (h : Reach (refreshes E).system PresentedUnused P₀ P) : RotationInv P :=
  h.inv RotationInv h0.inv fun _ _ _ _ hI hK hst => RotationInv.step hI hK hst

/-! ## The result -/

/-- The call has created the successor of the token. -/
def RefreshState.Claims (st : RefreshState) (id : Uuid) : Prop := st.Rotating id ∨ st.Exchanged id

theorem claims_enter {new : Draw} {s : AuthStore} {st : RefreshState} (h : RotationInv P)
    (hK : PresentedUnused P (.run pid new))
    (hstep : RefreshStep E P.shared new (P.threads pid) s st)
    (hcl : st.Claims id) : (P.threads pid).Claims id ∨ ∀ j, ¬ (P.threads j).Claims id := by
  generalize hc : P.threads pid = c at hstep
  cases hstep with
  | found =>
    rename_i e' _
    have hcases := found_cases P.shared.db.now e'
    rcases hcl with ⟨e, n, he, -⟩ | ⟨e, pair, he, -⟩ <;> rw [he] at hcases <;> simp at hcases
  | @create e hunused =>
    simp only [PresentedUnused, hc] at hK
    rcases hcl with ⟨e', n, he, rfl⟩ | ⟨e', pair, he, -⟩ <;> cases he
    right
    rintro j (hrot | hex)
    · exact hK.2 j hrot
    · exact h.exchanged j _ hex hK.1
  | @rotate e n =>
    rcases hcl with ⟨e', n', he, -⟩ | ⟨e', pair, he, rfl⟩ <;> cases he
    exact .inl (.inl ⟨e, n, rfl, rfl⟩)
  | _ => rcases hcl with ⟨e, n, he, -⟩ | ⟨e, pair, he, -⟩ <;> cases he

/-- Two calls never have a successor of the same token. -/
theorem claims_exclusive (h0 : RefreshStarts P₀)
    (h : Reach (refreshes E).system PresentedUnused P₀ P) :
    ∀ i j, (P.threads i).Claims id → (P.threads j).Claims id → i = j := by
  refine Reach.exclusive (fun st => st.Claims id) ?_ ?_ h
  · intro i hcl
    obtain ⟨raw, hpid⟩ := h0.fresh i
    rcases hcl with ⟨e, n, he, -⟩ | ⟨e, pair, he, -⟩ <;> rw [hpid] at he <;> cases he
  · intro Q pid new s st hr hK hth hcl
    exact claims_enter (rotationInv_reach h0 hr) hK (refresh_step hth) hcl

/-- The call has nothing to show for the family. -/
def RefreshState.Unserved (st : RefreshState) (f : Uuid) : Prop :=
  ∀ e, st.existing = some e → e.token.familyId = f → ¬ st.Claims e.token.id

theorem unserved_step {new : Draw} {s : AuthStore} {st : RefreshState} (h : RotationInv P)
    (hK : PresentedUnused P (.run pid new)) (hclosed : Closed P f)
    (hstep : RefreshStep E P.shared new (P.threads pid) s st) (hun : (P.threads pid).Unserved f) :
    st.Unserved f := by
  intro e he hf hcl
  have hself := h.sees pid
  generalize hc : P.threads pid = c at hstep hself hun
  cases hstep with
  | found =>
    rename_i e' _
    have hcases := found_cases P.shared.db.now e'
    rcases hcl with ⟨e, n, he, -⟩ | ⟨e, pair, he, -⟩ <;> rw [he] at hcases <;> simp at hcases
  | @create e' hunused =>
    cases he
    simp only [PresentedUnused, hc] at hK
    obtain ⟨⟨t, ht, hact⟩, hnone⟩ := hK
    obtain ⟨x, hx, hsame⟩ := hself e rfl
    cases hx.symm.trans ht
    exact hclosed.none_live _ ⟨⟨t, ht, hsame.familyId.trans hf, hact⟩, hnone⟩
  | @rotate e' n =>
    cases he
    exact hun e rfl hf (.inl ⟨e, n, rfl, rfl⟩)
  | _ => rcases hcl with ⟨e, n, he, -⟩ | ⟨e, pair, he, -⟩ <;> cases he

/-- Once a family is closed, a call that starts later gets nothing from it. -/
theorem unserved_reach {k : Nat} (h0 : RefreshStarts P₀)
    (hr : Reach (refreshes E).system PresentedUnused P₀ P)
    (hclosed : Closed P f) {raw : RawToken} (hk : P.threads k = .finding raw)
    (h : Reach (refreshes E).system PresentedUnused P P') :
    Closed P' f ∧ (P'.threads k).Unserved f := by
  refine h.inv (fun Q => Closed Q f ∧ (Q.threads k).Unserved f) ⟨hclosed, ?_⟩ ?_
  · intro e he
    rw [hk] at he
    cases he
  · rintro Q a Q' hrQ ⟨hcl, hun⟩ hK hst
    have hinv := rotationInv_reach h0 (hr.trans hrQ)
    refine ⟨closed_step hinv.sees hK hst hcl, ?_⟩
    rcases Machine.step_thread hst k with hsame | ⟨new, s, st, rfl, hth, -, hst'⟩
    · rwa [hsame]
    · rw [hst']
      exact unserved_step hinv hK hcl (refresh_step hth) hun

/-- One of two completed presentations of a token was refused, so its family is closed. -/
theorem closed_of_two {i j : Nat} (h0 : RefreshStarts P₀)
    (hr : Reach (refreshes E).system PresentedUnused P₀ P)
    (hij : i ≠ j) (hi : (P.threads i).Completed id) (hj : (P.threads j).Completed id)
    {t : RefreshToken} (ht : P.shared.db.token? id = some t) : Closed P t.familyId := by
  have hinv := rotationInv_reach h0 hr
  have closed : ∀ {k e err}, P.threads k = .finished (some e) (.error err) → e.token.id = id →
      Closed P t.familyId := by
    rintro k e err hk rfl
    obtain ⟨x, hx, hsame⟩ := hinv.sees k e (by rw [hk]; rfl)
    cases hx.symm.trans ht
    rw [hsame.familyId]
    exact hinv.refused k e (.inr ⟨err, hk⟩)
  obtain ⟨e, r, hi, hid⟩ := hi
  obtain ⟨e', r', hj, hid'⟩ := hj
  cases r with
  | error err => exact closed hi hid
  | ok pair =>
    cases r' with
    | error err => exact closed hj hid'
    | ok pair' =>
      exact absurd (claims_exclusive h0 hr i j (.inr ⟨e, pair, hi, hid⟩)
        (.inr ⟨e', pair', hj, hid'⟩)) hij

/-- Rotation is single-use in every run where each refresh that uses its token up finds it
unused. -/
theorem rotation_single_use (h0 : RefreshStarts P₀) : SingleUse E PresentedUnused P₀ where
  one_active P hr hidle id id' t t' ht ht' hf hact hact' := by
    have unused : ∀ k pid, ¬ (P.threads pid).Rotating k := by
      rintro k pid ⟨e, n, he, -⟩
      rcases hidle pid with ⟨raw, hpid⟩ | ⟨e', r, hpid⟩ <;> rw [hpid] at he <;> cases he
    exact (rotationInv_reach h0 hr).one t.familyId id id' ⟨⟨t, ht, rfl, hact⟩, unused id⟩
      ⟨⟨t', ht', hf.symm, hact'⟩, unused id'⟩
  exchanged_once P i j id hr hi hj := claims_exclusive h0 hr i j (.inr hi) (.inr hj)
  refused_after_two P P' i j k id t raw hr hij hi hj ht hk h e r he hf := by
    have hclosed := closed_of_two h0 hr hij hi hj ht
    obtain ⟨-, hun⟩ := unserved_reach h0 hr hclosed hk h
    cases r with
    | error err => exact ⟨err, rfl⟩
    | ok pair =>
      rw [he] at hun
      exact absurd (.inr ⟨e, pair, rfl, rfl⟩) (hun e rfl hf)

/-- Two presentations of one token. -/
def replayPool : RefreshPool where
  shared := { db := sampleDb, lock := fun _ => none }
  threads _ := .finding 10

theorem replayPool_starts : RefreshStarts replayPool where
  fresh _ := ⟨10, rfl⟩
  one_active id id' t t' ht ht' _ _ _ := by
    rw [← token?_id ht, ← token?_id ht', sampleDb_token ht, sampleDb_token ht']

theorem rotation_single_use_sample : SingleUse sampleEnv PresentedUnused replayPool :=
  rotation_single_use replayPool_starts

/-- The token a call has exchanged. -/
def RefreshState.exchangedId : RefreshState → Option Uuid
  | .finished (some e) (.ok _) => some e.token.id
  | _ => none

theorem RefreshState.exchanged_of_id {st : RefreshState} {id : Uuid}
    (h : st.exchangedId = some id) : st.Exchanged id := by
  unfold exchangedId at h
  split at h
  · exact ⟨_, _, rfl, Option.some.inj h⟩
  · cases h

/-- Both calls read the token in `ACTIVE`, both create a successor, both rotate it: the token is
exchanged twice. -/
theorem exchanged_twice : RefreshStarts replayPool ∧ ¬ SingleUse sampleEnv Always replayPool := by
  refine ⟨replayPool_starts, fun hsingle => ?_⟩
  let go (pid : Nat) : Act Draw Env := .run pid ⟨11 + pid, 2 + pid⟩
  have hrun : (exec (refreshes sampleEnv).system (fun _ _ => true) replayPool
      [go 0, go 1, go 0, go 1, go 0, go 1]).map (fun P =>
        [(P.threads 0).exchangedId, (P.threads 1).exchangedId]) = some [some 1, some 1] := by
    decide +kernel
  obtain ⟨P, hP, hres⟩ := Option.map_eq_some_iff.1 hrun
  simp only [List.cons.injEq, and_true] at hres
  have := hsingle.exchanged_once P 0 1 1 (Reach.of_exec _ (fun _ _ _ => trivial) _ hP)
    (RefreshState.exchanged_of_id hres.1) (RefreshState.exchanged_of_id hres.2)
  cases this

end Gescom.Auth
