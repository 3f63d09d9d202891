import Gescom.Auth.Accounts

/-!
# A suspended account holds no session

`login` and `refresh` look at the status of the user and of the enterprise before they give out a
pair. `verifyMfaAndIssueTokens` and `acceptInvitation` do not: an account that is suspended between
the password and the second factor, or between the invitation and its acceptance, gets a session.
`never_served` gives the runs where no suspended account does; `suspended_invitee_served` is one of
the others.
-/

namespace Gescom.Auth

open Transition

/-! ## The system -/

/-- One operation, or a change from outside. -/
inductive Action where
  | op (o : Op) (d : Draws)
  | setUserStatus (id : Uuid) (status : UserStatus)
  | tick (n : Nat)

def Db.tick (n : Nat) (db : Db) : Db := { db with now := db.now + n }

/-- Operations one after the other, in any order. -/
def accounts (S : Services) : System Db Action where
  step db
    | .op o d => if d.fresh S.toAuthEnv db then some (o.run S d db).1 else none
    | .setUserStatus id status => some (db.setUserStatus id status)
    | .tick n => some (db.tick n)

/-! ## What must hold -/

/-- The enterprise of the user is `SUSPENDED`. -/
def Db.suspended (db : Db) (user : User) : Prop :=
  ∃ e, db.enterpriseOf user = some e ∧ e.status = .suspended

/-- Accepting an invitation is what makes its user `ACTIVE`. -/
def Op.activates : Op → Prop
  | acceptInvitation _ _ => True
  | _ => False

/-- The user may be given a session by `o`. -/
def Entitled (o : Op) (db : Db) (u : Uuid) : Prop :=
  ∃ user, db.users.find? u = some user ∧ ¬ db.suspended user ∧
    (user.status = .active ∨ user.status = .pendingInvite ∧ o.activates)

/-- The user is `ACTIVE`, and so is what he belongs to. -/
def Served (db : Db) (u : Uuid) : Prop :=
  ∃ user, db.users.find? u = some user ∧ ¬ db.suspended user ∧ user.status = .active

def Action.reactivates (e : Uuid) : Action → Prop
  | op (.reactivateEnterprise _ e') _ => e' = e
  | _ => False

/-- In the runs whose steps meet `K`, suspended accounts hold no session. -/
structure NeverServed (S : Services) (K : Db → Action → Prop) (db₀ : Db) : Prop where
  /-- A pair goes to a user who was entitled to it, and is `ACTIVE` when it is issued. -/
  issued : ∀ db o d p, Reach (accounts S) K db₀ db → K db (.op o d) →
    d.fresh S.toAuthEnv db = true →
    (o.run S d db).2 = .ok (.pair p) →
    Entitled o db p.accessToken.sub ∧ Served (o.run S d db).1 p.accessToken.sub
  /-- So does a refresh token. -/
  created : ∀ db o d id t, Reach (accounts S) K db₀ db → K db (.op o d) →
    d.fresh S.toAuthEnv db = true →
    db.token? id = none → (o.run S d db).1.token? id = some t → Entitled o db t.userId
  /-- An enterprise suspended by `suspendEnterprise` has no `ACTIVE` token until it is
  reactivated. -/
  silent : ∀ db actor e d r db', Reach (accounts S) K db₀ db →
    K db (.op (.suspendEnterprise actor e) d) →
    d.fresh S.toAuthEnv db = true → (suspendEnterprise actor e db).2 = .ok r →
    Reach (accounts S) (fun db a => K db a ∧ ¬ a.reactivates e)
      (suspendEnterprise actor e db).1 db' →
    ∀ id t, db'.token? id = some t → db'.ofEnterprise e t = true → t.status ≠ .active

/-- The two operations that do not look at the status meet an account that is not suspended. -/
def StatusHolds (S : Services) (db : Db) : Action → Prop
  | .op (.verifyMfaAndIssueTokens challenge code) _ =>
    ∀ user, mfaPasses S db challenge code = some (user, some true) → user.status = .active ∧
      ¬ db.suspended user
  | .op (.acceptInvitation raw _) _ =>
    ∀ a user, db.findValidToken (S.hashToken raw) .invitation = some a →
      db.users.find? a.userId = some user →
      user.status ≠ .suspended ∧ ¬ db.suspended user
  | _ => True

/-- The foreign key `refresh_tokens.user_id`. -/
def Db.ForeignKeys (db : Db) : Prop :=
  ∀ id t, db.token? id = some t → ∃ user, db.users.find? t.userId = some user

/-! ## Frames -/

/-- What an operation may change: it makes no stored token `ACTIVE`, gives new ones to users in
`grant` only, keeps users in their enterprises, and lifts the suspension of enterprises in `lift`
only. -/
structure Frame (grant lift : Uuid → Prop) (db db' : Db) : Prop where
  tokens : ∀ id t, db.token? id = some t →
    ∃ t', db'.token? id = some t' ∧ t.Same t' ∧ (t'.status = .active → t.status = .active)
  new : ∀ id t', db'.token? id = some t' → db.token? id = none → grant t'.userId
  users : ∀ u user, db.users.find? u = some user →
    ∃ user', db'.users.find? u = some user' ∧ user'.enterpriseId = user.enterpriseId
  enterprises : ∀ e x, db.enterprises.find? e = some x → x.status = .suspended → ¬ lift e →
    ∃ x', db'.enterprises.find? e = some x' ∧ x'.status = .suspended

variable {S : Services} {db db' db'' : Db} {grant lift : Uuid → Prop} {d : Draws} {o : Op}
  {id : Uuid}

theorem Frame.of_eq (ht : db'.refreshTokens = db.refreshTokens) (hu : db'.users = db.users)
    (he : db'.enterprises = db.enterprises) : Frame grant lift db db' where
  tokens id t h := ⟨t, by rw [Db.token?, ht]; exact h, .refl t, fun h => h⟩
  new id t' h hnone := by
    rw [Db.token?, ht] at h
    cases hnone.symm.trans h
  users u user h := ⟨user, by rw [hu]; exact h, rfl⟩
  enterprises e x h hs _ := ⟨x, by rw [he]; exact h, hs⟩

theorem Frame.refl : Frame grant lift db db := .of_eq rfl rfl rfl

theorem Frame.trans (h : Frame grant lift db db') (h' : Frame grant lift db' db'') :
    Frame grant lift db db'' where
  tokens id t ht := by
    obtain ⟨t', ht', hsame, hact⟩ := h.tokens id t ht
    obtain ⟨t'', ht'', hsame', hact'⟩ := h'.tokens id t' ht'
    exact ⟨t'', ht'', hsame.trans hsame', fun ha => hact (hact' ha)⟩
  new id t'' ht'' hnone := by
    cases hmid : db'.token? id with
    | none => exact h'.new id t'' ht'' hmid
    | some t' =>
      obtain ⟨x, hx, hsame, -⟩ := h'.tokens id t' hmid
      cases hx.symm.trans ht''
      rw [hsame.userId]
      exact h.new id t' hmid hnone
  users u user hu := by
    obtain ⟨user', hu', he⟩ := h.users u user hu
    obtain ⟨user'', hu'', he'⟩ := h'.users u user' hu'
    exact ⟨user'', hu'', he'.trans he⟩
  enterprises e x hx hs hl := by
    obtain ⟨x', hx', hs'⟩ := h.enterprises e x hx hs hl
    exact h'.enterprises e x' hx' hs' hl

theorem Frame.record (h : Frame grant lift db db') (l : AuditLog) :
    Frame grant lift db (db'.record l) :=
  h.trans (.of_eq rfl rfl rfl)

/-- Writes of refresh tokens that add no row. -/
theorem frame_tokens (h : TokensStep .thrown db.token? db'.token?) (hu : db'.users = db.users)
    (he : db'.enterprises = db.enterprises) : Frame grant lift db db' where
  tokens id t ht := by
    obtain ⟨t', ht', hsame, hkeep | hrev | ⟨-, e, n, hc, -⟩⟩ := h.old id t ht
    · exact ⟨t', ht', hsame, fun ha => hkeep.symm.trans ha⟩
    · exact ⟨t', ht', hsame, fun ha => by cases hrev.symm.trans ha⟩
    · cases hc
  new id t' ht' hnone := by
    obtain ⟨e, hc, -⟩ := h.new id t' ht' hnone
    cases hc
  users u user h := ⟨user, by rw [hu]; exact h, rfl⟩
  enterprises e x h hs _ := ⟨x, by rw [he]; exact h, hs⟩

theorem frame_revokeWhere (db : Db) (p : RefreshToken → Bool) (now : Instant) :
    Frame grant lift db (db.revokeWhere p now) :=
  frame_tokens (tokensStep_revokeWhere db p now) rfl rfl

theorem frame_expireToken (db : Db) (id : Uuid) : Frame grant lift db (db.expireToken id) :=
  frame_tokens tokensStep_expireToken rfl rfl

theorem frame_rotateToken (db : Db) (id n : Uuid) : Frame grant lift db (db.rotateToken id n) where
  tokens k t ht := by
    obtain ⟨t', ht', hsame, hstatus⟩ := rotateToken_row n ht
    refine ⟨t', ht', hsame, fun ha => ?_⟩
    rcases hstatus with hkeep | ⟨hrot, -⟩
    · exact hkeep.symm.trans ha
    · cases hrot.symm.trans ha
  new k t' ht' hnone := by
    obtain ⟨t, ht, -⟩ := rotateToken_back ht'
    cases hnone.symm.trans ht
  users u user h := ⟨user, h, rfl⟩
  enterprises e x h hs _ := ⟨x, h, hs⟩

theorem frame_createToken {t : RefreshToken} (h : db.unused t.id t.tokenHash = true)
    (hg : grant t.userId) : Frame grant lift db (db.createToken t) where
  tokens k x hx := ⟨x, createToken_row h hx, .refl x, fun ha => ha⟩
  new k t' ht' hnone := by
    rcases createToken_back h ht' with ⟨-, rfl⟩ | hold
    · exact hg
    · cases hnone.symm.trans hold
  users u user h := ⟨user, h, rfl⟩
  enterprises e x h hs _ := ⟨x, h, hs⟩

theorem frame_updateUser (db : Db) (id : Uuid) (f : User → User) (hf : ∀ u, (f u).id = u.id)
    (he : ∀ u, (f u).enterpriseId = u.enterpriseId) :
    Frame grant lift db (db.updateUser id f hf) where
  tokens k t ht := ⟨t, ht, .refl t, fun ha => ha⟩
  new k t' ht' hnone := by cases hnone.symm.trans ht'
  users u user hu := by
    simp only [Db.updateUser, Table.find?_update]
    by_cases hid : u = id
    · subst hid
      rw [if_pos rfl, hu]
      exact ⟨f user, rfl, he user⟩
    · rw [if_neg hid]
      exact ⟨user, hu, rfl⟩
  enterprises e x h hs _ := ⟨x, h, hs⟩

theorem frame_setEnterpriseStatus (db : Db) (e : Uuid) (status : EnterpriseStatus)
    (h : status = .suspended ∨ lift e) : Frame grant lift db (db.setEnterpriseStatus e status) where
  tokens k t ht := ⟨t, ht, .refl t, fun ha => ha⟩
  new k t' ht' hnone := by cases hnone.symm.trans ht'
  users u user hu := ⟨user, hu, rfl⟩
  enterprises e' x hx hs hl := by
    simp only [Db.setEnterpriseStatus, Table.find?_update]
    by_cases he : e' = e
    · subst he
      rw [if_pos rfl, hx]
      exact ⟨_, rfl, h.resolve_right hl⟩
    · rw [if_neg he]
      exact ⟨x, hx, hs⟩

/-! ## Each operation -/

def Op.lifts : Op → Uuid → Prop
  | reactivateEnterprise _ e', e => e' = e
  | _, _ => False

/-- What every operation must ensure. -/
structure Sound (o : Op) (db : Db) (out : Outcome) : Prop where
  frame : Frame (Entitled o db) o.lifts db out.1
  issued : ∀ p, out.2 = .ok (.pair p) → Entitled o db p.accessToken.sub ∧
    Served out.1 p.accessToken.sub

/-- An operation that issues no pair. -/
theorem Sound.of_frame {out : Outcome} (h : Frame (Entitled o db) o.lifts db out.1)
    (hout : ∀ p, out.2 ≠ .ok (.pair p)) : Sound o db out :=
  ⟨h, fun p hp => absurd hp (hout p)⟩

theorem not_inactive {user : User} {e : Option Enterprise} (h : inactive user e = false) :
    user.status = .active ∧ ∀ x, e = some x → x.status = .active := by
  simp only [inactive, Bool.or_eq_false_iff, bne_eq_false_iff_eq] at h
  refine ⟨h.1, ?_⟩
  rintro x rfl
  simpa using h.2

theorem not_suspended {user : User} (h : inactive user (db.enterpriseOf user) = false) :
    ¬ db.suspended user := by
  rintro ⟨e, he, hs⟩
  have hact := (not_inactive h).2 e he
  cases hact.symm.trans hs

theorem entitled_of_active {user : User} (hu : db.users.find? user.id = some user)
    (h : inactive user (db.enterpriseOf user) = false) : Entitled o db user.id :=
  ⟨user, hu, not_suspended h, .inl (not_inactive h).1⟩

/-- The status of a user and of his enterprise, carried over to another database. -/
theorem served_of {user user' : User} (hu : db'.users.find? user.id = some user')
    (he : db'.enterprises = db.enterprises) (heid : user'.enterpriseId = user.enterpriseId)
    (hs : ¬ db.suspended user) (hact : user'.status = .active) : Served db' user.id := by
  refine ⟨user', hu, ?_, hact⟩
  rintro ⟨e, hent, hsus⟩
  refine hs ⟨e, ?_, hsus⟩
  rwa [Db.enterpriseOf, heid, he] at hent

theorem Draws.fresh_unused (h : d.fresh S.toAuthEnv db = true) :
    db.unused d.token.id (S.hashToken d.token.rawToken) = true := by
  simp only [Draws.fresh, Bool.and_eq_true] at h
  exact h.1.1.1.1

theorem find?_updateUser (f : User → User) (hf : ∀ u, (f u).id = u.id) {user : User}
    (hu : db.users.find? id = some user) :
    (db.updateUser id f hf).users.find? id = some (f user) := by
  simp only [Db.updateUser, Table.find?_update, if_true, hu, Option.map_some]

theorem rejectPassword_frame (user : User) (db : Db) :
    Frame grant lift db (rejectPassword user db) := by
  have hupdate : ∀ n t, Frame grant lift db
      (db.updateUser user.id (fun u => u.loginFailed n t) fun _ => rfl) :=
    fun n t => frame_updateUser db _ _ _ fun _ => rfl
  simp only [rejectPassword]
  split
  · exact ((hupdate _ _).record _).record _
  · exact (hupdate _ _).record _

theorem login_sound (email password : String) (hd : d.fresh S.toAuthEnv db = true) :
    Sound (.login email password) db (login S email password d db) := by
  unfold login
  cases hfind : db.users.rows.find? fun u => u.email == email with
  | none => exact .of_frame (Frame.refl.record _) fun p h => by cases h
  | some user =>
    have hu : db.users.find? user.id = some user := Table.find?_of_findBy hfind
    have hupdate : ∀ {grant}, Frame grant (Op.lifts (.login email password)) db
        (db.updateUser user.id (User.loggedIn db.now) fun _ => rfl) :=
          frame_updateUser db _ _ _ fun _ => rfl
    by_cases hlocked : (user.lockedUntil.any fun t => decide (db.now < t)) = true
    · simp only [hlocked, if_true]
      exact .of_frame (Frame.refl.record _) fun p h => by cases h
    by_cases hin : inactive user (db.enterpriseOf user) = true
    · simp only [hlocked, hin, if_true, Bool.false_eq_true, if_false]
      exact .of_frame (Frame.refl.record _) fun p h => by cases h
    simp only [Bool.not_eq_true] at hin
    by_cases hpw : S.verifyPassword user.passwordHash password = false
    · simp only [hlocked, hin, hpw, if_true, Bool.false_eq_true, if_false]
      exact .of_frame (rejectPassword_frame user db) fun p h => by cases h
    by_cases hadmin : user.isSuperAdmin = true
    · by_cases hmfa : user.mfaEnabled = false
      · simp only [hlocked, hin, hpw, hadmin, hmfa, if_true, Bool.false_eq_true, if_false]
        exact .of_frame (hupdate.record _) fun p h => by cases h
      · simp only [hlocked, hin, hpw, hadmin, hmfa, if_true, Bool.false_eq_true, if_false]
        exact .of_frame hupdate fun p h => by cases h
    · have hent : Entitled (.login email password) db user.id := entitled_of_active hu hin
      simp only [hlocked, hin, hpw, hadmin, Bool.false_eq_true, Bool.true_eq_false, if_false,
        issueTokenPair]
      refine ⟨(hupdate.trans ?_).record _, fun p h => ?_⟩
      · have hunused := Draws.fresh_unused hd
        exact frame_createToken hunused hent
      · cases h
        exact ⟨hent, served_of (find?_updateUser (User.loggedIn db.now) (fun _ => rfl) hu) rfl rfl
          (not_suspended hin)
          (not_inactive hin).1⟩

theorem mfaPasses_user {challenge : Option Uuid} {code : String} {user : User} {r : Option Bool}
    (h : mfaPasses S db challenge code = some (user, r)) : db.users.find? user.id = some user := by
  unfold mfaPasses at h
  split at h
  · cases h
  · rename_i u hu
    obtain ⟨id, -, hid⟩ := Option.bind_eq_some_iff.1 hu
    split at h
    · split at h <;> cases h
      have hkey : user.id = id := Table.key_of_find? hid
      rwa [hkey]
    · cases h

theorem verifyMfa_sound (challenge : Option Uuid) (code : String)
    (hd : d.fresh S.toAuthEnv db = true)
    (hK : StatusHolds S db (.op (.verifyMfaAndIssueTokens challenge code) d)) :
    Sound (.verifyMfaAndIssueTokens challenge code) db
      (verifyMfaAndIssueTokens S challenge code d db) := by
  unfold verifyMfaAndIssueTokens
  split
  · exact .of_frame .refl fun p h => by cases h
  · exact .of_frame .refl fun p h => by cases h
  · exact .of_frame (Frame.refl.record _) fun p h => by cases h
  · rename_i user hpass
    obtain ⟨hact, hsus⟩ := hK user hpass
    have hu := mfaPasses_user hpass
    have hent : Entitled (.verifyMfaAndIssueTokens challenge code) db user.id :=
      ⟨user, hu, hsus, .inl hact⟩
    simp only [issueTokenPair]
    refine ⟨(frame_createToken (Draws.fresh_unused hd) hent).record _, fun p h => ?_⟩
    cases h
    exact ⟨hent, served_of hu rfl rfl hsus hact⟩

theorem refuse_sound (e : Existing) (why : Refusal) : Sound o db (refuse e why db) :=
  .of_frame ((frame_revokeWhere db _ _).record _) fun p h => by cases h

theorem refresh_sound (raw : RawToken) (hd : d.fresh S.toAuthEnv db = true) :
    Sound (.refresh raw) db (refresh S.toAuthEnv raw d.token db) := by
  unfold refresh
  cases hfind : db.findExisting (S.hashToken raw) with
  | none => exact .of_frame .refl fun p h => by cases h
  | some e =>
    by_cases hst : e.token.status = .active
    · by_cases hexp : e.token.expiresAt < db.now
      · simp only [hst, hexp, ne_eq, not_true_eq_false, if_false, if_true]
        exact .of_frame (frame_expireToken db _) fun p h => by cases h
      by_cases hin : inactive e.user e.enterprise = true
      · simp only [hst, hexp, hin, ne_eq, not_true_eq_false, if_false, if_true]
        exact refuse_sound e .inactive
      simp only [Bool.not_eq_true] at hin
      simp only [hst, hexp, hin, ne_eq, not_true_eq_false, if_false, Bool.false_eq_true]
      obtain ⟨hu, hent⟩ := findExisting_user hfind
      rw [hent] at hin
      have hid : e.user.id = e.token.userId := Table.key_of_find? hu
      rw [← hid] at hu
      have hent : Entitled (.refresh raw) db e.user.id := entitled_of_active hu hin
      refine ⟨(frame_createToken (Draws.fresh_unused hd) (hid ▸ hent)).trans (frame_rotateToken ..),
        fun p h => ?_⟩
      cases h
      exact ⟨hent, served_of hu rfl rfl (not_suspended hin) (not_inactive hin).1⟩
    · simp only [hst, ne_eq, not_false_eq_true, if_true]
      exact refuse_sound e .reuse

theorem logout_sound (raw : RawToken) (u : Uuid) :
    Sound (.logout raw u) db (logout S.toAuthEnv raw u db) := by
  unfold logout
  split
  · exact .of_frame .refl fun p h => by cases h
  · split
    · exact .of_frame .refl fun p h => by cases h
    · exact .of_frame ((frame_revokeWhere db _ _).record _) fun p h => by cases h

theorem invite_sound (inviter : Uuid) (email : String) (roleId : Uuid)
    (hd : d.fresh S.toAuthEnv db = true) :
    Sound (.invite inviter email roleId) db (invite S inviter email roleId d db) := by
  have hnew : db.users.find? d.userId = none := by
    simp only [Draws.fresh, Bool.and_eq_true, Option.isNone_iff_eq_none] at hd
    exact hd.1.1.2
  unfold invite
  split
  · exact .of_frame .refl fun p h => by cases h
  · split
    · exact .of_frame .refl fun p h => by cases h
    · split
      · exact .of_frame .refl fun p h => by cases h
      · refine .of_frame (Frame.record ?_ _) fun p h => by cases h
        exact {
          tokens := fun k t ht => ⟨t, ht, .refl t, fun ha => ha⟩
          new := fun k t' ht' hnone => by cases hnone.symm.trans ht'
          users := fun u user hu => ⟨user, Table.find?_insert_of_some hu, rfl⟩
          enterprises := fun e x hx hs _ => ⟨x, hx, hs⟩ }

theorem acceptInvitation_sound (raw : RawToken) (password : String)
    (hd : d.fresh S.toAuthEnv db = true)
    (hK : StatusHolds S db (.op (.acceptInvitation raw password) d)) :
    Sound (.acceptInvitation raw password) db (acceptInvitation S raw password d db) := by
  unfold acceptInvitation
  cases hfind : db.findValidToken (S.hashToken raw) .invitation with
  | none => exact .of_frame .refl fun p h => by cases h
  | some a =>
    cases hu : db.users.find? a.userId with
    | none =>
      simp only [hu]
      exact .of_frame .refl fun p h => by cases h
    | some user =>
      simp only [hu]
      obtain ⟨hstatus, hsus⟩ := hK a user hfind hu
      have hid : user.id = a.userId := Table.key_of_find? hu
      have hent : Entitled (.acceptInvitation raw password) db user.id := by
        refine ⟨user, hid ▸ hu, hsus, ?_⟩
        cases hs : user.status with
        | active => exact .inl rfl
        | pendingInvite => exact .inr ⟨rfl, trivial⟩
        | suspended => exact absurd hs hstatus
      have hconsume : Frame (Entitled (.acceptInvitation raw password) db)
          (Op.lifts (.acceptInvitation raw password))
          db (db.consumeAuthToken a.id db.now) := .of_eq rfl rfl rfl
      have hactivate := hconsume.trans (frame_updateUser (db.consumeAuthToken a.id db.now) a.userId
        (User.activate (S.hashPassword password) db.now) (fun _ => rfl) fun _ => rfl)
      refine ⟨(hactivate.record
        (userLog .invitationAccepted (user.activate (S.hashPassword password) db.now))).trans ?_,
          fun p h => ?_⟩
      · have hunused := Draws.fresh_unused hd
        exact frame_createToken hunused hent
      · cases h
        have hactivated : ((db.consumeAuthToken a.id db.now).updateUser a.userId
            (User.activate (S.hashPassword password) db.now) fun _ => rfl).users.find? user.id =
              some (user.activate (S.hashPassword password) db.now) := by
          rw [hid]
          exact find?_updateUser _ _ hu
        exact ⟨hent, served_of hactivated rfl rfl hsus rfl⟩

theorem resetPassword_sound (raw : RawToken) (newPassword : String) :
    Sound (.resetPassword raw newPassword) db (resetPassword S raw newPassword db) := by
  unfold resetPassword
  split
  · exact .of_frame .refl fun p h => by cases h
  · rename_i a _
    split
    · exact .of_frame .refl fun p h => by cases h
    · refine .of_frame (Frame.record ?_ _) fun p h => by cases h
      have hupdate : Frame (Entitled (.resetPassword raw newPassword) db)
          (Op.lifts (.resetPassword raw newPassword))
          db (db.resetUser a.userId (S.hashPassword newPassword)) :=
            frame_updateUser db _ _ _ fun _ => rfl
      have hconsume : Frame (Entitled (.resetPassword raw newPassword) db)
          (Op.lifts (.resetPassword raw newPassword))
            (db.resetUser a.userId (S.hashPassword newPassword))
          ((db.resetUser a.userId (S.hashPassword newPassword)).consumeAuthToken a.id db.now) :=
            .of_eq rfl rfl rfl
      exact (hupdate.trans hconsume).trans (frame_revokeWhere _ _ _)

theorem suspendEnterprise_sound (actor e : Uuid) :
    Sound (.suspendEnterprise actor e) db (suspendEnterprise actor e db) := by
  unfold suspendEnterprise
  split
  · exact .of_frame .refl fun p h => by cases h
  · refine .of_frame (Frame.record ?_ _) fun p h => by cases h
    exact (frame_setEnterpriseStatus db e .suspended (.inl rfl)).trans (frame_revokeWhere _ _ _)

theorem reactivateEnterprise_sound (actor e : Uuid) :
    Sound (.reactivateEnterprise actor e) db (reactivateEnterprise actor e db) := by
  unfold reactivateEnterprise
  split
  · exact .of_frame .refl fun p h => by cases h
  · refine .of_frame (Frame.record ?_ _) fun p h => by cases h
    exact frame_setEnterpriseStatus db e .active (.inr rfl)

theorem op_sound (hd : d.fresh S.toAuthEnv db = true) (hK : StatusHolds S db (.op o d)) :
    Sound o db (o.run S d db) := by
  cases o with
  | login email password => exact login_sound email password hd
  | verifyMfaAndIssueTokens challenge code => exact verifyMfa_sound challenge code hd hK
  | refresh raw => exact refresh_sound raw hd
  | logout raw u => exact logout_sound raw u
  | invite inviter email roleId => exact invite_sound inviter email roleId hd
  | acceptInvitation raw password => exact acceptInvitation_sound raw password hd hK
  | resetPassword raw newPassword => exact resetPassword_sound raw newPassword
  | suspendEnterprise actor e => exact suspendEnterprise_sound actor e
  | reactivateEnterprise actor e => exact reactivateEnterprise_sound actor e

/-! ## Runs -/

theorem foreignKeys_frame (h : db.ForeignKeys) (hf : Frame grant lift db db')
    (hgrant : ∀ u, grant u → ∃ user, db.users.find? u = some user) : db'.ForeignKeys := by
  intro id t' ht'
  have hold : ∃ user, db.users.find? t'.userId = some user := by
    cases hrow : db.token? id with
    | none => exact hgrant _ (hf.new id t' ht' hrow)
    | some t =>
      obtain ⟨x, hx, hsame, -⟩ := hf.tokens id t hrow
      cases hx.symm.trans ht'
      rw [hsame.userId]
      exact h id t hrow
  obtain ⟨user, hu⟩ := hold
  obtain ⟨user', hu', -⟩ := hf.users _ user hu
  exact ⟨user', hu'⟩

/-- The enterprise is `SUSPENDED` and its users hold no `ACTIVE` token. -/
structure Db.Silent (db : Db) (e : Uuid) : Prop where
  suspended : ∃ x, db.enterprises.find? e = some x ∧ x.status = .suspended
  tokens : ∀ id t, db.token? id = some t → db.ofEnterprise e t = true → t.status ≠ .active

theorem ofEnterprise_iff {e : Uuid} {t : RefreshToken} {user : User}
    (hu : db.users.find? t.userId = some user) :
    db.ofEnterprise e t = true ↔ user.enterpriseId = some e := by
  simp [Db.ofEnterprise, hu]

theorem silent_frame {e : Uuid} (h : db.Silent e) (hfk : db.ForeignKeys)
    (hf : Frame grant lift db db')
    (hgrant : ∀ u, grant u → ∃ user, db.users.find? u = some user ∧ ¬ db.suspended user)
    (hlift : ¬ lift e) : db'.Silent e := by
  obtain ⟨x, hx, hs⟩ := h.suspended
  refine ⟨hf.enterprises e x hx hs hlift, fun id t' ht' hof hact => ?_⟩
  -- the user of the token was in the enterprise already
  have member : ∀ {user}, db.users.find? t'.userId = some user → user.enterpriseId = some e := by
    intro user hu
    obtain ⟨user', hu', he⟩ := hf.users _ user hu
    rw [← he]
    exact (ofEnterprise_iff hu').1 hof
  cases hrow : db.token? id with
  | some t =>
    obtain ⟨y, hy, hsame, hback⟩ := hf.tokens id t hrow
    cases hy.symm.trans ht'
    obtain ⟨user, hu⟩ := hfk id t hrow
    have hmem := member (hsame.userId ▸ hu)
    exact h.tokens id t hrow ((ofEnterprise_iff hu).2 hmem) (hback hact)
  | none =>
    obtain ⟨user, hu, hsus⟩ := hgrant _ (hf.new id t' ht' hrow)
    have hmem := member hu
    exact hsus ⟨x, by rw [Db.enterpriseOf, hmem]; exact hx, hs⟩

theorem setUserStatus_frame (id : Uuid) (status : UserStatus) :
    Frame grant lift db (db.setUserStatus id status) :=
  frame_updateUser db id _ _ fun _ => rfl

/-- Every step is framed. -/
theorem step_frame {a : Action} (hK : StatusHolds S db a)
    (hst : (accounts S).step db a = some db') :
    ∃ grant lift : Uuid → Prop, Frame grant lift db db' ∧
      (∀ u, grant u → ∃ user, db.users.find? u = some user ∧ ¬ db.suspended user) ∧
      ∀ e, lift e → a.reactivates e := by
  cases a with
  | op o d =>
    simp only [accounts] at hst
    split at hst <;> cases hst
    rename_i hd
    refine ⟨Entitled o db, o.lifts, (op_sound hd hK).frame, ?_, ?_⟩
    · rintro u ⟨user, hu, hs, -⟩
      exact ⟨user, hu, hs⟩
    · intro e he
      cases o <;> cases he
      rfl
  | setUserStatus id status =>
    cases hst
    exact ⟨fun _ => False, fun _ => False, setUserStatus_frame id status, fun _ h => h.elim,
      fun _ h => h.elim⟩
  | tick n =>
    cases hst
    exact ⟨fun _ => False, fun _ => False, .of_eq rfl rfl rfl, fun _ h => h.elim, fun _ h => h.elim⟩

variable {db₀ : Db}

theorem foreignKeys_reach (h0 : db₀.ForeignKeys) (h : Reach (accounts S) (StatusHolds S) db₀ db) :
    db.ForeignKeys := by
  refine h.inv Db.ForeignKeys h0 fun db a db' _ hfk hK hst => ?_
  obtain ⟨grant, lift, hf, hgrant, -⟩ := step_frame hK hst
  refine foreignKeys_frame hfk hf fun u hu => ?_
  obtain ⟨user, hfind, -⟩ := hgrant u hu
  exact ⟨user, hfind⟩

/-- `suspendEnterprise` silences the enterprise. -/
theorem silent_suspend {actor e : Uuid} {r : Result}
    (h : (suspendEnterprise actor e db).2 = .ok r) : (suspendEnterprise actor e db).1.Silent e := by
  unfold suspendEnterprise at h ⊢
  split at h
  · cases h
  · rename_i hx
    rw [if_neg hx]
    obtain ⟨x, hx⟩ := Option.ne_none_iff_exists'.1 (by simpa using hx)
    refine ⟨⟨{ x with status := .suspended }, ?_, rfl⟩, fun id t ht hof hact => ?_⟩
    · have hfind : (db.setEnterpriseStatus e .suspended).enterprises.find? e =
          some { x with status := .suspended } := by
        simp only [Db.setEnterpriseStatus, Table.find?_update, if_true, hx, Option.map_some]
      exact hfind
    · have hrow : ((db.setEnterpriseStatus e .suspended).revokeWhere
          ((db.setEnterpriseStatus e .suspended).ofEnterprise e) db.now).token? id = some t := ht
      rw [token?_revokeWhere, Option.map_eq_some_iff] at hrow
      obtain ⟨y, hy, rfl⟩ := hrow
      split at hact
      · cases hact
      · rename_i hnot
        have hmem : (db.setEnterpriseStatus e .suspended).ofEnterprise e y = true := by
          rw [if_neg hnot] at hof
          exact hof
        exact hnot (by simpa [hact] using hmem)

/-! ## The result -/

/-- Suspended accounts hold no session in every run where the two operations that do not look at the
status meet accounts that are not suspended. -/
theorem never_served (h0 : db₀.ForeignKeys) : NeverServed S (StatusHolds S) db₀ where
  issued db o d p _ hK hd hp := (op_sound hd hK).issued p hp
  created db o d id t _ hK hd hnone ht := (op_sound hd hK).frame.new id t ht hnone
  silent db actor e d r db' hr hK hd hok h := by
    have hst : (accounts S).step db (.op (.suspendEnterprise actor e) d) =
        some (suspendEnterprise actor e db).1 :=
      if_pos hd
    have hr₁ := hr.step hK hst
    have hsilent : db'.Silent e := by
      refine h.inv (fun db => db.Silent e) (silent_suspend hok) fun db₁ a db₂ hr₂ hs hKa hsta => ?_
      have hfk := foreignKeys_reach h0 (hr₁.trans (hr₂.mono fun _ _ h => h.1))
      obtain ⟨grant, lift, hf, hgrant, hlift⟩ := step_frame hKa.1 hsta
      exact silent_frame hs hfk hf hgrant fun hl => hKa.2 (hlift e hl)
    exact hsilent.tokens

/-- The condition is exact: where it fails, the operation gives a session to an account that is
suspended. -/
theorem statusHolds_of_entitled
    (h : ∀ p, (o.run S d db).2 = .ok (.pair p) → Entitled o db p.accessToken.sub) :
    StatusHolds S db (.op o d) := by
  cases o with
  | verifyMfaAndIssueTokens challenge code =>
    intro user hpass
    have hok : (verifyMfaAndIssueTokens S challenge code d db).2 =
        .ok (.pair ⟨signAccessToken user, d.token.rawToken⟩) := by
      simp only [verifyMfaAndIssueTokens, hpass, issueTokenPair]
    obtain ⟨x, hx, hsus, hact | ⟨-, hf⟩⟩ := h _ hok
    · cases (mfaPasses_user hpass).symm.trans hx
      exact ⟨hact, hsus⟩
    · exact hf.elim
  | acceptInvitation raw password =>
    intro a user hfind hu
    have hok : (acceptInvitation S raw password d db).2 = .ok (.pair
        ⟨signAccessToken (user.activate (S.hashPassword password) db.now), d.token.rawToken⟩) := by
      simp only [acceptInvitation, hfind, hu, issueTokenPair]
    obtain ⟨x, hx, hsus, hstatus⟩ := h _ hok
    have hid : user.id = a.userId := Table.key_of_find? hu
    cases (hid ▸ hu : db.users.find? user.id = some user).symm.trans hx
    refine ⟨fun hs => ?_, hsus⟩
    rcases hstatus with hact | ⟨hpending, -⟩
    · cases hact.symm.trans hs
    · cases hpending.symm.trans hs
  | login | refresh | logout | invite | resetPassword | suspendEnterprise |
    reactivateEnterprise => trivial

def sampleServices : Services where
  toAuthEnv := sampleEnv
  hashPassword password := "#" ++ password
  verifyPassword passwordHash password := passwordHash == "#" ++ password
  verifyCode secret code := some (secret == code)

theorem sampleDb_foreignKeys : sampleDb.ForeignKeys := by
  intro id t ht
  rw [sampleDb_token ht]
  exact ⟨sampleUser, rfl⟩

theorem never_served_sample : NeverServed sampleServices (StatusHolds sampleServices) sampleDb :=
  never_served sampleDb_foreignKeys

/-- A user is invited, his enterprise is suspended, he accepts: he gets a pair. -/
theorem suspended_invitee_served :
    sampleDb.ForeignKeys ∧ ¬ NeverServed sampleServices Always sampleDb := by
  refine ⟨sampleDb_foreignKeys, fun hnever => ?_⟩
  let draws (n : Nat) : Draws := ⟨⟨n, n⟩, n, n, n, n, ""⟩
  let accept : Op := .acceptInvitation 20 "secret"
  have hrun : ((exec (accounts sampleServices) (fun _ _ => true) sampleDb
      [.op (.invite 5 "b@b.sn" 4) (draws 20), .op (.suspendEnterprise 1 5) (draws 21)]).map
        fun db =>
        ((draws 22).fresh sampleEnv db, (accept.run sampleServices (draws 22) db).2,
          (db.users.find? 20).map fun u => (db.enterpriseOf u).map Enterprise.status)) =
      some (true, .ok (.pair ⟨⟨20, some 5, false⟩, 22⟩), some (some .suspended)) := by
        decide +kernel
  simp only [Option.map_eq_some_iff, Prod.mk.injEq] at hrun
  obtain ⟨db, hdb, hfresh, hpair, user, hu, e, he, hs⟩ := hrun
  have hr : Reach (accounts sampleServices) Always sampleDb db :=
    Reach.of_exec _ (fun _ _ _ => trivial) _ hdb
  obtain ⟨⟨x, hx, hsus, -⟩, -⟩ := hnever.issued db accept (draws 22) _ hr trivial hfresh hpair
  cases hu.symm.trans hx
  exact hsus ⟨e, he, hs⟩

end Gescom.Auth
