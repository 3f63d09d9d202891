import Gescom.Provisioning.Alone

/-!
# A registration is one step

`register_atomic`: between the statements of any number of registrations, with failures and lost answers
anywhere and the rest of the application in between, every enterprise in the database is complete. A
call shows none of its rows until it commits, and all of them from then on.
-/

namespace Gescom.Provisioning

open Access (PermissionKey DefaultRoleName)
open ReadCommitted Transition UniqueRows

/-- The entries that a call has taken and not committed. -/
def RegisterState.held (c : Call) : RegisterState → List IndexEntry
  | .creatingSubscription _ => (Row.enterprise c.enterprise).entries
  | .linkingSubscription s => [Row.enterprise c.enterprise, .subscription s].flatMap Row.entries
  | .creatingUser s => (c.opening s).flatMap Row.entries
  | .findingPermissions rows | .inserting _ rows => rows.flatMap Row.entries
  | _ => []

/-- The rows that a call has committed. -/
def RegisterState.committed : RegisterState → Option (List Row)
  | .issuingVerification rows | .notifying rows | .mailing rows | .issuingTokens rows
  | .registered rows _ | .unanswered _ rows => some rows
  | _ => none

section
variable (S : Auth.Services) (c : Call)

/-- How far the rows of a call have come. -/
def RegisterState.Writes (db : Db) : RegisterState → Prop
  | .linkingSubscription s | .creatingUser s => ∃ plan now, s = c.subscription plan now
  | .findingPermissions rows =>
    ∃ plan now, rows = c.opening (c.subscription plan now) ++ [.user (c.user S)]
  | .inserting todo rows => ∃ plan now ids,
    rows ++ todo.flatten = c.registration S plan now ids ∧ Catalog db.permanent ids
  | _ => True

/-- What a call has committed is its registration, and all of it is there. -/
def Stands (db : Db) (rows : List Row) : Prop :=
  (∃ plan now ids, rows = c.registration S plan now ids) ∧ ∀ r ∈ rows, r.permanent ∈ db.permanent

/-- What holds of a call wherever it is. -/
structure Knows (pid : Nat) (t : RegisterState) (s : RegisterStore) : Prop where
  pending : Pending s.db.rows.taken s.lock pid (t.held c)
  writes : t.Writes S c s.db
  stands : ∀ rows, t.committed = some rows → Stands S c s.db rows

end

/-- What a step of `pid` leaves to the others. -/
structure Keeps (pid : Nat) (s s' : RegisterStore) : Prop where
  locks : LocksKept pid s s'
  taken : ∀ k pid', pid' ≠ pid → s.lock k = some pid' → s'.db.rows.taken k = true →
    s.db.rows.taken k = true
  permanent : s.db.permanent ⊆ s'.db.permanent

variable {S : Auth.Services} {c : Call} {pid : Nat} {s s' : RegisterStore} {t t' : RegisterState}
  {rows new : List Row} {i : Reply}

/-! ## What a step does -/

theorem attempt_cases {entries : List IndexEntry} {next : RegisterState}
    (h : attempt pid rows entries s next i = some (s', t')) :
    take s s.db.rows.taken pid (rows.flatMap Row.entries) entries = .done s' ∧ t' = next ∨
      s' = s.release pid ∧ ∃ e, t' = .rejected e := by
  cases i with
  | ok =>
    simp only [attempt] at h
    split at h <;> cases h
    · exact .inr ⟨rfl, _, rfl⟩
    · rename_i hdone
      exact .inl ⟨hdone, rfl⟩
  | failed message =>
    cases h
    exact .inr ⟨rfl, _, rfl⟩
  | lost message =>
    cases h
    exact .inr ⟨rfl, _, rfl⟩

theorem create_cases {row : Row} {next : RegisterState} {thrown : ApiError → RegisterState}
    (h : create pid row s next thrown i = some (s', t')) :
    (t' = next ∨ ∃ e, t' = thrown e) ∧
      (s' = s ∨ ∃ s'', take s s.db.rows.taken pid [] row.entries = .done s'' ∧
        s' = s.autocommit (Db.append [row])) := by
  cases i with
  | ok =>
    simp only [create] at h
    split at h <;> cases h
    · exact ⟨.inr ⟨_, rfl⟩, .inl rfl⟩
    · rename_i s'' hdone
      exact ⟨.inl rfl, .inr ⟨s'', hdone, rfl⟩⟩
  | failed message =>
    cases h
    exact ⟨.inr ⟨_, rfl⟩, .inl rfl⟩
  | lost message =>
    simp only [create] at h
    split at h <;> cases h
    · exact ⟨.inr ⟨_, rfl⟩, .inl rfl⟩
    · rename_i s'' hdone
      exact ⟨.inr ⟨_, rfl⟩, .inr ⟨s'', hdone, rfl⟩⟩

/-! ## What it keeps -/

theorem keeps_of_same (hlocks : LocksKept pid s s')
    (htaken : ∀ k, s'.db.rows.taken k = s.db.rows.taken k)
    (hpermanent : s'.db.permanent = s.db.permanent) : Keeps pid s s' where
  locks := hlocks
  taken k _ _ _ hk := htaken k ▸ hk
  permanent := hpermanent ▸ List.Subset.refl _

theorem keeps_of_db (hlocks : LocksKept pid s s') (h : s'.db = s.db) : Keeps pid s s' :=
  keeps_of_same hlocks (fun _ => h ▸ rfl) (h ▸ rfl)

theorem keeps_refl : Keeps pid s s := keeps_of_db (LocksKept.of_eq rfl) rfl

theorem keeps_release : Keeps pid s (s.release pid) := keeps_of_db locksKept_release rfl

theorem keeps_take {held entries : List IndexEntry}
    (h : take s s.db.rows.taken pid held entries = .done s') : Keeps pid s s' := by
  obtain ⟨-, hnew, rfl⟩ := take_done h
  exact keeps_of_db (locksKept_acquireAll fun k hk => (hnew k (by simpa using hk)).2) rfl

/-- A commit of entries that nobody else has locked. -/
theorem keeps_append (hlocks : LocksKept pid s s') (hdb : s'.db = s.db.append new)
    (happend : (s.db.rows.append new).rows = s.db.rows.rows ++ new)
    (hfree : ∀ k ∈ new.flatMap Row.entries, s.free pid k = true) : Keeps pid s s' where
  locks := hlocks
  taken k pid' hne hlock hk := by
    rw [hdb, Rows.taken_iff] at hk
    obtain ⟨r, hr, hkr⟩ := hk
    rw [Db.append, happend, List.mem_append] at hr
    rcases hr with hr | hr
    · exact Rows.taken_iff.2 ⟨r, hr, hkr⟩
    · have hk := hfree k (List.mem_flatMap.2 ⟨r, hr, hkr⟩)
      rw [not_free hlock (Ne.symm hne)] at hk
      cases hk
  permanent := by
    rw [hdb, Db.permanent_of_append happend]
    exact List.subset_append_left _ _

theorem Knows.stable {pid' : Nat} (h : Knows S c pid' t s) (hk : Keeps pid s s') (hne : pid ≠ pid') :
    Knows S c pid' t s' where
  pending := h.pending.stable (fun k hlock => (hk.locks k pid' (Ne.symm hne)).2 hlock)
    fun k hlock => hk.taken k pid' (Ne.symm hne) hlock
  writes := by
    have hw := h.writes
    cases t <;> try exact hw
    obtain ⟨plan, now, ids, heq, hcat⟩ := hw
    refine ⟨plan, now, ids, heq, fun key => ?_⟩
    obtain ⟨id, hid, hp⟩ := hcat key
    exact ⟨id, hid, hk.permanent hp⟩
  stands rows hrows := by
    obtain ⟨heq, hall⟩ := h.stands rows hrows
    exact ⟨heq, fun r hr => hk.permanent (hall r hr)⟩

/-! ## The step of a call -/

theorem knows_idle (hheld : t.held c = []) (hwrites : t.Writes S c s.db) (hnone : t.committed = none) :
    Knows S c pid t s where
  pending := hheld ▸ Pending.nil
  writes := hwrites
  stands rows hrows := by
    rw [hnone] at hrows
    cases hrows

theorem knows_rejected {e : ApiError} : Knows S c pid (.rejected e) s := knows_idle rfl trivial rfl

theorem knows_committed (hheld : t.held c = []) (hwrites : t.Writes S c s.db)
    (hsome : t.committed = some rows) (hstands : Stands S c s.db rows) : Knows S c pid t s where
  pending := hheld ▸ Pending.nil
  writes := hwrites
  stands rows' hrows := by
    rw [hsome] at hrows
    cases hrows
    exact hstands

theorem attempt_own {entries : List IndexEntry} {next : RegisterState}
    (h : attempt pid rows entries s next i = some (s', t'))
    (hpending : Pending s.db.rows.taken s.lock pid (rows.flatMap Row.entries))
    (hperm : (rows.flatMap Row.entries ++ entries).Perm (next.held c))
    (hwrites : next.Writes S c s.db) (hnone : next.committed = none) :
    Knows S c pid t' s' ∧ Keeps pid s s' ∧ s'.db = s.db := by
  rcases attempt_cases h with ⟨hdone, rfl⟩ | ⟨rfl, e, rfl⟩
  · have hdb : s'.db = s.db := by
      obtain ⟨-, -, rfl⟩ := take_done hdone
      rfl
    refine ⟨⟨?_, hdb ▸ hwrites, fun rows hrows => ?_⟩, keeps_take hdone, hdb⟩
    · exact hdb ▸ (hpending.take hdone).perm hperm
    · rw [hnone] at hrows
      cases hrows
  · exact ⟨knows_rejected, keeps_release, rfl⟩

/-- A `create` after the commit. -/
theorem create_own {row : Row} {next : RegisterState} {thrown : ApiError → RegisterState}
    (h : create pid row s next thrown i = some (s', t')) (hsound : Sound s.db.permanent) (hstands : Stands S c s.db rows) (hforeign : row.foreign = true)
    (hrefs : ∀ k ∈ row.references, ∃ r ∈ rows, k ∈ r.entries)
    (hafter : ∀ s, Stands S c s.db rows → Knows S c pid next s ∧ ∀ e, Knows S c pid (thrown e) s) :
    Sound s'.db.permanent ∧ Knows S c pid t' s' ∧ Keeps pid s s' := by
  obtain ⟨ht, rfl | ⟨s'', hdone, rfl⟩⟩ := create_cases h
  · refine ⟨hsound, ?_, keeps_refl⟩
    rcases ht with rfl | ⟨e, rfl⟩
    · exact (hafter s' hstands).1
    · exact (hafter s' hstands).2 e
  · obtain ⟨hnodup, hnew, -⟩ := take_done hdone
    rw [List.nil_append] at hnodup
    have hpend : Pending s.db.rows.taken (fun _ => some pid) pid ([row].flatMap Row.entries) :=
      ⟨by simpa using hnodup, fun _ _ => rfl, fun k hk => (hnew k (by simpa using hk)).1⟩
    have hkeeps : Keeps pid s (s.autocommit (Db.append [row])) :=
      keeps_append (LocksKept.of_eq rfl) rfl hpend.append fun k hk => (hnew k (by simpa using hk)).2
    have hstands' : Stands S c (s.autocommit (Db.append [row])).db rows :=
      ⟨hstands.1, fun r hr => hkeeps.permanent (hstands.2 r hr)⟩
    refine ⟨?_, ?_, hkeeps⟩
    · rw [autocommit_db, Db.permanent_of_append hpend.append]
      refine hsound.foreign (fun r hr => ?_) fun r hr k hk => ?_
      · obtain rfl := List.mem_singleton.1 hr
        cases row <;> simp_all [Row.permanent, Row.foreign]
      · obtain rfl := List.mem_singleton.1 hr
        obtain ⟨r', hr', hk'⟩ := hrefs k (references_permanent row ▸ hk)
        exact ⟨_, List.mem_append_left _ (hstands.2 r' hr'), by rwa [entries_permanent]⟩
    · rcases ht with rfl | ⟨e, rfl⟩
      · exact (hafter _ hstands').1
      · exact (hafter _ hstands').2 e

theorem commit_own (hsound : Sound s.db.permanent) (h : Knows S c pid (.inserting [] rows) s)
    (heq : Call.commit pid rows i s = (s', t')) :
    Sound s'.db.permanent ∧ Knows S c pid t' s' ∧ Keeps pid s s' := by
  obtain ⟨plan, now, ids, hrows, hcat⟩ := h.writes
  have happend := Pending.append (t := s.db.rows) h.pending
  have hadm : Admissible S c s.db.permanent rows plan now ids :=
    { eq := by simpa using hrows
      unique := h.pending.unique
      untaken := fun r hr k hk r' hr' hk' => by
        have hfree := h.pending.untaken k (List.mem_flatMap.2 ⟨r, hr, hk⟩)
        rw [Db.taken_iff.2 ⟨r', hr', hk'⟩] at hfree
        cases hfree
      catalog := hcat }
  have hdb : (s.commit pid (Db.append rows)).db.permanent = s.db.permanent ++ rows.map Row.permanent :=
    Db.permanent_of_append happend
  have hstands : Stands S c (s.commit pid (Db.append rows)).db rows :=
    ⟨⟨plan, now, ids, hadm.eq⟩, fun r hr => hdb ▸ List.mem_append_right _ (mem_permanent hr)⟩
  have hkeeps : Keeps pid s (s.commit pid (Db.append rows)) :=
    keeps_append locksKept_commit rfl happend fun k hk => free_iff.2 (.inr (h.pending.locked k hk))
  cases i with
  | failed message =>
    cases heq
    exact ⟨hsound, knows_rejected, keeps_release⟩
  | ok =>
    cases heq
    exact ⟨hdb ▸ hadm.sound hsound, knows_committed rfl trivial rfl hstands, hkeeps⟩
  | lost message =>
    cases heq
    exact ⟨hdb ▸ hadm.sound hsound, knows_committed rfl trivial rfl hstands, hkeeps⟩

theorem findPlan_own : Knows S c pid (c.findPlan i s) s := by
  unfold Call.findPlan
  split
  · exact knows_rejected
  · exact knows_rejected
  · split
    · exact knows_rejected
    · split
      · exact knows_idle rfl trivial rfl
      · exact knows_rejected

theorem findPermissions_own (h : Knows S c pid (.findingPermissions rows) s)
    (heq : c.findPermissions pid rows i s = (s', t')) :
    Knows S c pid t' s' ∧ Keeps pid s s' ∧ s'.db = s.db := by
  unfold Call.findPermissions at heq
  split at heq
  · cases heq
    exact ⟨knows_rejected, keeps_release, rfl⟩
  · cases heq
    exact ⟨knows_rejected, keeps_release, rfl⟩
  · dsimp only at heq
    split at heq <;> cases heq
    · rename_i hfound
      obtain ⟨plan, now, hrows⟩ := h.writes
      refine ⟨⟨h.pending, ⟨plan, now, _, ?_, catalog_of_found hfound⟩, fun rows hrows => ?_⟩,
        keeps_refl, rfl⟩
      · rw [hrows]
        rfl
      · cases hrows
    · exact ⟨knows_rejected, keeps_release, rfl⟩

theorem Stands.mem_user (h : Stands S c s.db rows) : .user (c.user S) ∈ rows := by
  obtain ⟨⟨plan, now, ids, rfl⟩, -⟩ := h
  exact mem_registration.2 (.inr (.inr (.inl rfl)))

theorem Stands.mem_enterprise (h : Stands S c s.db rows) : .enterprise c.linkedEnterprise ∈ rows := by
  obtain ⟨⟨plan, now, ids, rfl⟩, -⟩ := h
  exact mem_registration.2 (.inl rfl)

theorem step_own (hsound : Sound s.db.permanent) (h : Knows S c pid t s)
    (hstep : c.step S pid i s t = some (s', t')) :
    Sound s'.db.permanent ∧ Knows S c pid t' s' ∧ Keeps pid s s' := by
  have unchanged : Knows S c pid t' s' ∧ Keeps pid s s' ∧ s'.db = s.db →
      Sound s'.db.permanent ∧ Knows S c pid t' s' ∧ Keeps pid s s' :=
    fun ⟨hknows, hkeeps, hdb⟩ => ⟨hdb ▸ hsound, hknows, hkeeps⟩
  cases t with
  | findingPlan =>
    cases hstep
    exact ⟨hsound, findPlan_own, keeps_refl⟩
  | creatingEnterprise plan =>
    rw [Call.step] at hstep
    exact unchanged (attempt_own hstep Pending.nil (.refl _) trivial rfl)
  | creatingSubscription plan =>
    rw [Call.step] at hstep
    refine unchanged (attempt_own hstep ?_ ?_ ⟨plan, s.db.now, rfl⟩ rfl)
    · simpa [RegisterState.held] using h.pending
    · simp [RegisterState.held]
  | linkingSubscription subscription =>
    rw [Call.step] at hstep
    refine unchanged (attempt_own hstep h.pending ?_ h.writes rfl)
    -- the new entry of the enterprise comes before those of the subscription
    obtain ⟨plan, now, rfl⟩ := h.writes
    have : (Row.enterprise c.linkedEnterprise).entries =
        (Row.enterprise c.enterprise).entries ++ [.currentSubscriptionId c.draws.subscription] := by
      simp [Row.entries, Enterprise.entries, Call.linkedEnterprise, Call.enterprise]
    simp only [RegisterState.held, Call.opening, List.flatMap_cons, List.flatMap_nil,
      List.append_nil, this, List.append_assoc]
    exact List.Perm.append_left _ List.perm_append_comm
  | creatingUser subscription =>
    obtain ⟨plan, now, rfl⟩ := h.writes
    rw [Call.step] at hstep
    refine unchanged (attempt_own hstep h.pending ?_ ⟨plan, now, rfl⟩ rfl)
    simp [RegisterState.held, List.flatMap_append]
  | findingPermissions rows => exact unchanged (findPermissions_own h (Option.some.inj hstep))
  | inserting todo rows =>
    cases todo with
    | nil => exact commit_own hsound h (Option.some.inj hstep)
    | cons new todo =>
      obtain ⟨plan, now, ids, hrows, hcat⟩ := h.writes
      rw [Call.step] at hstep
      refine unchanged (attempt_own hstep h.pending ?_ ⟨plan, now, ids, ?_, hcat⟩ rfl)
      · simp [RegisterState.held, List.flatMap_append]
      · rw [← hrows, List.flatten_cons, List.append_assoc]
  | issuingVerification rows =>
    have hstands := h.stands rows rfl
    rw [Call.step] at hstep
    refine create_own hstep hsound hstands rfl (fun k hk => ?_) fun s hs => ?_
    · obtain rfl : k = .id .users c.draws.user := by
        simpa [Call.authToken, Row.references] using hk
      exact ⟨_, hstands.mem_user, by simp [Row.entries, Call.user]⟩
    · exact ⟨knows_committed rfl trivial rfl hs, fun _ => knows_committed rfl trivial rfl hs⟩
  | notifying rows =>
    have hstands := h.stands rows rfl
    rw [Call.step] at hstep
    refine create_own hstep hsound hstands rfl (fun k hk => ?_) fun s hs => ?_
    · simp only [Call.notification, Row.references, List.mem_cons, List.not_mem_nil, or_false] at hk
      rcases hk with rfl | rfl
      · exact ⟨_, hstands.mem_user, by simp [Row.entries, Call.user]⟩
      · exact ⟨_, hstands.mem_enterprise, by
          simp [Row.entries, Enterprise.entries, Call.linkedEnterprise, Call.enterprise]⟩
    · exact ⟨knows_committed rfl trivial rfl hs, fun _ => knows_committed rfl trivial rfl hs⟩
  | mailing rows =>
    cases hstep
    exact ⟨hsound, knows_committed rfl trivial rfl (h.stands rows rfl), keeps_refl⟩
  | issuingTokens rows =>
    have hstands := h.stands rows rfl
    rw [Call.step] at hstep
    refine create_own hstep hsound hstands rfl (fun k hk => ?_) fun s hs => ?_
    · obtain rfl : k = .id .users c.draws.user := by
        simpa [Call.refreshToken, Row.references] using hk
      exact ⟨_, hstands.mem_user, by simp [Row.entries, Call.user]⟩
    · exact ⟨knows_committed rfl trivial rfl hs, fun _ => knows_committed rfl trivial rfl hs⟩
  | registered rows pair => cases hstep
  | unanswered e rows => cases hstep
  | rejected e => cases hstep

/-! ## Everything else -/

theorem insert_env (hsound : Sound s.db.permanent) (hin : insertable new s = true) :
    Sound (s.autocommit (Db.append new)).db.permanent ∧ Keeps pid s (s.autocommit (Db.append new)) := by
  simp only [insertable, Bool.and_eq_true, List.all_eq_true, decide_eq_true_eq, Bool.not_eq_true',
    beq_iff_eq, Bool.or_eq_true] at hin
  obtain ⟨⟨⟨hforeign, hnodup⟩, hfree⟩, hrefs⟩ := hin
  have hpend : Pending s.db.rows.taken (fun _ => some pid) pid (new.flatMap Row.entries) :=
    ⟨hnodup, fun _ _ => rfl, fun k hk => (hfree k hk).1⟩
  refine ⟨?_, keeps_append (LocksKept.of_eq rfl) rfl hpend.append fun k hk =>
    free_iff.2 (.inl (hfree k hk).2)⟩
  rw [autocommit_db, Db.permanent_of_append hpend.append]
  refine hsound.foreign (fun r hr => ?_) fun r hr k hk => ?_
  · obtain ⟨r', hr', rfl⟩ := List.mem_map.1 hr
    have hf := hforeign r' hr'
    cases r' <;> first | rfl | cases hf
  · obtain ⟨r', hr', rfl⟩ := List.mem_map.1 hr
    rcases hrefs k (List.mem_flatMap.2 ⟨r', hr', references_permanent r' ▸ hk⟩) with htaken | hown
    · obtain ⟨r'', hr'', hk''⟩ := Db.taken_iff.1 htaken
      exact ⟨r'', List.mem_append_left _ hr'', hk''⟩
    · obtain ⟨r'', hr'', hk''⟩ := List.mem_flatMap.1 hown
      exact ⟨_, List.mem_append_right _ (mem_permanent hr''), by rwa [entries_permanent]⟩

theorem env_keeps (pid : Nat) (hsound : Sound s.db.permanent) (x : Outside) :
    Sound (x.apply s).db.permanent ∧ Keeps pid s (x.apply s) := by
  cases x with
  | tick n => exact ⟨hsound, keeps_of_same (LocksKept.of_eq rfl) (fun _ => rfl) rfl⟩
  | changePlans plans => exact ⟨hsound, keeps_of_same (LocksKept.of_eq rfl) (fun _ => rfl) rfl⟩
  | insert new =>
    simp only [Outside.apply]
    split
    · rename_i hin
      exact insert_env hsound hin
    · exact ⟨hsound, keeps_refl⟩
  | update u =>
    have hsame : (Outside.apply s (.update u)).db.permanent = s.db.permanent := by
      simp [Outside.apply, Db.permanent, Rows.map, Function.comp_def, u.permanent]
    exact ⟨hsame ▸ hsound, keeps_of_same (LocksKept.of_eq rfl)
      (fun _ => Rows.taken_map u.entries) hsame⟩

/-! ## Every run -/

theorem outline (calls : Nat → Call) :
    Outline (registrations S calls) Always (fun s => Sound s.db.permanent)
      (fun pid t s => Knows S (calls pid) pid t s) Keeps where
  own _ pid _ _ _ _ hsound hknows hstep := step_own hsound hknows hstep
  stable _ _ _ _ _ hne _ _ hkeeps hknows := hknows.stable hkeeps hne
  env _ x _ hsound := by
    refine ⟨(env_keeps 0 hsound x).1, fun pid t hknows => ?_⟩
    exact hknows.stable (env_keeps (pid + 1) hsound x).2 (Nat.succ_ne_self pid)

/-- The database is sound and nobody has called yet. -/
structure Starts (P : RegisterPool) : Prop where
  sound : Sound P.shared.db.permanent
  threads : ∀ pid, P.threads pid = .findingPlan

theorem Starts.annotated {P : RegisterPool} (h : Starts P) (calls : Nat → Call) :
    Annotated (fun s => Sound s.db.permanent) (fun pid t s => Knows S (calls pid) pid t s) P :=
  ⟨h.sound, fun pid => by
    rw [h.threads pid]
    exact knows_idle rfl trivial rfl⟩

/-- A call that has not committed writes nothing, and then all at once. -/
theorem step_writes (hnone : t.committed = none) (hstep : c.step S pid i s t = some (s', t')) :
    t'.committed = none ∧ s'.db = s.db ∨
      ∃ rows, t'.committed = some rows ∧ s'.db = s.db.append rows := by
  have attempted : ∀ {rows entries next}, next.committed = none →
      attempt pid rows entries s next i = some (s', t') → t'.committed = none ∧ s'.db = s.db := by
    intro rows entries next hnext h
    rcases attempt_cases h with ⟨hdone, rfl⟩ | ⟨rfl, e, rfl⟩
    · obtain ⟨-, -, rfl⟩ := take_done hdone
      exact ⟨hnext, rfl⟩
    · exact ⟨rfl, rfl⟩
  cases t with
  | findingPlan =>
    cases hstep
    refine .inl ⟨?_, rfl⟩
    unfold Call.findPlan
    split <;> try rfl
    split
    · rfl
    · split <;> rfl
  | findingPermissions rows =>
    have heq := Option.some.inj hstep
    unfold Call.findPermissions at heq
    split at heq <;> try (cases heq; exact .inl ⟨rfl, rfl⟩)
    dsimp only at heq
    split at heq <;> cases heq <;> exact .inl ⟨rfl, rfl⟩
  | inserting todo rows =>
    cases todo with
    | nil =>
      have heq := Option.some.inj hstep
      unfold Call.commit at heq
      split at heq <;> cases heq
      · exact .inr ⟨rows, rfl, rfl⟩
      · exact .inr ⟨rows, rfl, rfl⟩
      · exact .inl ⟨rfl, rfl⟩
    | cons new todo => exact .inl (attempted rfl hstep)
  | creatingEnterprise plan => exact .inl (attempted rfl hstep)
  | creatingSubscription plan => exact .inl (attempted rfl hstep)
  | linkingSubscription subscription => exact .inl (attempted rfl hstep)
  | creatingUser subscription => exact .inl (attempted rfl hstep)
  | rejected e => cases hstep
  | _ => cases hnone

/-- Every enterprise is complete at all times; what a call has inserted and not committed is not in the
database, what it has committed is its whole registration, and in between is one step. -/
theorem register_atomic {calls : Nat → Call} {P₀ P : RegisterPool} (h0 : Starts P₀)
    (h : Reach (registrations S calls).system Always P₀ P) :
    Sound P.shared.db.permanent ∧
    (∀ pid, ∀ k ∈ (P.threads pid).held (calls pid), P.shared.db.rows.taken k = false) ∧
    (∀ pid rows, (P.threads pid).committed = some rows → Stands S (calls pid) P.shared.db rows) ∧
    ∀ pid i P', (registrations S calls).system.step P (.run pid i) = some P' →
      (P.threads pid).committed = none →
      (P'.threads pid).committed = none ∧ P'.shared.db = P.shared.db ∨
        ∃ rows, (P'.threads pid).committed = some rows ∧ P'.shared.db = P.shared.db.append rows := by
  obtain ⟨hsound, hknows⟩ := (outline calls).sound (h0.annotated calls) h
  refine ⟨hsound, fun pid => (hknows pid).pending.untaken, fun pid => (hknows pid).stands, ?_⟩
  intro pid i P' hstep hnone
  obtain ⟨s, t, hthread, rfl⟩ := Machine.run_eq_some.1 hstep
  simpa using step_writes hnone hthread

/-- Runs from the sample database. -/
def samplePool : RegisterPool := ⟨unlocked sampleDb, fun _ => .findingPlan⟩

theorem samplePool_starts : Starts samplePool := ⟨sampleDb_sound, fun _ => rfl⟩

/-- A first registration goes through. -/
theorem register_atomic_sample :
    ∃ P, Reach (registrations sampleServices sampleCall).system Always samplePool P ∧
      Complete P.shared.db.permanent (sampleCall 0).linkedEnterprise := by
  have hfresh : Fresh sampleServices (sampleCall 0) sampleDb := sampleCall_fresh (by decide)
  obtain ⟨t, hruns, hanswer⟩ := runs_register hfresh sampleDb_sound
  rw [sampleCall_ok] at hanswer
  have hreach := Machine.reach_of_thread (W := registrations sampleServices sampleCall)
    (P := samplePool) (i := .ok) hruns rfl
  obtain ⟨rows, hrows⟩ : ∃ rows, t.committed = some rows := by
    cases t <;> cases hanswer
    exact ⟨_, rfl⟩
  obtain ⟨hsound, -, hstands, -⟩ := register_atomic samplePool_starts hreach
  have hstands : Stands sampleServices (sampleCall 0) _ rows := hstands 0 rows (by simpa using hrows)
  exact ⟨_, hreach, hsound.complete _ (hstands.2 _ hstands.mem_enterprise)⟩

/-! ## Conflicts -/

/-- A statement whose entries are some of the registration's has a conflict on a given one only. -/
theorem given_of_violation {entries : List IndexEntry} (hf : Fresh S c s.db)
    (hsound : Sound s.db.permanent)
    (hsub : ∃ plan now ids, ∀ k ∈ entries, k ∈ (c.registration S plan now ids).flatMap Row.entries)
    (hnodup : (rows.flatMap Row.entries ++ entries).Nodup)
    (h : (∃ k ∈ entries, s.db.rows.taken k = true) ∨ ¬ (rows.flatMap Row.entries ++ entries).Nodup) :
    ∃ k ∈ c.given, s.db.rows.taken k = true := by
  rcases h with ⟨k, hk, htaken⟩ | hdup
  · obtain ⟨plan, now, ids, hsub⟩ := hsub
    obtain ⟨r, hr, hkr⟩ := List.mem_flatMap.1 (hsub k hk)
    exact ⟨k, hf.given_of_taken hsound hr hkr htaken, htaken⟩
  · exact absurd hnodup hdup

theorem first_subset (plan : Plan) (now : Instant) {entries : List IndexEntry}
    (hsub : ∀ k ∈ entries, k ∈ (c.opening (c.subscription plan now) ++ [Row.user (c.user S)]).flatMap
      Row.entries) :
    ∃ plan now ids, ∀ k ∈ entries, k ∈ (c.registration S plan now ids).flatMap Row.entries := by
  refine ⟨plan, now, fun _ => none, fun k hk => ?_⟩
  rw [Call.registration, List.flatMap_append]
  exact List.mem_append_left _ (hsub k hk)

theorem attempt_conflict {entries : List IndexEntry} {next : RegisterState}
    (h : attempt pid rows entries s next i = some (s', t')) (hnext : next ≠ .rejected alreadyExists)
    (ht : t' = .rejected alreadyExists) :
    (∃ k ∈ entries, s.db.rows.taken k = true) ∨ ¬ (rows.flatMap Row.entries ++ entries).Nodup := by
  subst ht
  cases i with
  | ok =>
    simp only [attempt] at h
    split at h
    · cases h
    · rename_i hviolation
      exact take_violation hviolation
    · have heq := congrArg Prod.snd (Option.some.inj h)
      exact absurd heq hnext
  | failed message => cases h
  | lost message => cases h

/-- The ids of a catalog that is still there. -/
theorem oneKey_of_catalog {permissionIdByKey : PermissionKey → Option Uuid}
    (hcat : Catalog s.db.permanent permissionIdByKey) : OneKey permissionIdByKey := by
  have hrow : ∀ {key id}, permissionIdByKey key = some id → .permission ⟨id, key⟩ ∈ s.db.rows.rows := by
    intro key id h
    obtain ⟨id', h', hmem⟩ := hcat key
    cases h.symm.trans h'
    obtain ⟨r, hr, heq⟩ := List.mem_map.1 hmem
    cases r <;> cases heq
    exact hr
  intro key key' id h h'
  have heq := eq_of_entry s.db.rows.unique (hrow h) (hrow h') (k := .id .permissions id)
    (by simp [Row.entries]) (by simp [Row.entries])
  cases heq
  rfl

theorem create_conflict {row : Row} {next : RegisterState} {thrown : ApiError → RegisterState}
    {e : ApiError} (h : create pid row s next thrown i = some (s', .rejected e))
    (hnext : next.committed ≠ none) (hthrown : ∀ e, (thrown e).committed ≠ none) : False := by
  obtain ⟨rfl | ⟨e', he⟩, -⟩ := create_cases h
  · exact hnext rfl
  · exact hthrown e' (he ▸ rfl)

theorem step_conflict (hf : Fresh S c s.db) (hsound : Sound s.db.permanent) (h : Knows S c pid t s)
    (hstep : c.step S pid i s t = some (s', .rejected alreadyExists)) :
    ∃ k ∈ c.given, s.db.rows.taken k = true := by
  cases t with
  | findingPlan =>
    have heq := congrArg Prod.snd (Option.some.inj hstep)
    unfold Call.findPlan at heq
    split at heq <;> try cases heq
    split at heq <;> try cases heq
    split at heq <;> cases heq
  | creatingEnterprise plan =>
    rw [Call.step] at hstep
    refine given_of_violation hf hsound (first_subset plan 0 fun k hk =>
      enterprise_mem_first hk) ?_ (attempt_conflict hstep (by simp) rfl)
    exact (nodup_opening plan 0).of_append_left.of_append_left
  | creatingSubscription plan =>
    rw [Call.step] at hstep
    refine given_of_violation hf hsound (first_subset plan s.db.now fun k hk => ?_) ?_
      (attempt_conflict hstep (by simp) rfl)
    · rw [entries_first]
      obtain rfl := List.mem_singleton.1 hk
      simp [Call.subscription]
    · simpa using (nodup_opening plan s.db.now).of_append_left
  | linkingSubscription subscription =>
    obtain ⟨plan, now, rfl⟩ := h.writes
    rw [Call.step] at hstep
    refine given_of_violation hf hsound (first_subset plan now fun k hk => ?_)
      (nodup_opening plan now) (attempt_conflict hstep (by simp) rfl)
    rw [entries_first]
    obtain rfl := List.mem_singleton.1 hk
    simp
  | creatingUser subscription =>
    obtain ⟨plan, now, rfl⟩ := h.writes
    rw [Call.step] at hstep
    refine given_of_violation hf hsound (first_subset plan now fun k hk => ?_) ?_
      (attempt_conflict hstep (by simp) rfl)
    · rw [List.flatMap_append]
      exact List.mem_append_right _ (by simpa using hk)
    · have hnodup : ((c.opening (c.subscription plan now) ++ [Row.user (c.user S)]).flatMap
          Row.entries).Nodup := nodup_first
      simpa using hnodup
  | findingPermissions rows =>
    have heq := congrArg Prod.snd (Option.some.inj hstep)
    unfold Call.findPermissions at heq
    split at heq <;> try cases heq
    dsimp only at heq
    split at heq <;> cases heq
  | inserting todo rows =>
    cases todo with
    | nil =>
      have heq := congrArg Prod.snd (Option.some.inj hstep)
      unfold Call.commit at heq
      split at heq <;> cases heq
    | cons new todo =>
      obtain ⟨plan, now, ids, hrows, hcat⟩ := h.writes
      have hall : (c.registration S plan now ids).flatMap Row.entries =
          rows.flatMap Row.entries ++ new.flatMap Row.entries ++ todo.flatten.flatMap Row.entries := by
        rw [← hrows]
        simp
      rw [Call.step] at hstep
      refine given_of_violation hf hsound ⟨plan, now, ids, fun k hk => ?_⟩ ?_
        (attempt_conflict hstep (by simp) rfl)
      · rw [hall]
        exact List.mem_append_left _ (List.mem_append_right _ hk)
      · have hnodup : ((c.registration S plan now ids).flatMap Row.entries).Nodup :=
          nodup_registration hf (oneKey_of_catalog hcat)
        rw [hall] at hnodup
        exact hnodup.of_append_left
  | issuingVerification rows =>
    rw [Call.step] at hstep
    exact (create_conflict hstep (by simp [RegisterState.committed])
      (by simp [RegisterState.committed])).elim
  | notifying rows =>
    rw [Call.step] at hstep
    exact (create_conflict hstep (by simp [RegisterState.committed])
      (by simp [RegisterState.committed])).elim
  | mailing rows => cases hstep
  | issuingTokens rows =>
    rw [Call.step] at hstep
    exact (create_conflict hstep (by simp [RegisterState.committed])
      (by simp [RegisterState.committed])).elim
  | registered rows pair => cases hstep
  | unanswered e rows => cases hstep
  | rejected e => cases hstep

/-- A conflict is reported only when the email, the NINEA or the RCCM of the call is taken, whatever
runs beside it. -/
theorem conflict_truthful {calls : Nat → Call} {P₀ P P' : RegisterPool} {pid : Nat} {i : Reply}
    (h0 : Starts P₀) (h : Reach (registrations S calls).system Always P₀ P)
    (hf : Fresh S (calls pid) P.shared.db)
    (hstep : (registrations S calls).system.step P (.run pid i) = some P')
    (hconflict : P'.threads pid = .rejected alreadyExists) :
    ∃ k ∈ (calls pid).given, P.shared.db.rows.taken k = true := by
  obtain ⟨hsound, hknows⟩ := (outline calls).sound (h0.annotated calls) h
  obtain ⟨s, t, hthread, rfl⟩ := Machine.run_eq_some.1 hstep
  obtain rfl : t = .rejected alreadyExists := by simpa using hconflict
  exact step_conflict hf hsound (hknows pid) hthread

/-- The email of the second call is the super admin's. -/
theorem conflict_truthful_sample :
    ∃ P P', Reach (registrations sampleServices sampleCall).system Always samplePool P ∧
      (registrations sampleServices sampleCall).system.step P (.run 1 .ok) = some P' ∧
      P'.threads 1 = .rejected alreadyExists ∧
      ∃ k ∈ (sampleCall 1).given, P.shared.db.rows.taken k = true := by
  have hfresh : Fresh sampleServices (sampleCall 1) sampleDb := sampleCall_fresh (by decide)
  have hplan : sampleDb.plans.find? (sampleCall 1).input.planId = some ⟨1, true, 14⟩ := rfl
  obtain ⟨s, hdb, hs, hruns⟩ : Comes sampleServices (sampleCall 1) 1 sampleDb _ :=
    comes_creatingUser hfresh sampleDb_sound hplan rfl (by decide +kernel)
  have hreach := Machine.reach_of_thread (W := registrations sampleServices sampleCall)
    (P := samplePool) (i := .ok) hruns rfl
  have htaken : s.db.rows.taken (.email "admin@example.sn") = true := by
    rw [hdb]
    decide +kernel
  have hstep : (sampleCall 1).step sampleServices 1 .ok s
      (.creatingUser ((sampleCall 1).subscription ⟨1, true, 14⟩ sampleDb.now)) =
      some (s.release 1, .rejected alreadyExists) := by
    rw [Call.step, attempt, take_taken hs (k := .email "admin@example.sn") (by decide +kernel) htaken]
  let P : RegisterPool := ⟨s, Function.update samplePool.threads 1
    (.creatingUser ((sampleCall 1).subscription ⟨1, true, 14⟩ sampleDb.now))⟩
  have hnext : (registrations sampleServices sampleCall).system.step P (.run 1 .ok) =
      some ⟨s.release 1, Function.update P.threads 1 (.rejected alreadyExists)⟩ :=
    Machine.run_eq_some.2 ⟨_, _, by simpa [P, registrations] using hstep, rfl⟩
  have hfresh' : Fresh sampleServices (sampleCall 1) P.shared.db := by
    simpa only [P, hdb] using hfresh
  exact ⟨P, _, hreach, hnext, by simp,
    conflict_truthful samplePool_starts hreach hfresh' hnext (by simp)⟩

end Gescom.Provisioning
