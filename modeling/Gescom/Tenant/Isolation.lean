import Gescom.Tenant.Connections

/-!
# Isolation of tenants

Whatever queries, inserts, updates and upserts the callbacks issue, each returns rows of the tenant of
its request, and only a commit for a tenant changes its rows.
-/

namespace Gescom.Tenant

open RowSecurity ReadCommitted Transition
open Auth (JwtService)

variable {β : Type} {jwt : JwtService}

/-! ## What must hold -/

/-- The tenant of a call is the enterprise that its verified token names. -/
def Txn.Authentic (jwt : JwtService) (t : Txn β) : Prop :=
  ∃ store, TenantContextMiddleware.use jwt t.verifiedAt t.authorization = some store ∧
    store.tenantId = t.tenantId

/-- A row of the tenant, also one it has not committed, or one of the tables that tenants share. -/
def Txn.MayRead (t : Txn β) (rows : Table (Row β)) (r : Row β) : Prop :=
  (schema β).belongs (overlay rows t.writes) t.tenantId r = true ∨ r.key.table ∈ sharedTables

/-- What the services of the identity role keep: owners, references, and the rows that a
transaction has locked. -/
structure IdentityOk (s : TenantDb β) (rows : Table (Row β)) : Prop where
  grows : (schema β).Grows s.db.rows rows
  intact : (schema β).Intact rows
  locked : ∀ k pid, s.lock k = some pid → rows.find? k = s.db.rows.find? k

def Serves (P : TenantPool β) : Act (Move β) (Outside β) → Prop
  | .env (.identity f) => IdentityOk P.shared (f P.shared.db.rows)
  | _ => True

structure Starts (P : TenantPool β) : Prop where
  calls : ∀ pid, ∃ authorization isolationLevel,
    P.threads pid = .calling authorization isolationLevel
  intact : (schema β).Intact P.shared.db.rows

/-- The step commits a transaction of `b`, or is one of the identity role. -/
def ActsFor (b : Uuid) (P : TenantPool β) : Act (Move β) (Outside β) → Prop
  | .run pid .resolve => ∃ t, P.threads pid = .running t ∧ t.tenantId = b
  | .env (.identity _) => True
  | _ => False

/-- At every point of every run. -/
structure Isolates [DecidableEq β] (jwt : JwtService) (P : TenantPool β) : Prop where
  authentic : ∀ pid t, (P.threads pid).txn = some t → t.Authentic jwt
  reads : ∀ pid t, (P.threads pid).txn = some t → ∀ r ∈ t.seen, t.MayRead P.shared.db.rows r
  writes : ∀ P' b, Reach (api jwt).system (fun P a => Serves P a ∧ ¬ ActsFor b P a) P P' →
    (schema β).view P'.shared.db.rows b = (schema β).view P.shared.db.rows b

/-! ## What holds between two steps -/

variable {s s' : TenantDb β} {pid pid' : Nat} {t : Txn β} {st st' : RunState β} {m : Move β}
  {rows rows' : Table (Row β)}

def Holds (pid : Nat) (i : Nat) (s : TenantDb β) : Prop := (s.db.connections i).holder = some pid

/-- What a call relies on in its transaction. -/
structure Txn.Ok (jwt : JwtService) (pid : Nat) (t : Txn β) (s : TenantDb β) : Prop where
  authentic : t.Authentic jwt
  connection : Holds pid t.connection s
  setting : (s.db.connections t.connection).session.current = .value t.tenantId
  own : (schema β).Scoped s.db.rows t.writes t.tenantId
  locked : ∀ r ∈ t.writes, s.lock r.key = some pid
  snapshot : ∀ B, t.snapshot = some B → (schema β).Grows B s.db.rows ∧ (schema β).Intact B
  seen : ∀ r ∈ t.seen, t.MayRead s.db.rows r

def RunState.Ok (jwt : JwtService) (pid : Nat) (st : RunState β) (s : TenantDb β) : Prop :=
  match st with
  | calling _ _ => True
  | rejected => True
  | connecting authorization verifiedAt tenantId _ =>
    ∃ store, TenantContextMiddleware.use jwt verifiedAt authorization = some store ∧
      store.tenantId = tenantId
  | scoping authorization verifiedAt tenantId i _ => Holds pid i s ∧
    ∃ store, TenantContextMiddleware.use jwt verifiedAt authorization = some store ∧
      store.tenantId = tenantId
  | running t => t.Ok jwt pid s
  | aborting t => t.Ok jwt pid s
  | committed t => t.Authentic jwt ∧ ∀ r ∈ t.seen, t.MayRead s.db.rows r
  | rolledBack t => t.Authentic jwt ∧ ∀ r ∈ t.seen, t.MayRead s.db.rows r

/-- What a step of `pid` leaves in place. -/
structure Respects (pid : Nat) (s s' : TenantDb β) : Prop where
  grows : (schema β).Grows s.db.rows s'.db.rows
  locks : LocksKept pid s s'
  locked : ∀ k pid', pid' ≠ pid → s.lock k = some pid' → s'.db.rows.find? k = s.db.rows.find? k
  connections : ∀ i pid', pid' ≠ pid → Holds pid' i s → s'.db.connections i = s.db.connections i

theorem Txn.MayRead.mono {r : Row β} (h : t.MayRead rows r) (hg : (schema β).Grows rows rows') :
    t.MayRead rows' r := by
  rcases h with hown | hshared
  · exact .inl ((hg.overlay t.writes).belongs hown)
  · exact .inr hshared

theorem Txn.Ok.stable (h : t.Ok jwt pid' s) (hne : pid ≠ pid') (hg : Respects pid s s') :
    t.Ok jwt pid' s' where
  authentic := h.authentic
  connection := by
    unfold Holds
    rw [hg.connections t.connection pid' (Ne.symm hne) h.connection]
    exact h.connection
  setting := by
    rw [hg.connections t.connection pid' (Ne.symm hne) h.connection]
    exact h.setting
  own := h.own.mono hg.grows fun r hr => hg.locked r.key pid' (Ne.symm hne) (h.locked r hr)
  locked r hr := (hg.locks r.key pid' (Ne.symm hne)).2 (h.locked r hr)
  snapshot B hB := by
    obtain ⟨hgrows, hintact⟩ := h.snapshot B hB
    exact ⟨hgrows.trans hg.grows, hintact⟩
  seen r hr := (h.seen r hr).mono hg.grows

theorem RunState.Ok.stable (h : st.Ok jwt pid' s) (hne : pid ≠ pid') (hg : Respects pid s s') :
    st.Ok jwt pid' s' := by
  cases st with
  | calling authorization isolationLevel => trivial
  | rejected => trivial
  | connecting authorization verifiedAt tenantId isolationLevel => exact h
  | scoping authorization verifiedAt tenantId i isolationLevel =>
    obtain ⟨hheld, hstore⟩ := h
    refine ⟨?_, hstore⟩
    unfold Holds
    rw [hg.connections i pid' (Ne.symm hne) hheld]
    exact hheld
  | running t => exact Txn.Ok.stable h hne hg
  | aborting t => exact Txn.Ok.stable h hne hg
  | committed t => exact ⟨h.1, fun r hr => (h.2 r hr).mono hg.grows⟩
  | rolledBack t => exact ⟨h.1, fun r hr => (h.2 r hr).mono hg.grows⟩

/-! ## Steps -/

theorem Holds.unique {i : Nat} (h : Holds pid i s) : ∀ pid', pid' ≠ pid → ¬ Holds pid' i s := by
  intro pid' hne h'
  exact hne (Option.some.inj (h'.symm.trans h))

/-- A step that only touches a connection which no other call uses. -/
theorem Respects.setConnection {i : Nat} {c : Connection}
    (hfree : ∀ pid', pid' ≠ pid → ¬ Holds pid' i s) :
    Respects pid s (s.autocommit (·.setConnection i c)) where
  grows := .refl _ _
  locks := .of_eq rfl
  locked _ _ _ _ := rfl
  connections j pid' hne hheld := by
    refine Function.update_of_ne ?_ ..
    rintro rfl
    exact hfree pid' hne hheld

/-- A rollback. -/
theorem Respects.disconnect {i : Nat} (h : Holds pid i s) :
    Respects pid s (s.commit pid (·.disconnect i)) where
  grows := .refl _ _
  locks := locksKept_commit
  locked _ _ _ _ := rfl
  connections j pid' hne hheld := by
    refine Function.update_of_ne ?_ ..
    rintro rfl
    exact h.unique pid' hne hheld

theorem Respects.acquireRows {rs : List (Row β)} (h : TenantDb.rowsFree pid rs s = true) :
    Respects pid s (TenantDb.acquireRows pid rs s) where
  grows := .refl _ _
  locks := by
    refine locksKept_acquireAll fun k hk => ?_
    obtain ⟨r, hr, hkey⟩ := List.any_eq_true.1 hk
    rw [← beq_iff_eq.1 hkey]
    exact List.all_eq_true.1 h r hr
  locked _ _ _ _ := rfl
  connections _ _ _ _ := rfl

/-- The commit of the writes of a call. -/
theorem Txn.Ok.respects_commit (h : t.Ok jwt pid s) :
    Respects pid s (s.commit pid fun db =>
      (db.setRows (overlay db.rows t.writes)).disconnect t.connection) where
  grows := h.own.grows (.refl _ _)
  locks := locksKept_commit
  locked k pid' hne hlock := by
    rcases overlay_cases t.writes k with ⟨w, hw, hkey, -⟩ | ⟨-, hfind⟩
    · -- the rows it writes are locked by itself
      have hown := h.locked w hw
      rw [show w.key = k from hkey, hlock] at hown
      exact absurd (Option.some.inj hown) hne
    · exact hfind s.db.rows
  connections j pid' hne hheld := by
    refine Function.update_of_ne ?_ ..
    rintro rfl
    exact h.connection.unique pid' hne hheld

theorem Txn.Ok.view_commit (h : t.Ok jwt pid s) {b : Uuid} (hne : b ≠ t.tenantId) :
    (schema β).view (overlay s.db.rows t.writes) b = (schema β).view s.db.rows b :=
  funext fun k => h.own.view_overlay hne k

theorem Txn.Ok.base (h : t.Ok jwt pid s) (hI : (schema β).Intact s.db.rows) :
    (schema β).Grows (t.base s.db) s.db.rows ∧ (schema β).Intact (t.base s.db) := by
  unfold Txn.base
  cases hB : t.snapshot with
  | none => exact ⟨.refl _ _, hI⟩
  | some B => exact h.snapshot B hB

/-- A row that a statement returns. -/
theorem mayRead_of_visible {V : Table (Row β)} {a : Uuid} {r : Row β}
    (hv : (schema β).visible V (some a) r = true) (hread : granted r.key.table .select = true) :
    (schema β).belongs V a r = true ∨ r.key.table ∈ sharedTables := by
  by_cases hshared : (policyOf r.key.table).kind = .shared
  · exact .inr (shared_of_granted hread hshared)
  · refine .inl (belongs_iff.2 ⟨?_, hv⟩)
    exact kind_ne_shared.1 hshared

/-- The transaction of a call is over. -/
theorem Txn.Ok.rollback (h : t.Ok jwt pid s) :
    RunState.Ok jwt pid (.rolledBack t) (s.commit pid (·.disconnect t.connection)) :=
  ⟨h.authentic, h.seen⟩

theorem Txn.Ok.commit (h : t.Ok jwt pid s) :
    RunState.Ok jwt pid (.committed { t with writes := [] }) (s.commit pid fun db =>
      (db.setRows (overlay db.rows t.writes)).disconnect t.connection) :=
  ⟨h.authentic, h.seen⟩

/-- A write of the identity role, as a step of somebody else. -/
theorem IdentityOk.respects {f : Table (Row β) → Table (Row β)} (h : IdentityOk s (f s.db.rows))
    (pid : Nat) : Respects pid s (s.autocommit ((Outside.identity f).apply)) where
  grows := h.grows
  locks := .of_eq rfl
  locked k pid' _ hlock := h.locked k pid' hlock
  connections _ _ _ _ := rfl

theorem RunState.Ok.txn (h : st.Ok jwt pid s) (ht : st.txn = some t) :
    t.Authentic jwt ∧ ∀ r ∈ t.seen, t.MayRead s.db.rows r := by
  cases st <;> cases ht
  · exact ⟨Txn.Ok.authentic h, Txn.Ok.seen h⟩
  · exact ⟨Txn.Ok.authentic h, Txn.Ok.seen h⟩
  · exact h
  · exact h

theorem Starts.annotated {P : TenantPool β} (h : Starts P) :
    Annotated (fun s => (schema β).Intact s.db.rows) (fun pid st s => RunState.Ok jwt pid st s) P := by
  refine ⟨h.intact, fun pid => ?_⟩
  obtain ⟨authorization, isolationLevel, hcall⟩ := h.calls pid
  rw [hcall]
  trivial

variable [DecidableEq β]

theorem Txn.Ok.fits {c : Command (Row β) TableName} {e : Effect (Row β)}
    (hconflicts : t.conflicts e s.db = false)
    (hperforms : (schema β).Performs (overlay (t.base s.db) t.writes) (some t.tenantId) c e) :
    (schema β).Fits (t.base s.db) s.db.rows t.writes e.writes t.tenantId where
  shown := hperforms.shown
  replaces := hperforms.replaces
  unchanged r hr hnew := by
    have hsame := List.any_eq_false.1 hconflicts r hr
    have hall : t.writes.all (fun w => w.key != r.key) = true :=
      List.all_eq_true.2 fun w hw => bne_iff_ne.2 (hnew w hw)
    have hrow : s.db.rows.find? r.key = (t.base s.db).find? r.key := by simpa [hall] using hsame
    exact hrow

/-- A statement of the callback. -/
theorem Txn.Ok.statement {c : Command (Row β) TableName} {e : Effect (Row β)} (h : t.Ok jwt pid s)
    (hI : (schema β).Intact s.db.rows) (hexec : t.execute c s.db = .ok e)
    (hconflicts : t.conflicts e s.db = false) :
    (t.perform e).Ok jwt pid (TenantDb.acquireRows pid e.writes s) := by
  obtain ⟨hbase, hbaseI⟩ := h.base hI
  rw [Txn.execute, h.setting] at hexec
  obtain ⟨hperforms, hread⟩ := execute_performs (fun k hk => by simp [Txn.taken, hk]) hexec
  have hfits := Txn.Ok.fits hconflicts hperforms
  refine ⟨h.authentic, h.connection, h.setting, h.own.append hfits hbase hbaseI, ?_, h.snapshot, ?_⟩
  · intro r hr
    rcases List.mem_append.1 hr with hold | hnew
    · exact acquireAll_keeps (h.locked r hold)
    · have hany : e.writes.any (fun x => x.key == r.key) = true :=
        List.any_eq_true.2 ⟨r, hnew, beq_self_eq_true _⟩
      show (if e.writes.any (fun x => x.key == r.key) then some pid else s.lock r.key) = some pid
      rw [if_pos hany]
  · intro r hr
    rcases List.mem_append.1 hr with hold | hnew
    · -- what was read before stays readable over the new writes
      rcases h.seen r hold with hown | hshared
      · exact .inl (hfits.grows.belongs hown)
      · exact .inr hshared
    · obtain ⟨htable, hshown⟩ := hperforms.returned r hnew
      have hgranted : granted r.key.table .select = true := by
        rw [show r.key.table = c.table (schema β) from htable]
        exact hread
      rcases mayRead_of_visible hshown hgranted with hown | hshared
      · exact .inl (((hbase.overlay t.writes).trans hfits.grows).belongs hown)
      · exact .inr hshared

/-- Outside its transaction a call only proceeds. -/
theorem proceed_of_step (hst : st.step jwt pid s m = some (s', st')) :
    (∃ i, m = .proceed i) ∨ ∃ t, st = .running t ∨ st = .aborting t := by
  cases st <;> cases m <;> first
    | exact .inl ⟨_, rfl⟩
    | exact .inr ⟨_, .inl rfl⟩
    | exact .inr ⟨_, .inr rfl⟩
    | cases hst

/-- The steps of a call in its transaction. -/
theorem RunState.running_ok (hI : (schema β).Intact s.db.rows) (hQ : t.Ok jwt pid s)
    (hst : (RunState.running t).step jwt pid s m = some (s', st')) :
    (schema β).Intact s'.db.rows ∧ st'.Ok jwt pid s' ∧ Respects pid s s' := by
  have hsame : Respects pid s s := ⟨.refl _ _, .of_eq rfl, fun _ _ _ _ => rfl, fun _ _ _ _ => rfl⟩
  cases m with
  | proceed i => cases hst
  | statement c =>
    simp only [RunState.step] at hst
    split at hst
    · cases hst
      exact ⟨hI, hQ, hsame⟩
    · rename_i e hexec
      split at hst
      · cases hst
      · rename_i hfree
        split at hst
        · cases hst
          exact ⟨hI, hQ, hsame⟩
        · rename_i hconflicts
          cases hst
          exact ⟨hI, hQ.statement hI hexec (by simpa using hconflicts),
            .acquireRows (by simpa using hfree)⟩
  | resolve =>
    cases hst
    exact ⟨hQ.own.intact hI, hQ.commit, hQ.respects_commit⟩
  | reject =>
    cases hst
    exact ⟨hI, hQ.rollback, .disconnect hQ.connection⟩

theorem RunState.step_ok (hI : (schema β).Intact s.db.rows) (hQ : st.Ok jwt pid s)
    (hst : st.step jwt pid s m = some (s', st')) :
    (schema β).Intact s'.db.rows ∧ st'.Ok jwt pid s' ∧ Respects pid s s' := by
  have hsame : Respects pid s s := ⟨.refl _ _, .of_eq rfl, fun _ _ _ _ => rfl, fun _ _ _ _ => rfl⟩
  cases st with
  | calling authorization isolationLevel =>
    obtain ⟨i, rfl⟩ : ∃ i, m = .proceed i := by simpa using proceed_of_step hst
    simp only [RunState.step] at hst
    split at hst
    · cases hst
      exact ⟨hI, trivial, hsame⟩
    · rename_i store hstore
      cases hst
      exact ⟨hI, ⟨store, hstore, rfl⟩, hsame⟩
  | rejected => cases m <;> cases hst
  | connecting authorization verifiedAt tenantId isolationLevel =>
    obtain ⟨i, rfl⟩ : ∃ i, m = .proceed i := by simpa using proceed_of_step hst
    simp only [RunState.step] at hst
    split at hst
    · cases hst
    · rename_i hfree
      cases hst
      refine ⟨hI, ⟨?_, hQ⟩, Respects.setConnection fun pid' _ hheld => ?_⟩
      · simp [Holds, Server.setConnection]
      · cases hfree.symm.trans hheld
  | scoping authorization verifiedAt tenantId i isolationLevel =>
    obtain ⟨j, rfl⟩ : ∃ j, m = .proceed j := by simpa using proceed_of_step hst
    obtain ⟨hheld, hstore⟩ := hQ
    cases hst
    refine ⟨hI, ?_, Respects.setConnection hheld.unique⟩
    refine ⟨hstore, ?_, ?_, .nil _ _ _, fun r hr => (List.not_mem_nil hr).elim, fun B hB => ?_,
      fun r hr => (List.not_mem_nil hr).elim⟩
    · simpa [Holds, Server.setConnection] using hheld
    · simp [Server.setConnection]
    · by_cases hserializable : isolationLevel = .serializable
      · simp only [hserializable, if_true, Option.some.injEq] at hB
        subst hB
        exact ⟨.refl _ _, hI⟩
      · simp [hserializable] at hB
  | running t => exact RunState.running_ok hI hQ hst
  | aborting t =>
    cases m with
    | reject =>
      cases hst
      exact ⟨hI, Txn.Ok.rollback hQ, .disconnect (Txn.Ok.connection hQ)⟩
    | proceed i => cases hst
    | statement c => cases hst
    | resolve => cases hst
  | committed t => cases m <;> cases hst
  | rolledBack t => cases m <;> cases hst

theorem outline (jwt : JwtService) :
    Outline (api (β := β) jwt) Serves (fun s => (schema β).Intact s.db.rows)
      (fun pid st s => RunState.Ok jwt pid st s) Respects where
  own _ _ _ _ _ _ hI hQ hst := RunState.step_ok hI hQ hst
  stable _ _ _ _ _ hne _ _ hG hQ := hQ.stable hne hG
  env P x hK hI := by
    cases x with
    | tick n =>
      have hG : ∀ pid, Respects pid P.shared (P.shared.autocommit ((Outside.tick n).apply)) :=
        fun _ => ⟨.refl _ _, .of_eq rfl, fun _ _ _ _ => rfl, fun _ _ _ _ => rfl⟩
      exact ⟨hI, fun pid _ hQ => hQ.stable (Nat.succ_ne_self pid) (hG _)⟩
    | identity f =>
      exact ⟨IdentityOk.intact hK,
        fun pid _ hQ => hQ.stable (Nat.succ_ne_self pid) (IdentityOk.respects hK _)⟩

/-! ## The result -/

/-- Of the steps of a call, only its commit writes. -/
theorem RunState.step_rows (hst : st.step jwt pid s m = some (s', st')) :
    s'.db.rows = s.db.rows ∨ ∃ t, st = .running t ∧ m = .resolve ∧
      s'.db.rows = overlay s.db.rows t.writes := by
  cases st with
  | calling authorization isolationLevel =>
    obtain ⟨i, rfl⟩ : ∃ i, m = .proceed i := by simpa using proceed_of_step hst
    simp only [RunState.step] at hst
    split at hst <;> cases hst <;> exact .inl rfl
  | rejected => cases m <;> cases hst
  | connecting authorization verifiedAt tenantId isolationLevel =>
    obtain ⟨i, rfl⟩ : ∃ i, m = .proceed i := by simpa using proceed_of_step hst
    simp only [RunState.step] at hst
    split at hst <;> cases hst
    exact .inl rfl
  | scoping authorization verifiedAt tenantId i isolationLevel =>
    obtain ⟨j, rfl⟩ : ∃ j, m = .proceed j := by simpa using proceed_of_step hst
    cases hst
    exact .inl rfl
  | running t =>
    cases m with
    | proceed i => cases hst
    | statement c =>
      simp only [RunState.step] at hst
      split at hst
      · cases hst
        exact .inl rfl
      · split at hst
        · cases hst
        · split at hst <;> cases hst <;> exact .inl rfl
    | resolve =>
      cases hst
      exact .inr ⟨t, rfl, rfl, rfl⟩
    | reject =>
      cases hst
      exact .inl rfl
  | aborting t =>
    cases m with
    | reject =>
      cases hst
      exact .inl rfl
    | proceed i => cases hst
    | statement c => cases hst
    | resolve => cases hst
  | committed t => cases m <;> cases hst
  | rolledBack t => cases m <;> cases hst

/-- A commit for another tenant, a statement, a rollback or the time change no row of `b`. -/
theorem view_step {P P' : TenantPool β} {a : Act (Move β) (Outside β)} {b : Uuid}
    (hP : Annotated (fun s => (schema β).Intact s.db.rows) (fun pid st s => RunState.Ok jwt pid st s) P)
    (hst : (api jwt).system.step P a = some P') (hb : ¬ ActsFor b P a) :
    (schema β).view P'.shared.db.rows b = (schema β).view P.shared.db.rows b := by
  cases a with
  | run pid m =>
    obtain ⟨s, st, hth, rfl⟩ := Machine.run_eq_some.1 hst
    rcases RunState.step_rows hth with hsame | ⟨t, ht, rfl, hrows⟩
    · rw [hsame]
    · have hne : b ≠ t.tenantId := fun heq => hb ⟨t, ht, heq.symm⟩
      have hok : t.Ok jwt pid P.shared := by
        have h := hP.2 pid
        rwa [ht] at h
      rw [hrows, hok.view_commit hne]
  | env x =>
    obtain rfl := Machine.env_eq_some.1 hst
    cases x with
    | tick n => rfl
    | identity f => exact absurd trivial hb

/-- In every interleaving of any number of calls of `run`, on any number of shared connections,
whatever queries, inserts, updates outside the keys and upserts their callbacks issue, commit or
fail, what a call reads is of the enterprise that its verified token names or shared by all, and the
rows of an enterprise change by its own commits and those of the identity role only. -/
theorem tenant_isolation (jwt : JwtService) (P₀ P : TenantPool β) (h0 : Starts P₀)
    (h : Reach (api jwt).system Serves P₀ P) : Isolates jwt P := by
  have hP := (outline jwt).sound h0.annotated h
  refine ⟨fun pid t ht => ((hP.2 pid).txn ht).1, fun pid t ht => ((hP.2 pid).txn ht).2, ?_⟩
  intro P' b h'
  refine h'.inv (fun P' => (schema β).view P'.shared.db.rows b = (schema β).view P.shared.db.rows b)
    rfl fun Q a Q' hQ ih hK hst => ?_
  have hann := (outline jwt).sound h0.annotated (h.trans (hQ.mono fun _ _ hc => hc.1))
  exact (view_step hann hst hK.2).trans ih

def sampleJwt : JwtService where
  verify issuer audience _ token :=
    let tenant := if token = "a" then some 1 else if token = "b" then some 2 else none
    tenant.map fun e =>
      { sub := 10 * e, typ := some Auth.accessTokenType, enterpriseId := some e, issuer, audience,
        expiresAt := 900000 }

def customer (id enterpriseId body : Nat) : Row Nat where
  key := ⟨.customers, [id]⟩
  enterpriseId := some enterpriseId
  body := body

/-- Two tenants, with one customer each. -/
def sampleRows : Table (Row Nat) := ⟨[customer 11 1 0, customer 12 2 0], by decide⟩

def samplePool : TenantPool Nat where
  shared := { db := { rows := sampleRows, connections := fun _ => {}, now := 0 }, lock := fun _ => none }
  threads pid := .calling (some (if pid = 0 then "Bearer a" else "Bearer b")) .serializable

theorem samplePool_starts : Starts samplePool where
  calls _ := ⟨_, _, rfl⟩
  intact := by
    intro k r p hr ho
    have hmem := Table.mem_of_find? hr
    have hcolumn : ∀ r ∈ sampleRows.rows, (schema Nat).kind r.key.table = .column := by decide
    have hkind := hcolumn r hmem
    rw [show (schema Nat).kind r.key.table = _ from ((schema Nat).owner_kind r).symm, ho] at hkind
    cases hkind

/-- An update without any `where`, then a read of every customer, through the same connection. -/
def sampleSchedule : List (Act (Move Nat) (Outside Nat)) :=
  let connects pid : List (Act (Move Nat) (Outside Nat)) := List.replicate 3 (.run pid (.proceed 0))
  connects 0 ++
    [.run 0 (.statement (.update .customers (fun _ => true) (fun r => { r with body := 1 })
      fun _ => rfl)), .run 0 .resolve] ++
  connects 1 ++ [.run 1 (.statement (.select .customers fun _ => true))]

theorem tenant_isolation_sample :
    ∃ P, exec (api sampleJwt).system (fun _ a => match a with | .run _ _ => true | .env _ => false)
        samplePool sampleSchedule = some P ∧
      P.shared.db.rows.rows = [customer 11 1 1, customer 12 2 0] ∧
      (P.threads 1).txn.map Txn.seen = some [customer 12 2 0] ∧ Isolates sampleJwt P := by
  have hrun : (exec (api sampleJwt).system
      (fun _ a => match a with | .run _ _ => true | .env _ => false) samplePool sampleSchedule).map
        (fun P => (P.shared.db.rows.rows, (P.threads 1).txn.map Txn.seen)) =
      some ([customer 11 1 1, customer 12 2 0], some [customer 12 2 0]) := by decide +kernel
  obtain ⟨P, hP, hres⟩ := Option.map_eq_some_iff.1 hrun
  obtain ⟨hrows, hseen⟩ := Prod.mk.inj hres
  refine ⟨P, hP, hrows, hseen, tenant_isolation sampleJwt samplePool P samplePool_starts ?_⟩
  refine Reach.of_exec _ (fun _ a ha => ?_) _ hP
  cases a with
  | run pid m => trivial
  | env x => cases ha

end Gescom.Tenant
