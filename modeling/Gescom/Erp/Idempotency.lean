import Gescom.Erp.DocumentRepositories

/-!
# Concurrent calls of `create` with one idempotency key

The caller that loses the race to the unique index looks the winner's document up in the
transaction its own insert has aborted, so it fails (`sales.repository.ts:143`,
`purchases.repository.ts:139`, `journal.repository.ts:147`). `creates_one_winner` gives the runs in
which there is one winner and every other caller gets its document: those where no insert meets an
index that already holds its entry. `both_insert` is a run outside it.
-/

namespace Gescom.Erp

open ReadCommitted Transition

variable {ι φ ρ ν : Type} [DocumentRow ρ]

def CreateCall.Created (call : CreateCall ι φ ρ ν) : Prop :=
  ∃ view, CreateCall.answer call = some (.ok ⟨view, true⟩)

namespace Repository

variable (R : Repository ι φ ρ ν)

/-- The repositories whose second lookup stays in the transaction of the insert. What they look up
and show changes neither with the clock nor with their own inserts. -/
structure RecoversInside : Prop where
  conflict : R.conflict = none
  created : ∀ found db r, R.created found (R.insert r db) r = R.toView db r
  owner : ∀ c found n draw t, DocumentRow.enterpriseId (R.row c found n draw t) = c.enterpriseId
  key : ∀ c found n draw t, DocumentRow.idempotencyKey (R.row c found n draw t) = c.idempotencyKey
  table_tick : ∀ db t, R.table { db with now := t } = R.table db
  lookup_tick : ∀ e input lookup, lookup ∈ R.lookups e input → ∀ found db t,
    lookup found { db with now := t } = lookup found db
  lookup_commit : ∀ e input lookup, lookup ∈ R.lookups e input → ∀ found db e' r n,
    lookup found (R.commit e' r n db) = lookup found db
  view_tick : ∀ db t r, R.toView { db with now := t } r = R.toView db r
  view_commit : ∀ db e r' n r, R.toView (R.commit e r' n db) r = R.toView db r

/-- `n` calls with one enterprise, one key that is not in use, and inputs that can be created. -/
structure SameKey (e : Uuid) (k : String) (n : Nat) (P₀ : CreatePool ι φ ρ ν) : Prop where
  key : k ≠ ""
  calls : ∀ pid < n, ∃ input found, P₀.threads pid = some (⟨e, input, some k⟩, .checking) ∧
    R.precheck input = none ∧ R.gather e input P₀.shared.db = .ok found
  others : ∀ pid, n ≤ pid → P₀.threads pid = none
  unused : R.findFirst P₀.shared.db e k = none

/-- No statement fails by itself, and only the clock moves outside the calls. -/
def Undisturbed (_ : CreatePool ι φ ρ ν) : Act Input (Elsewhere R) → Prop
  | .run _ i => ∃ draw, i = .proceed draw
  | .env x => ∃ t, ∀ db, x.apply db = { db with now := t }

/-- No insert meets a unique index that holds its entry. -/
def InsertAccepted (P : CreatePool ι φ ρ ν) : Act Input (Elsewhere R) → Prop
  | .run pid (.proceed draw) => ∀ c found sequence,
      P.threads pid = some (c, .inserting found sequence) →
      R.refuses P.shared.db (R.row c found sequence draw P.shared.db.now) = false
  | _ => True

/-- No call has failed, and once all are over one of them has created the document and all the
others have answered with it. -/
structure OneWinner (e : Uuid) (k : String) (n : Nat) (P : CreatePool ι φ ρ ν) : Prop where
  noFailure : ∀ pid error, CreateCall.answer (P.threads pid) ≠ some (.error error)
  winner : (∀ pid < n, (CreateCall.answer (P.threads pid)).isSome) →
    ∃ row, R.findFirst P.shared.db e k = some row ∧ ∃ w < n,
      CreateCall.answer (P.threads w) = some (.ok ⟨R.toView P.shared.db row, true⟩) ∧
      ∀ pid < n, pid ≠ w →
        CreateCall.answer (P.threads pid) = some (.ok ⟨R.toView P.shared.db row, false⟩)

variable {R} {e : Uuid} {k : String} {db : Db} {s s' : ErpStore} {pid : Nat}

/-! ## The table after an insert -/

/-- A row with the entry the lookup is about. -/
def Matches (e : Uuid) (k : String) (r : ρ) : Prop :=
  DocumentRow.enterpriseId r = e ∧ DocumentRow.idempotencyKey r = some k

theorem accepted_key {r : ρ} (h : R.refuses db r = false) (hr : Matches e k r) :
    R.findFirst db e k = none := by
  unfold findFirst
  rw [List.find?_eq_none]
  intro x hx hmatch
  have hsame : sameEntry x r = false := refuses_eq_false.1 h x hx
  obtain ⟨howner, hkey⟩ := of_decide_eq_true hmatch
  simp [sameEntry, howner, hkey, hr.1, hr.2] at hsame

theorem findFirst_commit {r : ρ} (hr : Matches e k r) (hid : (R.table db).find? (Keyed.key r) = none)
    (hnone : R.findFirst db e k = none) (e' : Uuid) (n : Nat) :
    R.findFirst (R.commit e' r n db) e k = some r := by
  unfold findFirst at hnone ⊢
  rw [table_commit, Table.rows_insert hid, List.find?_append, hnone]
  simp [hr.1, hr.2]

/-! ## What holds between two statements -/

theorem foldlM_unread {db' : Db} {rest : List (φ → Db → Except ApiError φ)}
    (h : ∀ lookup ∈ rest, ∀ found, lookup found db' = lookup found db) (found : φ) :
    rest.foldlM (fun found lookup => lookup found db') found =
      rest.foldlM (fun found lookup => lookup found db) found := by
  induction rest generalizing found with
  | nil => rfl
  | cons lookup rest ih =>
    simp only [List.foldlM_cons]
    rw [h lookup List.mem_cons_self]
    exact bind_congr fun found' => ih (fun l hl => h l (List.mem_cons_of_mem _ hl)) found'

/-- What holds of a call at each of its points. -/
def At (R : Repository ι φ ρ ν) (e : Uuid) (k : String) (c : Create ι) (pid : Nat) (s : ErpStore) :
    CreateState φ ρ ν → Prop
  | .checking | .numbering _ | .inserting _ _ => True
  | .reading found rest => (∀ lookup ∈ rest, lookup ∈ R.lookups e c.input) ∧
      ∃ last, rest.foldlM (fun found lookup => lookup found s.db) found = .ok last
  | .committing row _ view => s.lock (.key R.collection e k) = some pid ∧
      R.findFirst s.db e k = none ∧ (R.table s.db).find? (Keyed.key row) = none ∧
      Matches e k row ∧ view = R.toView s.db row
  | .finished r => ∃ row created, R.findFirst s.db e k = some row ∧
      r = .ok ⟨R.toView s.db row, created⟩
  | .recovering | .recoveringByKey _ | .recoveringBySale _ => False

def Holds (R : Repository ι φ ρ ν) (e : Uuid) (k : String) (pid : Nat) (call : CreateCall ι φ ρ ν)
    (s : ErpStore) : Prop :=
  match call with
  | none => True
  | some (c, st) => c.enterpriseId = e ∧ c.idempotencyKey = some k ∧ R.precheck c.input = none ∧
      (∃ found, R.gather e c.input s.db = .ok found) ∧ R.At e k c pid s st

/-- A step leaves the database as it is, or it commits the only row with the key. -/
def Creates (R : Repository ι φ ρ ν) (e : Uuid) (k : String) (pid : Nat) (s s' : ErpStore) : Prop :=
  LocksKept pid s s' ∧ (s'.db = s.db ∨
    s.lock (.key R.collection e k) = some pid ∧ R.findFirst s.db e k = none ∧
      ∃ e' r n, s'.db = R.commit e' r n s.db)

theorem Creates.of_db (hl : LocksKept pid s s') (h : s'.db = s.db) : R.Creates e k pid s s' :=
  ⟨hl, .inl h⟩

/-- A change of the database that the lookups of no call see. -/
def Unread (R : Repository ι φ ρ ν) (db db' : Db) : Prop :=
  ∀ e input lookup, lookup ∈ R.lookups e input → ∀ found, lookup found db' = lookup found db

theorem gather_unread {db' : Db} (h : R.Unread db db') (e : Uuid) (input : ι) :
    R.gather e input db' = R.gather e input db :=
  foldlM_unread (fun lookup hl found => h e input lookup hl found) R.start

theorem Creates.unread (H : R.RecoversInside) (h : R.Creates e k pid s s') :
    R.Unread s.db s'.db := by
  rcases h.2 with hdb | ⟨-, -, e', r, n, hdb⟩
  · intro e' input lookup _ found
    rw [hdb]
  · intro e'' input lookup hl found
    rw [hdb]
    exact H.lookup_commit _ _ _ hl found s.db e' r n

theorem At.reading {c : Create ι} {found : φ} {rest : List (φ → Db → Except ApiError φ)}
    (hread : R.Unread s.db s'.db) (h : R.At e k c pid s (.reading found rest)) :
    R.At e k c pid s' (.reading found rest) := by
  obtain ⟨hmem, last, hlast⟩ := h
  refine ⟨hmem, last, ?_⟩
  rw [← hlast]
  exact foldlM_unread (fun lookup hl found => hread _ _ lookup (hmem lookup hl) found) found

/-- A change that leaves the table, what the lookups see and the views alone. -/
theorem At.of_unread {c : Create ι} {st : CreateState φ ρ ν} (hread : R.Unread s.db s'.db)
    (htable : R.table s'.db = R.table s.db) (hview : ∀ r, R.toView s'.db r = R.toView s.db r)
    (hlock : s.lock (.key R.collection e k) = some pid →
      s'.lock (.key R.collection e k) = some pid)
    (h : R.At e k c pid s st) : R.At e k c pid s' st := by
  have hfirst : R.findFirst s'.db e k = R.findFirst s.db e k := by
    unfold findFirst
    rw [htable]
  cases st with
  | reading found rest => exact At.reading hread h
  | committing row n view =>
    obtain ⟨hl, hnone, hid, hmatch, rfl⟩ := h
    exact ⟨hlock hl, hfirst.trans hnone, by rw [htable]; exact hid, hmatch, (hview row).symm⟩
  | finished r =>
    obtain ⟨row, created, hrow, rfl⟩ := h
    exact ⟨row, created, hfirst.trans hrow, by rw [hview]⟩
  | _ => exact h

/-! ## One step -/

theorem insertingStep (H : R.RecoversInside) {c : Create ι} {found : φ} {n : Nat} {draw : Draw}
    {st' : CreateState φ ρ ν} (he : c.enterpriseId = e) (hkey : c.idempotencyKey = some k)
    (haccepted : R.refuses s.db (R.row c found n draw s.db.now) = false)
    (hst : R.step c pid draw s (.inserting found n) = some (s', st')) :
    R.At e k c pid s' st' ∧ R.Creates e k pid s s' := by
  have hmatch : Matches e k (R.row c found n draw s.db.now) :=
    ⟨(H.owner ..).trans he, (H.key ..).trans hkey⟩
  simp only [step] at hst
  split at hst
  · rename_i hfree
    rw [haccepted] at hst
    simp only [Bool.false_eq_true, if_false, Option.some.injEq, Prod.mk.injEq] at hst
    obtain ⟨rfl, rfl⟩ := hst
    have hheld : (R.locks (R.row c found n draw s.db.now)).contains (.key R.collection e k) := by
      simp [locks, hmatch.1, hmatch.2]
    refine ⟨⟨?_, accepted_key haccepted hmatch, accepted_id haccepted, hmatch, ?_⟩, ?_⟩
    · simp only [Store.acquireAll, hheld, if_true]
    · exact H.created found s.db _
    · refine .of_db (locksKept_acquireAll fun lock hlock => ?_) rfl
      exact List.all_eq_true.1 hfree lock (by simpa using hlock)
  · cases hst

theorem step_at (H : R.RecoversInside) (hk : k ≠ "") {c : Create ι} {draw : Draw}
    {st st' : CreateState φ ρ ν} (he : c.enterpriseId = e) (hkey : c.idempotencyKey = some k)
    (hpre : R.precheck c.input = none) (hgather : ∃ found, R.gather e c.input s.db = .ok found)
    (haccepted : ∀ found n, st = .inserting found n →
      R.refuses s.db (R.row c found n draw s.db.now) = false)
    (hat : R.At e k c pid s st) (hst : R.step c pid draw s st = some (s', st')) :
    R.At e k c pid s' st' ∧ R.Creates e k pid s s' := by
  have htruthy : truthy c.idempotencyKey = some k := by
    rw [hkey]
    simp [Stock.truthy, hk]
  cases st with
  | checking =>
    simp only [step, hpre, htruthy, he, Option.bind_some] at hst
    split at hst
    · rename_i existing hfound
      cases hst
      exact ⟨⟨existing, false, hfound, rfl⟩, .of_db (.of_eq rfl) rfl⟩
    · cases hst
      exact ⟨⟨fun _ hl => hl, hgather⟩, .of_db (.of_eq rfl) rfl⟩
  | reading found rest =>
    cases rest with
    | nil =>
      simp only [step] at hst
      cases hst
      refine ⟨?_, .of_db (.of_eq rfl) rfl⟩
      split <;> trivial
    | cons lookup rest =>
      obtain ⟨hmem, last, hlast⟩ := hat
      rw [List.foldlM_cons] at hlast
      simp only [step] at hst
      split at hst
      · rename_i error herror
        rw [herror] at hlast
        cases hlast
      · rename_i next hnext
        rw [hnext] at hlast
        cases hst
        exact ⟨⟨fun l hl => hmem l (List.mem_cons_of_mem _ hl), last, hlast⟩,
          .of_db (.of_eq rfl) rfl⟩
  | numbering found =>
    simp only [step] at hst
    split at hst
    · cases hst
      exact ⟨trivial, .of_db (.of_eq rfl) rfl⟩
    · split at hst
      · rename_i hfree
        cases hst
        exact ⟨trivial, .of_db (locksKept_acquire hfree) rfl⟩
      · cases hst
  | inserting found n => exact insertingStep H he hkey (haccepted found n rfl) hst
  | committing row n view =>
    obtain ⟨hl, hnone, hid, hmatch, rfl⟩ := hat
    simp only [step] at hst
    cases hst
    refine ⟨⟨row, true, ?_, ?_⟩, locksKept_commit, .inr ⟨hl, hnone, _, row, n, rfl⟩⟩
    · exact findFirst_commit hmatch hid hnone _ n
    · rw [commit_db, H.view_commit]
  | finished r => cases hst
  | recovering => exact hat.elim
  | recoveringByKey error => exact hat.elim
  | recoveringBySale error => exact hat.elim

/-- What a call knows survives the steps of the others. -/
theorem Holds.stable (H : R.RecoversInside) {call : CreateCall ι φ ρ ν} {pid' : Nat}
    (hne : pid ≠ pid') (hstep : R.Creates e k pid s s') (h : R.Holds e k pid' call s) :
    R.Holds e k pid' call s' := by
  cases call with
  | none => trivial
  | some call =>
    obtain ⟨c, st⟩ := call
    obtain ⟨he, hkey, hpre, ⟨found, hgather⟩, hat⟩ := h
    refine ⟨he, hkey, hpre, ⟨found, (gather_unread (hstep.unread H) ..).trans hgather⟩, ?_⟩
    have hlock := hstep.1 (.key R.collection e k) pid' (Ne.symm hne)
    rcases hstep.2 with hdb | ⟨hheld, hnone, e', r, n, hdb⟩
    · exact hat.of_unread (hstep.unread H) (by rw [hdb]) (fun r => by rw [hdb]) hlock.2
    · -- whoever commits holds the key, which has no row yet
      cases st with
      | reading found rest => exact hat.reading (hstep.unread H)
      | committing row n view =>
        rw [hat.1] at hheld
        exact absurd (Option.some.inj hheld).symm hne
      | finished r =>
        obtain ⟨row, created, hrow, -⟩ := hat
        rw [hnone] at hrow
        cases hrow
      | _ => exact hat

/-- Only a commit changes the database or creates. -/
theorem thread_cases {call t : CreateCall ι φ ρ ν} {i : Input}
    (hst : R.thread pid i s call = some (s', t)) :
    (∃ c row sequence view, call = some (c, .committing row sequence view) ∧
      CreateCall.Created t) ∨ s'.db = s.db ∧ ¬ CreateCall.Created t := by
  obtain ⟨c, st, st', rfl, rfl, heffect⟩ := thread_effect hst
  cases heffect with
  | silent _ _ hdb _ hidle =>
    refine .inr ⟨hdb, fun ⟨view, hview⟩ => ?_⟩
    cases st' with
    | finished r =>
      cases hview
      cases hidle
    | _ => cases hview
  | unnumbered => exact .inr ⟨rfl, fun ⟨_, hview⟩ => by cases hview⟩
  | numbered => exact .inr ⟨rfl, fun ⟨_, hview⟩ => by cases hview⟩
  | inserted => exact .inr ⟨rfl, fun ⟨_, hview⟩ => by cases hview⟩
  | committed row sequence view stmt =>
    subst stmt
    exact .inl ⟨c, row, sequence, view, rfl, view, rfl⟩

/-! ## Runs -/

/-- The steps of the runs with one winner. -/
def Accepted (R : Repository ι φ ρ ν) (P : CreatePool ι φ ρ ν) (a : Act Input (Elsewhere R)) :
    Prop := R.Undisturbed P a ∧ R.InsertAccepted P a

theorem outline (H : R.RecoversInside) (e : Uuid) (hk : k ≠ "") :
    Outline R.creates R.Accepted (fun _ => True) (R.Holds e k) (R.Creates e k) where
  own P pid i s t hK _ hQ hst := by
    obtain ⟨⟨draw, rfl⟩, haccepted⟩ := hK
    revert hQ hst
    cases hcall : P.threads pid with
    | none => intro _ hst; cases hst
    | some call =>
      obtain ⟨c, st⟩ := call
      rintro ⟨he, hkey, hpre, ⟨found, hgather⟩, hat⟩ hst
      obtain ⟨⟨s', st'⟩, hstep, hres⟩ := Option.map_eq_some_iff.1 hst
      cases hres
      have hown := step_at H hk he hkey hpre ⟨found, hgather⟩
        (fun found n hst => haccepted c found n (hst ▸ hcall)) hat hstep
      exact ⟨trivial, ⟨he, hkey, hpre,
        ⟨found, (gather_unread (hown.2.unread H) ..).trans hgather⟩, hown.1⟩, hown.2⟩
  stable _ _ _ _ _ hne _ _ hG hQ := hQ.stable H hne hG
  env P x hK _ := by
    obtain ⟨⟨t, ht⟩, -⟩ := hK
    refine ⟨trivial, fun pid call hQ => ?_⟩
    cases call with
    | none => trivial
    | some call =>
      obtain ⟨c, st⟩ := call
      obtain ⟨he, hkey, hpre, ⟨found, hgather⟩, hat⟩ := hQ
      have hdb : (R.creates.env x P.shared).db = { P.shared.db with now := t } := ht P.shared.db
      have hread : R.Unread P.shared.db (R.creates.env x P.shared).db := by
        intro e' input lookup hl found'
        rw [hdb]
        exact H.lookup_tick _ _ _ hl found' P.shared.db t
      refine ⟨he, hkey, hpre, ⟨found, (gather_unread hread ..).trans hgather⟩, ?_⟩
      refine hat.of_unread hread ?_ (fun r => ?_) id
      · rw [hdb, H.table_tick]
      · rw [hdb, H.view_tick]

section
variable {P₀ P P' : CreatePool ι φ ρ ν} {n : Nat} {a : Act Input (Elsewhere R)}

theorem SameKey.annotated (h0 : R.SameKey e k n P₀) :
    Annotated (fun _ => True) (R.Holds e k) P₀ := by
  refine ⟨trivial, fun pid => ?_⟩
  by_cases hpid : pid < n
  · obtain ⟨input, found, hcall, hpre, hgather⟩ := h0.calls pid hpid
    rw [hcall]
    exact ⟨rfl, rfl, hpre, ⟨found, hgather⟩, trivial⟩
  · rw [h0.others pid (Nat.le_of_not_lt hpid)]
    trivial

/-- A call that is over stays as it is. -/
theorem answer_kept (hst : R.creates.system.step P a = some P')
    {r : Except ApiError (CreateResult ν)}
    (h : CreateCall.answer (P.threads pid) = some r) :
    CreateCall.answer (P'.threads pid) = some r := by
  rcases Machine.step_thread hst pid with hsame | ⟨i, s, t, -, hth, -, -⟩
  · rw [hsame]
    exact h
  · revert h hth
    cases P.threads pid with
    | none => intro h; cases h
    | some call =>
      obtain ⟨c, st⟩ := call
      cases st with
      | finished r' => intro _ hth; cases i <;> cases hth
      | _ => intro h; cases h

theorem none_kept (hst : R.creates.system.step P a = some P') (h : P.threads pid = none) :
    P'.threads pid = none := by
  rcases Machine.step_thread hst pid with hsame | ⟨i, s, t, -, hth, -, -⟩
  · rw [hsame]
    exact h
  · rw [h] at hth
    cases hth

theorem found_of_answer {r : Except ApiError (CreateResult ν)} {call : CreateCall ι φ ρ ν}
    (hQ : R.Holds e k pid call s) (h : CreateCall.answer call = some r) :
    ∃ row created, R.findFirst s.db e k = some row ∧ r = .ok ⟨R.toView s.db row, created⟩ := by
  cases call with
  | none => cases h
  | some call =>
    obtain ⟨c, st⟩ := call
    cases st with
    | finished r' =>
      cases h
      exact hQ.2.2.2.2
    | _ => cases h

/-- The document has one creator at most. -/
theorem created_unique (H : R.RecoversInside) (h0 : R.SameKey e k n P₀)
    (hr : Reach R.creates.system R.Accepted P₀ P) :
    ∀ i j, CreateCall.Created (P.threads i) → CreateCall.Created (P.threads j) → i = j := by
  refine hr.exclusive CreateCall.Created ?_ ?_
  · rintro i ⟨view, hview⟩
    obtain ⟨row, created, hrow, -⟩ := found_of_answer (h0.annotated.2 i) hview
    rw [h0.unused] at hrow
    cases hrow
  · intro P pid i s t hP _ hth ht
    right
    have hann := (outline H e h0.key).sound h0.annotated hP
    obtain ⟨c, row, sequence, view, hcall, -⟩ := (thread_cases hth).resolve_right fun h => h.2 ht
    have hQ := hann.2 pid
    rw [hcall] at hQ
    have hnone : R.findFirst P.shared.db e k = none := hQ.2.2.2.2.2.1
    rintro j ⟨view', hview'⟩
    obtain ⟨row', created, hrow', -⟩ := found_of_answer (hann.2 j) hview'
    rw [hnone] at hrow'
    cases hrow'

/-- The document has a creator. -/
theorem created_exists (H : R.RecoversInside) (h0 : R.SameKey e k n P₀)
    (hr : Reach R.creates.system R.Accepted P₀ P) {row : ρ}
    (hrow : R.findFirst P.shared.db e k = some row) :
    ∃ w, CreateCall.Created (P.threads w) := by
  refine hr.inv (fun P => ∀ row, R.findFirst P.shared.db e k = some row →
    ∃ w, CreateCall.Created (P.threads w)) ?_ ?_ row hrow
  · intro row hrow
    rw [h0.unused] at hrow
    cases hrow
  · intro P a P' hP ih hK hst row hrow
    by_cases hold : R.findFirst P.shared.db e k = none
    · cases a with
      | env x =>
        obtain ⟨⟨t, ht⟩, -⟩ := hK
        obtain rfl := Machine.env_eq_some.1 hst
        have hdb : (R.creates.env x P.shared).db = { P.shared.db with now := t } := ht P.shared.db
        simp only [hdb, findFirst, H.table_tick] at hrow
        rw [findFirst] at hold
        rw [hold] at hrow
        cases hrow
      | run pid i =>
        obtain ⟨s, t, hth, rfl⟩ := Machine.run_eq_some.1 hst
        rcases thread_cases hth with ⟨-, -, -, -, -, ht⟩ | ⟨hdb, -⟩
        · exact ⟨pid, by simpa using ht⟩
        · rw [findFirst, hdb] at hrow
          rw [findFirst] at hold
          rw [hold] at hrow
          cases hrow
    · obtain ⟨row', hrow'⟩ := Option.ne_none_iff_exists'.1 hold
      obtain ⟨w, view, hview⟩ := ih row' hrow'
      exact ⟨w, view, answer_kept hst hview⟩

/-- In the runs without a refused insert there is one winner. -/
theorem one_winner (H : R.RecoversInside) (hn : 0 < n) (h0 : R.SameKey e k n P₀)
    (hr : Reach R.creates.system R.Accepted P₀ P) : R.OneWinner e k n P := by
  have hann := (outline H e h0.key).sound h0.annotated hr
  have hidle : ∀ pid, n ≤ pid → P.threads pid = none := by
    intro pid hpid
    exact hr.inv (fun P => P.threads pid = none) (h0.others pid hpid)
      fun _ _ _ _ ih _ hst => none_kept hst ih
  refine ⟨fun pid error herror => ?_, fun hover => ?_⟩
  · obtain ⟨row, created, -, hok⟩ := found_of_answer (hann.2 pid) herror
    cases hok
  · obtain ⟨r₀, hr₀⟩ := Option.isSome_iff_exists.1 (hover 0 hn)
    obtain ⟨row, -, hrow, -⟩ := found_of_answer (hann.2 0) hr₀
    have answered : ∀ pid r, CreateCall.answer (P.threads pid) = some r →
        ∃ created, r = .ok ⟨R.toView P.shared.db row, created⟩ := by
      intro pid r hpid
      obtain ⟨row', created, hrow', hok⟩ := found_of_answer (hann.2 pid) hpid
      rw [hrow] at hrow'
      cases hrow'
      exact ⟨created, hok⟩
    obtain ⟨w, view, hw⟩ := created_exists H h0 hr hrow
    obtain ⟨created, hview⟩ := answered w _ hw
    cases hview
    refine ⟨row, hrow, w, ?_, hw, fun pid hpid hne => ?_⟩
    · by_contra hwn
      rw [hidle w (Nat.le_of_not_lt hwn)] at hw
      cases hw
    · obtain ⟨r, hpid'⟩ := Option.isSome_iff_exists.1 (hover pid hpid)
      obtain ⟨created, rfl⟩ := answered pid r hpid'
      cases created with
      | false => exact hpid'
      | true => exact absurd (created_unique H h0 hr pid w ⟨_, hpid'⟩ ⟨_, hw⟩) hne

/-- A refused insert is the end of its call: the second lookup cannot succeed. -/
theorem refused_fails (H : R.RecoversInside) {c : Create ι} {found : φ} {sequence : Nat}
    {draw : Draw} {P'' : CreatePool ι φ ρ ν} {r : Except ApiError (CreateResult ν)}
    (hcall : P.threads pid = some (c, .inserting found sequence))
    (hrefused : R.refuses P.shared.db (R.row c found sequence draw P.shared.db.now) = true)
    (hst : R.creates.system.step P (.run pid (.proceed draw)) = some P')
    (hr : Reach R.creates.system Always P' P'')
    (hanswer : CreateCall.answer (P''.threads pid) = some r) : ∃ error, r = .error error := by
  have hlost : ∀ P'', Reach R.creates.system Always P' P'' →
      P''.threads pid = some (c, .recovering) ∨
        ∃ error, P''.threads pid = some (c, .finished (.error error)) := by
    intro P'' hr
    have thrown : ∀ error, R.thrown c error = .finished (.error error) := by
      intro error
      simp [thrown, H.conflict]
    refine hr.inv (fun P => P.threads pid = some (c, .recovering) ∨
      ∃ error, P.threads pid = some (c, .finished (.error error))) ?_ ?_
    · obtain ⟨s, t, hth, rfl⟩ := Machine.run_eq_some.1 hst
      rw [hcall] at hth
      obtain ⟨⟨s', st'⟩, hstep, hres⟩ := Option.map_eq_some_iff.1 hth
      cases hres
      simp only [step, hrefused, if_true, H.conflict, Option.isNone_none, Bool.true_and] at hstep
      split at hstep
      · split at hstep
        · cases hstep
          exact .inl (by simp)
        · cases hstep
          exact .inr ⟨.prisma .p2002, by simp [thrown]⟩
      · cases hstep
    · intro P a P' _ ih _ hst
      rcases Machine.step_thread hst pid with hsame | ⟨i, s, t, rfl, hth, -, ht⟩
      · rw [hsame]
        exact ih
      · rw [ht]
        right
        rcases ih with hrec | ⟨error, herror⟩
        · rw [hrec] at hth
          cases i with
          | proceed draw =>
            cases hth
            exact ⟨_, rfl⟩
          | fail =>
            cases hth
            exact ⟨_, by rw [thrown]⟩
        · rw [herror] at hth
          cases i <;> cases hth
  rcases hlost P'' hr with hrec | ⟨error, herror⟩
  · rw [hrec] at hanswer
    cases hanswer
  · rw [herror] at hanswer
    cases hanswer
    exact ⟨error, rfl⟩

end

end Repository

/-! ## The three repositories -/

theorem documentRepository_recoversInside (kind : DocKind) (partyMissing : String)
    (unitPrice : DocumentLineInput → Option Product → Int) :
    (documentRepository kind partyMissing unitPrice).RecoversInside where
  conflict := rfl
  created _ db r := by cases kind <;> rfl
  owner _ _ _ _ _ := rfl
  key _ _ _ _ _ := rfl
  table_tick db t := by cases kind <;> rfl
  lookup_tick e input lookup hl found db t := by
    simp only [documentRepository, List.mem_cons, List.not_mem_nil, or_false] at hl
    rcases hl with rfl | rfl <;> cases kind <;> rfl
  lookup_commit e input lookup hl found db e' r n := by
    simp only [documentRepository, List.mem_cons, List.not_mem_nil, or_false] at hl
    rcases hl with rfl | rfl <;> cases kind <;> rfl
  view_tick db t r := by cases kind <;> rfl
  view_commit db e r' n r := by cases kind <;> rfl

theorem journalRepository_recoversInside : journalRepository.RecoversInside where
  conflict := rfl
  created _ _ _ := rfl
  owner _ _ _ _ _ := rfl
  key _ _ _ _ _ := rfl
  table_tick _ _ := rfl
  lookup_tick e input lookup hl found db t := by
    simp only [journalRepository, List.mem_singleton] at hl
    rw [hl]
    rfl
  lookup_commit e input lookup hl found db e' r n := by
    simp only [journalRepository, List.mem_singleton] at hl
    rw [hl]
    rfl
  view_tick _ _ _ := rfl
  view_commit _ _ _ _ _ := rfl

/-- What holds of `n` `create` calls of one repository with one key: one winner as long as no insert
is refused, and a failed call for each insert that is. -/
structure Repository.Idempotent (R : Repository ι φ ρ ν) (e : Uuid) (k : String) (n : Nat) :
    Prop where
  oneWinner : ∀ P₀ P, 0 < n → R.SameKey e k n P₀ → Reach R.creates.system R.Accepted P₀ P →
    R.OneWinner e k n P
  refused : ∀ P₀ P P' P'' pid draw c found sequence, R.SameKey e k n P₀ →
    Reach R.creates.system R.Undisturbed P₀ P →
    P.threads pid = some (c, .inserting found sequence) →
    R.refuses P.shared.db (R.row c found sequence draw P.shared.db.now) = true →
    R.creates.system.step P (.run pid (.proceed draw)) = some P' →
    Reach R.creates.system R.Undisturbed P' P'' →
    ∀ r, CreateCall.answer (P''.threads pid) = some r → ∃ error, r = .error error

theorem Repository.RecoversInside.idempotent {R : Repository ι φ ρ ν} (H : R.RecoversInside)
    (e : Uuid) (k : String) (n : Nat) : R.Idempotent e k n where
  oneWinner _ _ hn h0 hr := Repository.one_winner H hn h0 hr
  refused _ _ _ _ _ _ _ _ _ _ _ hcall hrefused hst hr _ hanswer :=
    Repository.refused_fails H hcall hrefused hst hr.always hanswer

theorem creates_one_winner (e : Uuid) (k : String) (n : Nat) :
    salesRepository.Idempotent e k n ∧ purchasesRepository.Idempotent e k n ∧
      journalRepository.Idempotent e k n :=
  ⟨(documentRepository_recoversInside ..).idempotent e k n,
    (documentRepository_recoversInside ..).idempotent e k n,
    journalRepository_recoversInside.idempotent e k n⟩

/-- One enterprise with a customer and a product. -/
def sampleDb : Db where
  enterprises := Table.empty.insert { id := 1, name := "Teranga" }
  customers := Table.empty.insert
    { id := 2, enterpriseId := 1, name := "Awa", createdAt := 0, updatedAt := 0 }
  products := Table.empty.insert
    { id := 3, enterpriseId := 1, code := "P1", name := "Riz", sellingPriceExcludingTax := 500,
      createdAt := 0, updatedAt := 0 }

def sampleSale : Create DocumentInput where
  enterpriseId := 1
  input := { partyId := 2, lines := [{ productId := 3, quantity := 2, positive := by decide }] }
  idempotencyKey := some "k"

/-- Two replays of one mutation. -/
def replayedSale : CreatePool DocumentInput (List Product) Document DocumentView where
  shared := { db := sampleDb, lock := fun _ => none }
  threads pid := if pid < 2 then some (sampleSale, .checking) else none

theorem replayedSale_sameKey : salesRepository.SameKey 1 "k" 2 replayedSale where
  key := by decide
  calls pid hpid := ⟨sampleSale.input, _, if_pos hpid, rfl, rfl⟩
  others pid hpid := if_neg (Nat.not_lt.2 hpid)
  unused := rfl

/-- No call loses its connection, and nothing else writes. -/
def proceeds : Act Input (Elsewhere salesRepository) → Bool
  | .run _ (.proceed _) => true
  | _ => false

/-- Both calls look the key up before either inserts; the second insert is refused, and the lookup
that should recover from it runs in an aborted transaction. -/
theorem both_insert : ∃ P, salesRepository.SameKey 1 "k" 2 replayedSale ∧
    Reach salesRepository.creates.system salesRepository.Undisturbed replayedSale P ∧
    CreateCall.answer (P.threads 1) = some (.error transactionAborted) ∧
    ¬ salesRepository.OneWinner 1 "k" 2 P := by
  have hrun : (exec salesRepository.creates.system (fun _ a => proceeds a) replayedSale
      (statements 0 5 10 ++ statements 1 4 20 ++ statements 0 1 10 ++ statements 1 2 20)).map
      (fun P => CreateCall.answer (P.threads 1)) = some (some (.error transactionAborted)) := by
    rfl
  obtain ⟨P, hP, hanswer⟩ := Option.map_eq_some_iff.1 hrun
  refine ⟨P, replayedSale_sameKey, Reach.of_exec _ ?_ _ hP, hanswer, fun h => ?_⟩
  · intro P a ha
    cases a with
    | run pid i =>
      cases i with
      | proceed draw => exact ⟨draw, rfl⟩
      | fail => cases ha
    | env x => cases ha
  · exact h.noFailure 1 _ hanswer

end Gescom.Erp
