import Gescom.Stock.Levels

/-!
# The life cycle of documents under concurrency

A confirmation is a compare-and-swap in disguise: its update fails when the row has changed since
its snapshot. A cancellation is not: it reads `DRAFT`, then updates by identifier at READ COMMITTED
(`sales.repository.ts:266`, `purchases.repository.ts:261`). `documents_agree` gives the runs in
which documents and the ledger agree: those where no cancellation updates a document that has been
confirmed since it was read. `confirmed_then_cancelled` is a run outside it.
-/

namespace Gescom.Stock

open ReadCommitted Transition

/-! ## What must hold of a document -/

/-- The quantity of `productId` moved by the confirmation of a document. -/
def Db.moved (db : Db) (key : DocKey) (productId : Uuid) : Int :=
  ((db.movements.filter fun m => m.origin = some key ∧ m.productId = productId).map
    Movement.quantity).sum

/-- The quantity of `productId` on the lines, if it tracked stock at confirmation. -/
def Document.expected (d : Document) (productId : Uuid) : Int :=
  if productId ∈ d.tracked then
    ((d.lines.filter fun l => l.productId = productId).map Line.quantity).sum
  else 0

/-- The dates a status goes with. -/
def Document.DatesOk (d : Document) : Prop :=
  match d.status with
  | .draft => d.confirmedAt = none ∧ d.cancelledAt = none
  | .confirmed => d.cancelledAt = none
  | .cancelled => d.confirmedAt = none

/-- The document and the movements created for it agree. -/
structure Agrees (db : Db) (key : DocKey) (d : Document) : Prop where
  dates : d.DatesOk
  moved : ∀ p, db.moved key p = if d.status = .confirmed then d.expected p else 0
  types : ∀ m ∈ db.movements, m.origin = some key → m.type = key.1.repository.movementType

/-- Every stored document agrees with the ledger. -/
def Db.Agrees (db : Db) : Prop := ∀ key d, db.document? key = some d → Stock.Agrees db key d

/-- Nobody cancels a document that is confirmed by the time of the update. -/
def NoCancelOfConfirmed (P : StockPool) : Act Input Env → Prop
  | .run pid (.proceed _) => ∀ c doc, P.threads pid = .cancel c (.updating doc) →
      ∀ d, P.shared.db.document? c.key = some d → d.status ≠ .confirmed
  | _ => True

/-- In the runs whose steps meet `K`, `CONFIRMED` and `CANCELLED` are terminal and documents agree
with the ledger. -/
structure DocumentsAgree (K : StockPool → Act Input Env → Prop) (P₀ : StockPool) : Prop where
  terminal : ∀ P P' key d, Reach documents.system K P₀ P → Reach documents.system K P P' →
    P.shared.db.document? key = some d → d.status ≠ .draft →
    ∃ d', P'.shared.db.document? key = some d' ∧ d'.status = d.status
  dates : ∀ P key d, Reach documents.system K P₀ P → P.shared.db.document? key = some d →
    ¬ (d.confirmedAt.isSome ∧ d.cancelledAt.isSome)
  moved : ∀ P key d p, Reach documents.system K P₀ P → P.shared.db.document? key = some d →
    P.shared.db.moved key p = if d.status = .confirmed then d.expected p else 0

/-- Where runs start: no call has begun, no lock is held, documents agree with the ledger. -/
structure Starts (P : StockPool) : Prop where
  fresh : ∀ pid, (P.threads pid).Fresh
  unlocked : ∀ k, P.shared.lock k = none
  agrees : P.shared.db.Agrees

/-! ## The guarantee on documents -/

/-- A row is untouched, or replaced by a later version; only a draft changes its status. -/
def RowStep (d d' : Document) : Prop :=
  d' = d ∨ d.version < d'.version ∧ (d.status ≠ .draft → d'.status = d.status)

/-- What a step of `pid` may do to documents: rewrite one while no other transaction holds its
lock. -/
structure DocumentStep (pid : Nat) (s s' : StockStore) : Prop where
  locks : LocksKept pid s s'
  rows : ∀ key d, s.db.document? key = some d →
    ∃ d', s'.db.document? key = some d' ∧
      (d' = d ∨ s.free pid key = true ∧ RowStep d d')

variable {pid pid' : Nat} {s s' : StockStore} {c : Call} {key : DocKey}

theorem DocumentStep.of_documents (hl : LocksKept pid s s')
    (hd : s'.db.documents = s.db.documents) : DocumentStep pid s s' :=
  ⟨hl, fun _ d h => ⟨d, by rw [Db.document?, hd]; exact h, .inl rfl⟩⟩

theorem DocumentStep.locked (h : DocumentStep pid s s') (hne : pid ≠ pid')
    (hl : s.lock key = some pid') {d : Document} (hd : s.db.document? key = some d) :
    s'.db.document? key = some d := by
  obtain ⟨d', hd', rfl | ⟨hfree, -⟩⟩ := h.rows key d hd
  · exact hd'
  · rw [not_free hl hne] at hfree
    simp at hfree

/-! ## The assertions of the statements -/

/-- `doc` was read in a snapshot: the row is still the same, or it has a later version. -/
def Seen (c : Call) (doc : Document) (s : StockStore) : Prop :=
  ∃ d, s.db.document? c.key = some d ∧ (d = doc ∨ doc.version < d.version)

/-- What the loop over the lines has inserted so far, `rest` lines before its end. -/
structure Attempt.Inserted (a : Attempt) (c : Call) (rest : List Line) : Prop where
  draft : a.doc.status = .draft
  products : a.view.products = a.snapshot.products
  view : a.view.movements = a.snapshot.movements ++ a.created
  origin : ∀ m ∈ a.created, m.origin = some c.key ∧ m.type = c.repository.movementType
  lines : ∃ done, a.doc.lines = done ++ rest ∧ ∀ p,
    ((a.created.filter fun m => m.productId = p).map Movement.quantity).sum =
      if a.snapshot.tracks p then ((done.filter fun l => l.productId = p).map Line.quantity).sum
        else 0

/-- The transaction holds the lock of the row, which is still `d`. -/
structure Holds (pid : Nat) (c : Call) (d : Document) (s : StockStore) : Prop where
  locked : s.lock c.key = some pid
  row : s.db.document? c.key = some d

def StockCall.Asserts (pid : Nat) (call : StockCall) (s : StockStore) : Prop :=
  match call with
  | confirm c (.moving a rest) => Seen c a.doc s ∧ a.Inserted c rest
  | confirm c (.updating a) => Seen c a.doc s ∧ a.Inserted c []
  | confirm c (.committing a _) => Holds pid c a.doc s ∧ a.Inserted c []
  | cancel c (.committing _) => ∃ d, Holds pid c d s ∧ d.status ≠ .confirmed
  | _ => True

theorem Seen.stable {doc : Document} (h : Seen c doc s) (hg : DocumentStep pid s s') :
    Seen c doc s' := by
  obtain ⟨d, hd, hseen⟩ := h
  obtain ⟨d', hd', hstep⟩ := hg.rows c.key d hd
  refine ⟨d', hd', ?_⟩
  rcases hstep with rfl | ⟨-, rfl | ⟨hlt, -⟩⟩
  · exact hseen
  · exact hseen
  · rcases hseen with rfl | hlater
    · exact .inr hlt
    · exact .inr (hlater.trans hlt)

theorem Holds.stable {d : Document} (h : Holds pid' c d s) (hne : pid ≠ pid')
    (hg : DocumentStep pid s s') : Holds pid' c d s' :=
  ⟨(hg.locks _ _ (Ne.symm hne)).2 h.locked, hg.locked hne h.locked h.row⟩

theorem StockCall.Asserts.stable {call : StockCall} (h : call.Asserts pid' s) (hne : pid ≠ pid')
    (hg : DocumentStep pid s s') : call.Asserts pid' s' := by
  cases call with
  | confirm c st =>
    cases st with
    | moving a rest => exact ⟨h.1.stable hg, h.2⟩
    | updating a => exact ⟨h.1.stable hg, h.2⟩
    | committing a t => exact ⟨h.1.stable hne hg, h.2⟩
    | _ => trivial
  | cancel c st =>
    cases st with
    | committing t =>
      obtain ⟨d, hd, hst⟩ := h
      exact ⟨d, hd.stable hne hg, hst⟩
    | _ => trivial
  | thrown => trivial

/-! ## One line of a confirmation -/

/-- A confirmed line inserts its movement if the product tracks stock, and nothing else. -/
theorem confirmLine_inserts {r : DocumentRepository} {enterpriseId id fresh : Uuid} {line : Line}
    {db db' : Db} (h : r.confirmLine enterpriseId id fresh line db = .ok db') :
    db'.products = db.products ∧ ∃ new : List Movement, db'.movements = db.movements ++ new ∧
      (∀ m ∈ new, m.origin = some (r.kind, id) ∧ m.type = r.movementType) ∧
      ∀ p, ((new.filter fun m => m.productId = p).map Movement.quantity).sum =
        if db.tracks p then (([line].filter fun l => l.productId = p).map Line.quantity).sum
          else 0 := by
  unfold DocumentRepository.confirmLine at h
  split at h
  · rename_i htracks
    split at h <;> cases h
    rename_i res hres
    rcases applyMovement_ok hres with hc | hrep
    · obtain ⟨-, hprod, htype, hq, horigin⟩ := hc.movement
      rw [hc.appended]
      refine ⟨rfl, [res.movement], rfl, ?_, fun p => ?_⟩
      · intro m hm
        obtain rfl := List.mem_singleton.1 hm
        exact ⟨horigin, htype⟩
      · have hline : res.movement.productId = line.productId := hprod
        have hquant : res.movement.quantity = line.quantity := hq
        by_cases hp : line.productId = p
        · subst hp
          simp [hline, hquant, htracks]
        · simp [hline, hp]
    · have := hrep.keyed
      simp [truthy] at this
  · rename_i htracks
    cases h
    refine ⟨rfl, [], by simp, by simp, fun p => ?_⟩
    by_cases hp : line.productId = p
    · subst hp
      simp [htracks]
    · simp [hp]

theorem tracks_of_products {db db' : Db} (h : db'.products = db.products) :
    db'.tracks = db.tracks := by
  funext p
  rw [Db.tracks, h]
  rfl

theorem Attempt.Inserted.line {a : Attempt} {fresh : Uuid} {line : Line} {rest : List Line}
    {view : Db} (h : a.Inserted c (line :: rest))
    (hstep : c.repository.confirmLine c.enterpriseId c.id fresh line a.view = .ok view) :
    ({ a with view } : Attempt).Inserted c rest := by
  obtain ⟨hprod, new, hmov, horigin, hsum⟩ := confirmLine_inserts hstep
  have hcreated : ({ a with view } : Attempt).created = a.created ++ new := by
    simp only [Attempt.created]
    rw [hmov, h.view, List.append_assoc, List.drop_left, List.drop_left]
  obtain ⟨done, hlines, hdone⟩ := h.lines
  refine ⟨h.draft, hprod.trans h.products, ?_, ?_, done ++ [line], by simp [hlines], fun p => ?_⟩
  · rw [hcreated, hmov, h.view, List.append_assoc]
  · intro m hm
    rw [hcreated] at hm
    rcases List.mem_append.1 hm with hold | hnew
    · exact h.origin m hold
    · have := horigin m hnew
      simpa [Call.key, Call.repository] using this
  · rw [hcreated, List.filter_append, List.map_append, List.sum_append, hdone p, hsum p,
      tracks_of_products h.products, List.filter_append, List.map_append, List.sum_append]
    split
    · rfl
    · rfl

/-! ## Calls keep their assertions -/

theorem getOrThrow_ok {db : Db} {d : Document}
    (h : c.repository.getOrThrow db c.enterpriseId c.id = .ok d) : db.document? c.key = some d := by
  unfold DocumentRepository.getOrThrow at h
  split at h
  · cases h
  · rename_i d' hd'
    split at h <;> cases h
    simpa [Db.document?, Call.key, Call.repository] using hd'

theorem afterSerializationFailure_asserts (n : Nat) :
    (StockCall.confirm c (afterSerializationFailure n)).Asserts pid s := by
  unfold afterSerializationFailure
  split <;> trivial

theorem confirm_asserts_step {st st' : ConfirmState} {fresh : Uuid}
    (hA : (StockCall.confirm c st).Asserts pid s)
    (h : st.step c pid fresh s = some (s', st')) : (StockCall.confirm c st').Asserts pid s' := by
  cases st with
  | starting n =>
    simp only [ConfirmState.step] at h
    split at h
    · cases h; trivial
    · rename_i doc hdoc
      split at h <;> cases h
      · trivial
      · rename_i hdraft
        refine ⟨⟨doc, getOrThrow_ok hdoc, .inl rfl⟩, not_not.1 hdraft, rfl, ?_, ?_, [], rfl,
          fun p => ?_⟩
        all_goals simp [Attempt.created]
  | moving a rest =>
    cases rest with
    | nil =>
      cases h
      exact hA
    | cons line rest =>
      simp only [ConfirmState.step] at h
      split at h <;> cases h
      · rename_i hline
        exact ⟨hA.1, hA.2.line hline⟩
      · trivial
  | updating a =>
    simp only [ConfirmState.step] at h
    split at h
    · split at h
      · cases h; trivial
      · rename_i row hrow
        split at h <;> cases h
        · exact afterSerializationFailure_asserts _
        · rename_i hversion
          obtain ⟨⟨d, hd, hseen⟩, hins⟩ := hA
          obtain rfl := Option.some.inj (hrow.symm.trans hd)
          -- same version: nobody has written the row since the snapshot
          have hsame : row = a.doc := hseen.resolve_right fun hlt => hversion (by omega)
          exact ⟨⟨acquire_lock_self, hsame ▸ hrow⟩, hins⟩
    · cases h
  | committing a t => cases h; trivial
  | finished r => cases h

theorem cancel_asserts_step {st st' : CancelState} (hA : (StockCall.cancel c st).Asserts pid s)
    (hK : ∀ doc, st = .updating doc → ∀ d, s.db.document? c.key = some d → d.status ≠ .confirmed)
    (h : st.step c pid s = some (s', st')) : (StockCall.cancel c st').Asserts pid s' := by
  cases st with
  | reading =>
    simp only [CancelState.step] at h
    split at h
    · cases h; trivial
    · split at h <;> cases h <;> trivial
  | updating doc =>
    simp only [CancelState.step] at h
    split at h
    · split at h <;> cases h
      · trivial
      · rename_i d hd
        exact ⟨d, ⟨acquire_lock_self, hd⟩, hK doc rfl d hd⟩
    · cases h
  | committing t => cases h; trivial
  | finished r => cases h

theorem asserts_step {P : StockPool} {i : Input} {call' : StockCall}
    (hK : NoCancelOfConfirmed P (.run pid i)) (hA : (P.threads pid).Asserts pid P.shared)
    (h : documents.thread pid i P.shared (P.threads pid) = some (s', call')) :
    call'.Asserts pid s' := by
  cases hc : P.threads pid with
  | confirm c st =>
    rw [hc] at h hA
    cases i with
    | proceed fresh =>
      simp only [documents, StockCall.step, Option.map_eq_some_iff, Prod.exists, Prod.map, id] at h
      obtain ⟨_, st', hst, he⟩ := h
      cases he
      exact confirm_asserts_step hA hst
    | abort =>
      simp only [documents, StockCall.step, Option.map_eq_some_iff] at h
      obtain ⟨st', hst, he⟩ := h
      cases he
      cases st <;> cases hst <;> exact afterSerializationFailure_asserts _
    | fail =>
      simp only [documents, StockCall.step] at h
      split at h <;> cases h
      trivial
  | cancel c st =>
    rw [hc] at h hA
    cases i with
    | proceed fresh =>
      simp only [documents, StockCall.step, Option.map_eq_some_iff, Prod.exists, Prod.map, id] at h
      obtain ⟨_, st', hst, he⟩ := h
      cases he
      refine cancel_asserts_step hA ?_ hst
      rintro doc rfl
      exact hK c doc hc
    | _ =>
      simp only [documents, StockCall.step] at h
      split at h <;> cases h
      trivial
  | thrown =>
    rw [hc] at h
    cases h

/-! ## What a statement does to the store -/

/-- The two commits, or nothing but locks. -/
inductive Effect (pid : Nat) (s : StockStore) (call : StockCall) : StockStore → Prop
  | quiet {s' : StockStore} (locks : LocksKept pid s s') (db : s'.db = s.db) : Effect pid s call s'
  | confirm (c : Call) (a : Attempt) (t : Instant) (stmt : call = .confirm c (.committing a t)) :
      Effect pid s call (s.commit pid (Db.commitConfirm a c t))
  | cancel (c : Call) (t : Instant) (stmt : call = .cancel c (.committing t)) :
      Effect pid s call (s.commit pid (Db.commitCancel c t))

theorem Effect.refl {call : StockCall} : Effect pid s call s := .quiet (.of_eq rfl) rfl

theorem Effect.release {call : StockCall} : Effect pid s call (s.release pid) :=
  .quiet locksKept_release rfl

theorem step_effect {i : Input} {call call' : StockCall}
    (h : documents.thread pid i s call = some (s', call')) : Effect pid s call s' := by
  cases call with
  | confirm c st =>
    cases i with
    | proceed fresh =>
      simp only [documents, StockCall.step, Option.map_eq_some_iff, Prod.exists, Prod.map, id] at h
      obtain ⟨_, st', hst, he⟩ := h
      cases he
      cases st with
      | starting n =>
        simp only [ConfirmState.step] at hst
        split at hst
        · cases hst; exact .refl
        · split at hst <;> cases hst <;> exact .refl
      | moving a rest =>
        cases rest with
        | nil => cases hst; exact .refl
        | cons line rest =>
          simp only [ConfirmState.step] at hst
          split at hst <;> cases hst <;> exact .refl
      | updating a =>
        simp only [ConfirmState.step] at hst
        split at hst
        · rename_i hfree
          split at hst
          · cases hst; exact .refl
          · split at hst <;> cases hst
            · exact .refl
            · exact .quiet (locksKept_acquire hfree) rfl
        · cases hst
      | committing a t => cases hst; exact .confirm c a t rfl
      | finished r => cases hst
    | abort =>
      simp only [documents, StockCall.step, Option.map_eq_some_iff] at h
      obtain ⟨st', -, he⟩ := h
      cases he
      exact .release
    | fail =>
      simp only [documents, StockCall.step] at h
      split at h <;> cases h
      exact .release
  | cancel c st =>
    cases i with
    | proceed fresh =>
      simp only [documents, StockCall.step, Option.map_eq_some_iff, Prod.exists, Prod.map, id] at h
      obtain ⟨_, st', hst, he⟩ := h
      cases he
      cases st with
      | reading =>
        simp only [CancelState.step] at hst
        split at hst
        · cases hst; exact .refl
        · split at hst <;> cases hst <;> exact .refl
      | updating doc =>
        simp only [CancelState.step] at hst
        split at hst
        · rename_i hfree
          split at hst <;> cases hst
          · exact .refl
          · exact .quiet (locksKept_acquire hfree) rfl
        · cases hst
      | committing t => cases hst; exact .cancel c t rfl
      | finished r => cases hst
    | _ =>
      simp only [documents, StockCall.step] at h
      split at h <;> cases h
      exact .release
  | thrown => cases h

theorem document?_update (db : Db) (c : Call) (f : Document → Document) (hf : ∀ d, (f d).id = d.id)
    (key : DocKey) :
    (db.updateDocument c.kind c.id f hf).document? key =
      if key = c.key then (db.document? c.key).map f else db.document? key := by
  obtain ⟨k, id⟩ := key
  simp only [Db.document?, updateDocument_documents, Call.key, Prod.mk.injEq]
  by_cases hk : k = c.kind
  · subst hk
    simp only [if_true, true_and, Table.find?_update]
  · simp [hk]

theorem document?_commitConfirm (db : Db) (a : Attempt) (c : Call) (t : Instant) (key : DocKey) :
    (db.commitConfirm a c t).document? key =
      if key = c.key then (db.document? c.key).map (Document.confirm t (a.doc.trackedIn a.snapshot))
      else db.document? key := by
  rw [Db.commitConfirm, document?_update]
  rfl

theorem documentStep_of_effect {call : StockCall} (he : Effect pid s call s')
    (hA : call.Asserts pid s) : DocumentStep pid s s' := by
  cases he with
  | quiet hl hd => exact .of_documents hl (by rw [hd])
  | confirm c a t stmt =>
    subst stmt
    obtain ⟨hold, hins⟩ := hA
    refine ⟨locksKept_commit, fun key d hd => ?_⟩
    simp only [commit_db, document?_commitConfirm]
    by_cases hk : key = c.key
    · subst hk
      obtain rfl := Option.some.inj (hd.symm.trans hold.row)
      simp only [if_true, hd, Option.map_some]
      refine ⟨_, rfl, .inr ⟨free_iff.2 (.inr hold.locked), .inr ⟨Nat.lt_succ_self _, ?_⟩⟩⟩
      exact fun hnd => absurd hins.draft hnd
    · simp only [hk, if_false]
      exact ⟨d, hd, .inl rfl⟩
  | cancel c t stmt =>
    subst stmt
    obtain ⟨d₀, hold, hst⟩ := hA
    refine ⟨locksKept_commit, fun key d hd => ?_⟩
    simp only [commit_db, Db.commitCancel, document?_update]
    by_cases hk : key = c.key
    · subst hk
      obtain rfl := Option.some.inj (hd.symm.trans hold.row)
      simp only [if_true, hd, Option.map_some]
      refine ⟨_, rfl,
        .inr ⟨free_iff.2 (.inr hold.locked), .inr ⟨Nat.lt_succ_self _, fun hnd => ?_⟩⟩⟩
      show DocStatus.cancelled = d.status
      revert hnd hst
      cases d.status <;> simp
    · simp only [hk, if_false]
      exact ⟨d, hd, .inl rfl⟩

/-! ## Documents agree with the ledger -/

theorem moved_append (db : Db) (new : List Movement) (key : DocKey) (p : Uuid) :
    ({ db with movements := db.movements ++ new } : Db).moved key p = db.moved key p +
      ((new.filter fun m => m.origin = some key ∧ m.productId = p).map Movement.quantity).sum := by
  simp only [Db.moved, List.filter_append, List.map_append, List.sum_append]

/-- The own movements of a confirmation, seen from a document. -/
theorem Attempt.Inserted.moved {a : Attempt} {rest : List Line} (h : a.Inserted c rest)
    (key : DocKey) (p : Uuid) :
    ((a.created.filter fun m => m.origin = some key ∧ m.productId = p).map Movement.quantity).sum =
      if key = c.key then ((a.created.filter fun m => m.productId = p).map Movement.quantity).sum
        else 0 := by
  have hfilter : (a.created.filter fun m => m.origin = some key ∧ m.productId = p) =
      if key = c.key then a.created.filter fun m => m.productId = p else [] := by
    split
    · rename_i hk
      subst hk
      exact List.filter_congr fun m hm => by simp [(h.origin m hm).1]
    · rename_i hk
      rw [List.filter_eq_nil_iff]
      intro m hm
      simp [(h.origin m hm).1, Ne.symm hk]
  rw [hfilter]
  split <;> rfl

/-- What the lines add up to is what the confirmed document expects. -/
theorem Attempt.Inserted.expected {a : Attempt} (h : a.Inserted c []) (t : Instant) (p : Uuid) :
    ((a.created.filter fun m => m.productId = p).map Movement.quantity).sum =
      (a.doc.confirm t (a.doc.trackedIn a.snapshot)).expected p := by
  obtain ⟨done, hlines, hsum⟩ := h.lines
  rw [List.append_nil] at hlines
  rw [hsum p, ← hlines]
  simp only [Document.expected, Document.confirm, Document.trackedIn, List.mem_filter, List.mem_map]
  by_cases ht : a.snapshot.tracks p = true
  · by_cases hmem : ∃ l ∈ a.doc.lines, l.productId = p
    · simp [ht, hmem]
    · have hnil : (a.doc.lines.filter fun l => l.productId = p) = [] := by
        rw [List.filter_eq_nil_iff]
        exact fun l hl => by simpa using fun hp => hmem ⟨l, hl, hp⟩
      simp [ht, hmem, hnil]
  · simp [ht]

theorem agrees_commitConfirm {db : Db} {a : Attempt} (hdb : db.Agrees)
    (hrow : db.document? c.key = some a.doc)
    (hins : a.Inserted c []) (t : Instant) : (db.commitConfirm a c t).Agrees := by
  have hmovements : (db.commitConfirm a c t).movements = db.movements ++ a.created :=
    updateDocument_movements ..
  have hmoved : ∀ key p, (db.commitConfirm a c t).moved key p = db.moved key p +
      if key = c.key then (a.doc.confirm t (a.doc.trackedIn a.snapshot)).expected p else 0 := by
    intro key p
    rw [← hins.expected t p, ← hins.moved key p, ← moved_append, Db.moved, hmovements]
    rfl
  have htypes : ∀ key, (∀ m ∈ db.movements, m.origin = some key →
      m.type = key.1.repository.movementType) →
      ∀ m ∈ (db.commitConfirm a c t).movements, m.origin = some key →
        m.type = key.1.repository.movementType := by
    intro key h m hm horigin
    rw [hmovements] at hm
    rcases List.mem_append.1 hm with hold | hnew
    · exact h m hold horigin
    · obtain ⟨ho, htype⟩ := hins.origin m hnew
      obtain rfl := Option.some.inj (ho.symm.trans horigin)
      exact htype
  intro key d hd
  rw [document?_commitConfirm] at hd
  by_cases hk : key = c.key
  · subst hk
    rw [if_pos rfl, hrow] at hd
    cases hd
    have hag := hdb c.key a.doc hrow
    have hdates := hag.dates
    simp only [Document.DatesOk, hins.draft] at hdates
    refine ⟨hdates.2, fun p => ?_, htypes _ hag.types⟩
    rw [hmoved, hag.moved p, hins.draft]
    simp [Document.confirm]
  · rw [if_neg hk] at hd
    have hag := hdb key d hd
    refine ⟨hag.dates, fun p => ?_, htypes _ hag.types⟩
    rw [hmoved, if_neg hk, add_zero]
    exact hag.moved p

theorem agrees_commitCancel {db : Db} {d₀ : Document} (hdb : db.Agrees)
    (hrow : db.document? c.key = some d₀)
    (hst : d₀.status ≠ .confirmed) (t : Instant) : (db.commitCancel c t).Agrees := by
  have hmovements : (db.commitCancel c t).movements = db.movements := updateDocument_movements ..
  have hmoved : ∀ key p, (db.commitCancel c t).moved key p = db.moved key p := by
    intro key p
    rw [Db.moved, hmovements]
    rfl
  intro key d hd
  rw [Db.commitCancel, document?_update] at hd
  by_cases hk : key = c.key
  · subst hk
    rw [if_pos rfl, hrow] at hd
    cases hd
    have hag := hdb c.key d₀ hrow
    refine ⟨?_, fun p => ?_, by rw [hmovements]; exact hag.types⟩
    · have hdates := hag.dates
      simp only [Document.DatesOk] at hdates
      show d₀.confirmedAt = none
      split at hdates
      · exact hdates.1
      · rename_i hconf
        exact absurd hconf hst
      · exact hdates
    · rw [hmoved, hag.moved p, if_neg hst]
      simp [Document.cancel]
  · rw [if_neg hk] at hd
    have hag := hdb key d hd
    exact ⟨hag.dates, fun p => (hmoved key p).trans (hag.moved p),
      by rw [hmovements]; exact hag.types⟩

theorem agrees_of_effect {call : StockCall} (he : Effect pid s call s') (hA : call.Asserts pid s)
    (hdb : s.db.Agrees) : s'.db.Agrees := by
  cases he with
  | quiet hl hd => rw [hd]; exact hdb
  | confirm c a t stmt =>
    subst stmt
    exact agrees_commitConfirm hdb hA.1.row hA.2 t
  | cancel c t stmt =>
    subst stmt
    obtain ⟨d₀, hold, hst⟩ := hA
    exact agrees_commitCancel hdb hold.row hst t

theorem env_document? (e : Env) (db : Db) : (e.apply db).documents = db.documents := by
  cases e <;> funext k <;> cases k <;> rfl

theorem agrees_env {db : Db} (hdb : db.Agrees) (e : Env) : (e.apply db).Agrees := by
  intro key d hd
  rw [Db.document?, env_document?] at hd
  have hag := hdb key d hd
  cases e with
  | tick n => exact ⟨hag.dates, hag.moved, hag.types⟩
  | setTrackStock id b => exact ⟨hag.dates, hag.moved, hag.types⟩
  | movement m =>
    refine ⟨hag.dates, fun p => ?_, fun m' hm' horigin => ?_⟩
    · simp only [Env.apply, moved_append]
      simpa using hag.moved p
    · rcases List.mem_append.1 hm' with hold | hnew
      · exact hag.types m' hold horigin
      · obtain rfl := List.mem_singleton.1 hnew
        simp at horigin

/-! ## The result -/

theorem documentOutline : Outline documents NoCancelOfConfirmed (fun s => s.db.Agrees)
    (fun pid call s => call.Asserts pid s) DocumentStep where
  own P pid i s t hK hI hQ hst :=
    ⟨agrees_of_effect (step_effect hst) hQ hI, asserts_step hK hQ hst,
      documentStep_of_effect (step_effect hst) hQ⟩
  stable _ _ _ _ _ hne _ _ hG hQ := StockCall.Asserts.stable hQ hne hG
  env P e _ hI := by
    refine ⟨agrees_env hI e, fun pid call hc => ?_⟩
    have hg : DocumentStep (pid + 1) P.shared (documents.env e P.shared) :=
      .of_documents (.of_eq rfl) (env_document? e P.shared.db)
    exact hc.stable (Nat.succ_ne_self pid) hg

variable {P₀ P P' : StockPool}

theorem Starts.annotated (h : Starts P₀) :
    Annotated (fun s => s.db.Agrees) (fun pid call s => StockCall.Asserts pid call s) P₀ := by
  refine ⟨h.agrees, fun pid => ?_⟩
  have hf := h.fresh pid
  cases hc : P₀.threads pid with
  | confirm c st => rw [hc] at hf; obtain rfl := hf; trivial
  | cancel c st => rw [hc] at hf; obtain rfl := hf; trivial
  | thrown => trivial

/-- A document that has left `DRAFT` keeps its status. -/
theorem status_terminal (h0 : Starts P₀) (hr : Reach documents.system NoCancelOfConfirmed P₀ P)
    (h : Reach documents.system NoCancelOfConfirmed P P') {d : Document}
    (hd : P.shared.db.document? key = some d) (hst : d.status ≠ .draft) :
    ∃ d', P'.shared.db.document? key = some d' ∧ d'.status = d.status := by
  refine h.inv (fun P' => ∃ d', P'.shared.db.document? key = some d' ∧ d'.status = d.status)
    ⟨d, hd, rfl⟩ ?_
  rintro P₁ a P₂ hr₁ ⟨d₁, hd₁, hs₁⟩ hK hstep
  cases a with
  | run pid i =>
    have hg := documentOutline.guarantee h0.annotated (hr.trans hr₁) hK hstep
    obtain ⟨d₂, hd₂, rfl | ⟨-, rfl | ⟨-, hkeep⟩⟩⟩ := hg.rows key d₁ hd₁
    · exact ⟨_, hd₂, hs₁⟩
    · exact ⟨_, hd₂, hs₁⟩
    · exact ⟨d₂, hd₂, (hkeep (by rw [hs₁]; exact hst)).trans hs₁⟩
  | env e =>
    obtain rfl := Machine.env_eq_some.1 hstep
    refine ⟨d₁, ?_, hs₁⟩
    show (e.apply P₁.shared.db).document? key = some d₁
    rw [Db.document?, env_document?]
    exact hd₁

theorem Document.DatesOk.not_both {d : Document} (h : d.DatesOk) :
    ¬ (d.confirmedAt.isSome ∧ d.cancelledAt.isSome) := by
  rintro ⟨hconf, hcanc⟩
  unfold DatesOk at h
  split at h
  · rw [h.1] at hconf; cases hconf
  · rw [h] at hcanc; cases hcanc
  · rw [h] at hconf; cases hconf

/-- Documents and the ledger agree in every run in which no cancellation updates a document that is
confirmed by then. -/
theorem documents_agree (h0 : Starts P₀) : DocumentsAgree NoCancelOfConfirmed P₀ where
  terminal _ _ _ _ hr h hd hst := status_terminal h0 hr h hd hst
  dates P key d hr hd := by
    have hag := (documentOutline.sound h0.annotated hr).1 key d hd
    exact hag.dates.not_both
  moved P key d p hr hd := by
    have hag := (documentOutline.sound h0.annotated hr).1 key d hd
    exact hag.moved p

def samplePool (calls : List StockCall) : StockPool where
  shared := { db := sampleDb, lock := fun _ => none }
  threads pid := calls.getD pid .thrown

/-- One draft sale, to be confirmed and cancelled. -/
def conflictPool : StockPool :=
  samplePool [.confirm ⟨.sale, 9, 2⟩ (.starting 1), .cancel ⟨.sale, 9, 2⟩ .reading]

theorem conflictPool_starts : Starts conflictPool where
  unlocked _ := rfl
  fresh pid := by
    match pid with
    | 0 => rfl
    | 1 => rfl
    | n + 2 => trivial
  agrees := by
    have hnone : ∀ key p, sampleDb.moved key p = 0 := by
      intro key p
      simp [Db.moved, sampleDb]
    intro key d hd
    have hdraft : d.status = .draft ∧ d.confirmedAt = none ∧ d.cancelledAt = none := by
      obtain ⟨kind, id⟩ := key
      cases kind with
      | sale =>
        have hmem := Table.mem_of_find? hd
        obtain rfl := List.mem_singleton.1 hmem
        exact ⟨rfl, rfl, rfl⟩
      | purchase => cases hd
    refine ⟨?_, fun p => ?_, fun m hm horigin => ?_⟩
    · unfold Document.DatesOk
      rw [hdraft.1]
      exact hdraft.2
    · rw [if_neg (by rw [hdraft.1]; decide)]
      exact hnone key p
    · obtain rfl := List.mem_singleton.1 hm
      cases horigin

theorem documents_agree_sample : DocumentsAgree NoCancelOfConfirmed conflictPool :=
  documents_agree conflictPool_starts

/-- The cancellation reads `DRAFT`; the confirmation commits; the cancellation commits on top of it:
the sale is cancelled, bears both dates, and its stock is gone. -/
theorem confirmed_then_cancelled : Starts conflictPool ∧ ¬ DocumentsAgree Always conflictPool := by
  refine ⟨conflictPool_starts, fun hagree => ?_⟩
  let schedule : List (Act Input Env) :=
    .run 1 (.proceed 0) :: List.replicate 5 (.run 0 (.proceed 7)) ++ List.replicate 2
      (.run 1 (.proceed 0))
  have hrun : (exec documents.system (fun _ _ => true) conflictPool schedule).map (fun P =>
      ((P.shared.db.document? (.sale, 2)).map Document.status, P.shared.db.moved (.sale, 2) 1)) =
      some (some .cancelled, 2) := by decide +kernel
  obtain ⟨P, hP, hres⟩ := Option.map_eq_some_iff.1 hrun
  simp only [Prod.mk.injEq, Option.map_eq_some_iff] at hres
  obtain ⟨⟨d, hd, hst⟩, hmoved⟩ := hres
  have h := hagree.moved P (.sale, 2) d 1 (Reach.of_exec _ (fun _ _ _ => trivial) _ hP) hd
  rw [hst, hmoved] at h
  cases h

end Gescom.Stock
