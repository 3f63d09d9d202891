import Gescom.Stock.Documents

/-!
# The stock level is the ledger

`aggregateQuantities` groups by product and type and never stores a balance; `aggregate_eq` says
that it computes the balance of the product's movements in creation order. `LedgerOk` is the
invariant of all writers: a movement belongs to the tenant of its product, and no prefix of a
product's movements is below zero.
-/

namespace Gescom.Stock

open Transition Ledger

theorem signed_sum (t : MovementType) (l : List Int) : t.signed l.sum = (l.map t.signed).sum := by
  induction l with
  | nil => cases t <;> rfl
  | cons q l ih =>
    rw [List.sum_cons, List.map_cons, List.sum_cons, ← ih]
    simp only [MovementType.signed]
    split <;> omega

/-- A group carries the signed sum of its movements. -/
theorem group_delta (ms : List Movement) (k : Uuid × MovementType) :
    k.2.signed ((ms.filter fun m => groupKey m = k).map Movement.quantity).sum =
      ((ms.filter fun m => groupKey m = k).map Movement.delta).sum := by
  rw [signed_sum, List.map_map]
  refine congrArg List.sum (List.map_congr_left fun m hm => ?_)
  have hk : groupKey m = k := by simpa using List.of_mem_filter hm
  rw [← hk]
  rfl

/-- The grouped sums of one product add up to the signed sum of its movements. -/
theorem sum_groupBy (ms : List Movement) (p : Uuid) :
    ((((groupBy ms).map fun g => (g.productId, g.type.signed g.sum)).filter fun e => e.1 = p).map
      Prod.snd).sum =
      ((ms.filter fun m => m.productId = p).map Movement.delta).sum := by
  have hgroups : (((groupBy ms).map fun g => (g.productId, g.type.signed g.sum)).filter fun e =>
      e.1 = p).map Prod.snd =
      ((ms.map groupKey).dedup.filter fun k => k.1 = p).map fun k =>
        (((ms.filter fun m => m.productId = p).filter fun m => groupKey m = k).map
          Movement.delta).sum := by
    rw [groupBy, List.map_map, List.filter_map, List.map_map]
    refine List.map_congr_left fun k hk => ?_
    have hkp : k.1 = p := by simpa using List.of_mem_filter hk
    have hsub : (ms.filter fun m => m.productId = p).filter (fun m => groupKey m = k) =
        ms.filter fun m => groupKey m = k := by
      rw [List.filter_filter]
      refine List.filter_congr fun m _ => ?_
      by_cases hm : groupKey m = k
      · have : m.productId = p := by rw [← hkp, ← hm]; rfl
        simp [hm, this]
      · simp [hm]
    rw [hsub]
    exact group_delta ms k
  rw [hgroups]
  refine sum_groups groupKey Movement.delta ((ms.map groupKey).nodup_dedup.filter _) _
    fun m hm => ?_
  rw [List.mem_filter] at hm ⊢
  exact ⟨List.mem_dedup.2 (List.mem_map_of_mem hm.1), hm.2⟩

/-- The aggregate over any set of products, at one of them. -/
theorem aggregate_eq (db : Db) (enterpriseId p : Uuid) {ids : List Uuid} (hp : p ∈ ids) :
    (db.aggregateQuantities enterpriseId ids p).getD 0 =
      balance Movement.delta
        ((db.movementsOf p).filter fun m => m.enterpriseId = enterpriseId) := by
  rw [Db.aggregateQuantities, accumulate_getD, sum_groupBy, balance_eq_sum]
  simp only [Option.getD_none, zero_add]
  rw [List.filter_filter, Db.movementsOf, List.filter_filter]
  refine congrArg (fun l => (l.map Movement.delta).sum) (List.filter_congr fun m _ => ?_)
  by_cases hm : m.productId = p
  · subst hm
    simp [hp]
  · simp [hm]

/-! ## The invariant -/

structure LedgerOk (db : Db) : Prop where
  owned : ∀ m ∈ db.movements, ∃ p, db.products.find? m.productId = some p ∧
    p.enterpriseId = m.enterpriseId
  solvent : ∀ id, Solvent Movement.delta (db.movementsOf id)

/-- For the tenant of the product the aggregate is the balance of the whole ledger of the
product. -/
theorem LedgerOk.aggregate {db : Db} (h : LedgerOk db) {p : Product} {id : Uuid}
    (hp : db.products.find? id = some p) {ids : List Uuid} (hmem : id ∈ ids) :
    (db.aggregateQuantities p.enterpriseId ids id).getD 0 = balance Movement.delta
      (db.movementsOf id) := by
  rw [aggregate_eq db _ _ hmem]
  congr 1
  rw [List.filter_eq_self]
  intro m hm
  rw [Db.movementsOf, List.mem_filter] at hm
  obtain ⟨q, hq, hent⟩ := h.owned m hm.1
  have hid : m.productId = id := by simpa using hm.2
  rw [hid] at hq
  obtain rfl := Option.some.inj (hp.symm.trans hq)
  simpa using hent.symm

theorem LedgerOk.level {db : Db} (h : LedgerOk db) {p : Product} {id : Uuid}
    (hp : db.products.find? id = some p) :
    db.level p.enterpriseId id = balance Movement.delta (db.movementsOf id) :=
  h.aggregate hp (List.mem_singleton.2 rfl)

theorem movementsOf_append (db : Db) (m : Movement) (id : Uuid) : ({ db with movements :=
  db.movements ++ [m] } : Db).movementsOf id =
      if m.productId = id then db.movementsOf id ++ [m] else db.movementsOf id := by
  simp only [Db.movementsOf, List.filter_append]
  by_cases h : m.productId = id <;> simp [h]

/-- A movement that does not overdraw, of the product's own tenant. -/
theorem LedgerOk.append {db : Db} (h : LedgerOk db) {m : Movement} {p : Product}
    (hp : db.products.find? m.productId = some p) (hent : p.enterpriseId = m.enterpriseId)
    (hnext : 0 ≤ balance Movement.delta (db.movementsOf m.productId) + m.delta) :
    LedgerOk { db with movements := db.movements ++ [m] } where
  owned m' hm' := by
    rcases List.mem_append.1 hm' with hold | hnew
    · exact h.owned m' hold
    · obtain rfl := List.mem_singleton.1 hnew
      exact ⟨p, hp, hent⟩
  solvent id := by
    rw [movementsOf_append]
    split
    · rename_i hid
      subst hid
      exact (h.solvent _).append hnext
    · exact h.solvent id

/-- A change of the other tables, products edited but neither removed nor moved to another
tenant. -/
theorem LedgerOk.of_eq {db db' : Db} (h : LedgerOk db) (hm : db'.movements = db.movements)
    (hp : ∀ id p, db.products.find? id = some p →
      ∃ p', db'.products.find? id = some p' ∧ p'.enterpriseId = p.enterpriseId) : LedgerOk db' where
  owned m hmem := by
    rw [hm] at hmem
    obtain ⟨p, hfound, hent⟩ := h.owned m hmem
    obtain ⟨p', hfound', hent'⟩ := hp _ p hfound
    exact ⟨p', hfound', hent'.trans hent⟩
  solvent id := by
    rw [Db.movementsOf, hm]
    exact h.solvent id

/-! ## What `applyMovement` does -/

/-- A new movement: guarded by the level, appended at the end. -/
structure Created (enterpriseId : Uuid) (input : CreateStockMovementInput)
    (origin : Option (DocKind × Uuid)) (db : Db) (r : CreateMovementResult) (db' : Db) : Prop where
  created : r.created = true
  product : ∃ p, db.products.find? input.productId = some p ∧ p.enterpriseId = enterpriseId ∧
    p.trackStock = true
  movement : r.movement.enterpriseId = enterpriseId ∧ r.movement.productId = input.productId ∧
    r.movement.type = input.type ∧ r.movement.quantity = input.quantity ∧ r.movement.origin = origin
  onHand : r.quantityOnHand = db.level enterpriseId input.productId + input.type.signed
    input.quantity
  nonneg : 0 ≤ r.quantityOnHand
  appended : db' = { db with movements := db.movements ++ [r.movement] }

/-- A deduplicated replay: a stored movement of the tenant, nothing written. -/
structure Replayed (enterpriseId : Uuid) (key : Option String) (db : Db) (r : CreateMovementResult)
    (db' : Db) : Prop where
  keyed : (truthy key).isSome
  created : r.created = false
  movement : r.movement ∈ db.movements ∧ r.movement.enterpriseId = enterpriseId
  onHand : r.quantityOnHand = db.level enterpriseId r.movement.productId
  unchanged : db' = db

theorem replayed {enterpriseId : Uuid} {key : Option String} {db : Db} {m : Movement}
    (h : (truthy key).bind (db.findByKey enterpriseId) = some m) :
    Replayed enterpriseId key db (db.replay enterpriseId m) db := by
  obtain ⟨k, hkey, hk⟩ := Option.bind_eq_some_iff.1 h
  have hent := List.find?_some hk
  simp only [decide_eq_true_eq] at hent
  exact ⟨by simp [hkey], rfl, ⟨List.mem_of_find?_eq_some hk, hent.1⟩, rfl, rfl⟩

theorem applyMovement_ok {enterpriseId : Uuid} {input : CreateStockMovementInput}
    {key : Option String}
    {origin : Option (DocKind × Uuid)} {fresh : Uuid} {db db' : Db} {r : CreateMovementResult}
    (h : applyMovement enterpriseId input key origin fresh db = .ok (r, db')) :
    Created enterpriseId input origin db r db' ∨ Replayed enterpriseId key db r db' := by
  unfold applyMovement at h
  split at h
  · rename_i m hm
    cases h
    exact .inr (replayed hm)
  · split at h
    · cases h
    · rename_i product hproduct
      split at h
      · cases h
      · rename_i hent
        split at h
        · cases h
        · rename_i htrack
          simp only at h
          split at h
          · cases h
          · rename_i hnext
            split at h
            · rename_i db₁ hins
              cases h
              left
              refine ⟨rfl, ⟨product, hproduct, not_not.1 hent, by simpa using htrack⟩,
                ⟨rfl, rfl, rfl, rfl, rfl⟩,
                rfl, not_lt.1 hnext, ?_⟩
              unfold Db.insertMovement at hins
              split at hins <;> cases hins
              rfl
            · -- the key was looked up above: the second look finds nothing either
              cases h

/-- The product a replay or a creation is about belongs to the tenant. -/
theorem applyMovement_keeps {enterpriseId : Uuid} {input : CreateStockMovementInput}
    {key : Option String}
    {origin : Option (DocKind × Uuid)} {fresh : Uuid} {db db' : Db} {r : CreateMovementResult}
    (hdb : LedgerOk db) (h : applyMovement enterpriseId input key origin fresh db = .ok (r, db')) :
    LedgerOk db' ∧ db'.products = db.products ∧
      r.quantityOnHand = balance Movement.delta (db'.movementsOf r.movement.productId) ∧
      r.quantityOnHand = db'.level enterpriseId r.movement.productId := by
  rcases applyMovement_ok h with hc | hr
  · obtain ⟨p, hp, hent, -⟩ := hc.product
    obtain ⟨hment, hmp, hmt, hmq, -⟩ := hc.movement
    have hdelta : r.movement.delta = input.type.signed input.quantity := by
      rw [Movement.delta, hmt, hmq]
    have hlevel := hdb.level hp
    rw [hent] at hlevel
    have hbal : r.quantityOnHand =
        balance Movement.delta (db.movementsOf r.movement.productId) + r.movement.delta := by
      rw [hc.onHand, hlevel, hdelta, hmp]
    have hp' : db.products.find? r.movement.productId = some p := by rw [hmp]; exact hp
    have hok : LedgerOk db' := by
      rw [hc.appended]
      exact hdb.append hp' (hent.trans hment.symm) (by rw [← hbal]; exact hc.nonneg)
    have hprod : db'.products = db.products := by rw [hc.appended]
    have hend : r.quantityOnHand = balance Movement.delta
        (db'.movementsOf r.movement.productId) := by
      rw [hbal, hc.appended, movementsOf_append, if_pos rfl, balance_append, balance_singleton]
    refine ⟨hok, hprod, hend, hend.trans ?_⟩
    rw [← hent]
    exact (hok.level (by rw [hprod]; exact hp')).symm
  · rw [hr.unchanged]
    obtain ⟨p, hp, hent⟩ := hdb.owned _ hr.movement.1
    have hlevel := hdb.level hp
    rw [hent, hr.movement.2] at hlevel
    exact ⟨hdb, rfl, hr.onHand.trans hlevel, hr.onHand⟩

/-! ## `confirm` -/

theorem confirmLine_keeps {r : DocumentRepository} {enterpriseId id fresh : Uuid} {line : Line}
    {db db' : Db} (hdb : LedgerOk db) (h : r.confirmLine enterpriseId id fresh line db = .ok db') :
    LedgerOk db' ∧ db'.products = db.products := by
  unfold DocumentRepository.confirmLine at h
  split at h
  · split at h <;> cases h
    rename_i hres
    obtain ⟨hok, hprod, -⟩ := applyMovement_keeps hdb hres
    exact ⟨hok, hprod⟩
  · cases h
    exact ⟨hdb, rfl⟩

/-- The loop over the lines, by induction on them: each line sees the movements of the ones
before. -/
theorem confirmLines_keeps {r : DocumentRepository} {enterpriseId id : Uuid} {fresh : Nat → Uuid}
    {lines : List Line} {db db' : Db} (hdb : LedgerOk db)
    (h : r.confirmLines enterpriseId id fresh lines db = .ok db') :
    LedgerOk db' ∧ db'.products = db.products := by
  induction lines generalizing db with
  | nil =>
    cases h
    exact ⟨hdb, rfl⟩
  | cons line rest ih =>
    simp only [DocumentRepository.confirmLines] at h
    split at h
    · rename_i db₁ hline
      obtain ⟨hok, hprod⟩ := confirmLine_keeps hdb hline
      obtain ⟨hok', hprod'⟩ := ih hok h
      exact ⟨hok', hprod'.trans hprod⟩
    · cases h

theorem confirm_keeps {r : DocumentRepository} {enterpriseId id : Uuid} {fresh : Nat → Uuid}
    {db db' : Db}
    (hdb : LedgerOk db) (h : r.confirm enterpriseId id fresh db = .ok db') : LedgerOk db' := by
  unfold DocumentRepository.confirm at h
  split at h
  · cases h
  · split at h
    · cases h
    · split at h
      · cases h
      · rename_i db₁ hlines
        cases h
        obtain ⟨hok, -⟩ := confirmLines_keeps hdb hlines
        refine hok.of_eq (updateDocument_movements ..) fun _ p hp => ⟨p, ?_, rfl⟩
        rw [updateDocument_products]
        exact hp

/-- A positive movement of a product that tracks stock is never short of stock. -/
theorem applyMovement_not_short {enterpriseId : Uuid} {input : CreateStockMovementInput}
    {key : Option String}
    {origin : Option (DocKind × Uuid)} {fresh : Uuid} {db : Db} (hdb : LedgerOk db)
    (hin : 0 ≤ input.type.signed input.quantity) :
    applyMovement enterpriseId input key origin fresh db ≠ .error
      (.conflict "Stock insuffisant") := by
  unfold applyMovement
  split
  · simp
  · split
    · simp
    · rename_i product hproduct
      split
      · simp
      · rename_i hent
        split
        · simp
        · have hlevel := hdb.level hproduct
          rw [not_not.1 hent] at hlevel
          have hnn := (hdb.solvent input.productId).balance_nonneg
          simp only
          split
          · omega
          · split
            · simp
            · simp

theorem confirmLines_not_short {enterpriseId id : Uuid} {fresh : Nat → Uuid}
    {lines : List Line} {db : Db} (hdb : LedgerOk db) :
    purchasesRepository.confirmLines enterpriseId id fresh lines db ≠ .error
      (.conflict "Stock insuffisant") := by
  induction lines generalizing db with
  | nil => simp [DocumentRepository.confirmLines]
  | cons line rest ih =>
    simp only [DocumentRepository.confirmLines]
    split
    · rename_i db₁ hline
      exact ih (confirmLine_keeps hdb hline).1
    · rename_i e hline
      rintro he
      cases he
      unfold DocumentRepository.confirmLine at hline
      split at hline
      · split at hline <;> cases hline
        rename_i hres
        refine applyMovement_not_short hdb ?_ hres
        have hpos := line.positive
        simp only [DocumentRepository.movementFor, purchasesRepository, MovementType.signed,
          reduceCtorEq, if_false]
        omega
      · cases hline

theorem getOrThrow_error {r : DocumentRepository} {db : Db} {enterpriseId id : Uuid} {e : ApiError}
    (h : r.getOrThrow db enterpriseId id = .error e) : e = .notFound r.notFound := by
  unfold DocumentRepository.getOrThrow at h
  split at h
  · cases h; rfl
  · split at h <;> cases h
    rfl

theorem purchase_confirm_not_short {enterpriseId id : Uuid} {fresh : Nat → Uuid} {db : Db}
    (hdb : LedgerOk db) :
    purchasesRepository.confirm enterpriseId id fresh db ≠ .error
      (.conflict "Stock insuffisant") := by
  intro h
  unfold DocumentRepository.confirm at h
  split at h
  · rename_i hget
    cases h
    cases getOrThrow_error hget
  · split at h
    · simp [purchasesRepository] at h
    · split at h
      · rename_i hlines
        cases h
        exact confirmLines_not_short hdb hlines
      · cases h

/-! ## Every serial order of the writers -/

/-- The committed operations; `updateProduct` stands for a product edit that sets `trackStock`. -/
inductive StockOp where
  | createMovement (enterpriseId : Uuid) (input : CreateStockMovementInput)
    (idempotencyKey : Option String)
      (fresh : Uuid)
  | confirmSale (enterpriseId saleId : Uuid) (fresh : Nat → Uuid)
  | confirmPurchase (enterpriseId purchaseId : Uuid) (fresh : Nat → Uuid)
  | updateProduct (productId : Uuid) (trackStock : Bool)

/-- One operation run alone: its error, or the database it commits. -/
def StockOp.run (db : Db) : StockOp → Except ApiError Db
  | createMovement ent input key fresh => (Stock.createMovement ent input key fresh db).map Prod.snd
  | confirmSale ent id fresh => salesRepository.confirm ent id fresh db
  | confirmPurchase ent id fresh => purchasesRepository.confirm ent id fresh db
  | updateProduct id b => .ok (db.setTrackStock id b)

/-- The system of all serial orders; an operation that throws is rolled back. -/
def writers : System Db StockOp where
  step db op :=
    match op.run db with
    | .ok db' => some db'
    | .error _ => some db

theorem StockOp.run_keeps {db db' : Db} {op : StockOp} (hdb : LedgerOk db)
    (h : op.run db = .ok db') : LedgerOk db' := by
  cases op with
  | createMovement ent input key fresh =>
    simp only [run] at h
    cases hres : Stock.createMovement ent input key fresh db with
    | error e => rw [hres] at h; cases h
    | ok res =>
      rw [hres] at h
      cases h
      exact (applyMovement_keeps hdb hres).1
  | confirmSale ent id fresh => exact confirm_keeps hdb h
  | confirmPurchase ent id fresh => exact confirm_keeps hdb h
  | updateProduct id b =>
    cases h
    refine hdb.of_eq rfl fun id' p hp => ?_
    refine ⟨if id' = id then { p with trackStock := b } else p, ?_, by split <;> rfl⟩
    rw [Db.setTrackStock, Table.find?_update]
    split
    · rename_i hid
      rw [← hid, hp]
      rfl
    · exact hp

theorem ledgerOk_of_reach {db₀ db : Db} (h0 : LedgerOk db₀) (h : Reach writers Always db₀ db) :
    LedgerOk db := by
  refine h.inv LedgerOk h0 fun db op db' _ ih _ hstep => ?_
  simp only [writers] at hstep
  split at hstep <;> cases hstep
  · rename_i hrun
    exact StockOp.run_keeps ih hrun
  · exact ih

/-- In every state reached by the writers of the ledger, in any order: the grouped level of a
product is the left fold of its signed movements, no prefix of that fold is negative, a successful
creation returns the level it leaves, and confirming a purchase is never short of stock. -/
theorem stock_level_is_ledger {db₀ db : Db} (h0 : LedgerOk db₀) (hr : Reach writers Always db₀ db) :
    (∀ id p ids, db.products.find? id = some p → id ∈ ids →
      (db.aggregateQuantities p.enterpriseId ids id).getD 0 =
        (db.movementsOf id).foldl (fun level m => level + m.delta) 0) ∧
    (∀ id pre, pre <+: db.movementsOf id →
      0 ≤ pre.foldl (fun level m => level + Movement.delta m) 0) ∧
    (∀ ent input key fresh r db', createMovement ent input key fresh db = .ok (r, db') →
      Reach writers Always db₀ db' ∧ r.quantityOnHand = db'.level ent r.movement.productId) ∧
    ∀ ent id fresh, purchasesRepository.confirm ent id fresh db ≠ .error
      (.conflict "Stock insuffisant") := by
  have hok := ledgerOk_of_reach h0 hr
  refine ⟨fun id p ids hp hmem => hok.aggregate hp hmem, fun id pre hpre =>
    hok.solvent id pre hpre, ?_,
    fun ent id fresh => purchase_confirm_not_short hok⟩
  intro ent input key fresh r db' hcreate
  have hstep : writers.step db (.createMovement ent input key fresh) = some db' := by
    simp [writers, StockOp.run, hcreate, Except.map]
  exact ⟨hr.trans (.step .init trivial hstep), (applyMovement_keeps hok hcreate).2.2.2⟩

/-- One product with three units in stock, and a draft sale of two of them. -/
def sampleDb : Db where
  products := Table.empty.insert { id := 1, enterpriseId := 9, trackStock := true }
  sales := Table.empty.insert { id := 2, enterpriseId := 9, lines := [⟨1, 2, .mk 1⟩] }
  purchases := Table.empty
  movements :=
    [{ id := 3, enterpriseId := 9, productId := 1, type := .adjustment, quantity := 3,
       note := none, idempotencyKey := none, origin := none }]
  now := 10

theorem sampleDb_ledgerOk : LedgerOk sampleDb where
  owned m hm := by
    obtain rfl := List.mem_singleton.1 hm
    exact ⟨⟨1, 9, true⟩, by decide, rfl⟩
  solvent id := by
    have hsub : sampleDb.movementsOf id = sampleDb.movements ∨ sampleDb.movementsOf id = [] := by
      simp only [Db.movementsOf, sampleDb, List.filter_cons, List.filter_nil]
      split <;> simp
    rcases hsub with h | h <;> rw [h]
    · exact Solvent.append .nil (by decide)
    · exact .nil

theorem stock_level_is_ledger_sample :
    ∃ db, Reach writers Always sampleDb db ∧ (db.aggregateQuantities 9 [1] 1).getD 0 = 1 ∧
      (db.movementsOf 1).foldl (fun level m => level + m.delta) 0 = 1 := by
  have hrun : (exec writers (fun _ _ => true) sampleDb [.confirmSale 9 2 (fun _ => 4)]).map
      (fun db => (db.products.find? 1, (db.aggregateQuantities 9 [1] 1).getD 0)) =
      some (some ⟨1, 9, true⟩, 1) := by decide +kernel
  obtain ⟨db, hdb, hres⟩ := Option.map_eq_some_iff.1 hrun
  simp only [Prod.mk.injEq] at hres
  have hr : Reach writers Always sampleDb db := Reach.of_exec _ (fun _ _ _ => trivial) _ hdb
  have hlevel := (stock_level_is_ledger sampleDb_ledgerOk hr).1 1 _ [1] hres.1 (by decide)
  exact ⟨db, hr, hres.2, hlevel.symm.trans hres.2⟩

end Gescom.Stock
