import Gescom.Stock.Levels
import Gescom.Erp.Permanence
import Gescom.Erp.StockPart

/-!
# No stock below zero

`stock_solvent`: after any calls of any enterprises, at any times, the movements of a product never sum
up to less than nothing, the levels that are shown are these sums, and no purchase is refused for want
of stock. A write keeps `Stock.LedgerOk` of the stock part, which is where `Gescom.Stock` proves what
follows from it.
-/

namespace Gescom.Erp

open Confinement Ledger

/-- The movements of a product, in the order of their creation. -/
def Db.movementsOf (db : Db) (productId : Uuid) : List StockMovement :=
  db.movements.filter fun m => m.productId = productId

/-- What the sum of the movements says. -/
def Db.onHand (db : Db) (productId : Uuid) : Int :=
  balance (fun m : StockMovement => m.delta) (db.movementsOf productId)

structure StockSolvent (T : Texts) (db : Db) : Prop where
  solvent : ∀ id, Solvent (fun m : StockMovement => m.delta) (db.movementsOf id)
  level : ∀ e id l, db.Answers (StockRepository.getLevel e id) l → l.quantityOnHand = db.onHand id
  levels : ∀ e query page, db.Answers (StockRepository.findLevels T e query) page →
    ∀ l ∈ page.items, l.quantityOnHand = db.onHand l.productId
  purchases : ∀ e id draw, (exec (DocumentMethods.confirm Stock.purchasesRepository e id draw) db).1 ≠
    .error (.conflict "Stock insuffisant")

variable {e id : Uuid} {db db' : Db} {p : Product}

/-! ## The invariant -/

theorem find?_stock (h : db.products.find? id = some p) :
    db.stock.products.find? id = some p.stock := by
  rw [(shows_stock db).products, h]
  rfl

/-- A write appends a movement that does not overdraw, or none. -/
theorem Write.movements (h : Write e db db') : db'.movements = db.movements ∨
    ∃ m p, db'.movements = db.movements ++ [m] ∧ db.products.find? m.productId = some p ∧
      p.enterpriseId = m.enterpriseId ∧ 0 ≤ db.level p.enterpriseId m.productId + m.delta := by
  cases h with
  | movement m howner hproduct hcovered =>
    obtain ⟨p, hp, hpe⟩ := hproduct
    exact .inr ⟨m, p, rfl, hp, hpe.trans howner.symm, hpe ▸ hcovered⟩
  | newDocument kind => cases kind <;> exact .inl rfl
  | confirmed kind => cases kind <;> exact .inl rfl
  | cancelled kind => cases kind <;> exact .inl rfl
  | _ => exact .inl rfl

/-- Products are neither removed nor moved to another enterprise. -/
theorem Db.Later.stock_products (h : db.Later db') (id : Uuid) (q : Stock.Product)
    (hq : db.stock.products.find? id = some q) :
    ∃ q', db'.stock.products.find? id = some q' ∧ q'.enterpriseId = q.enterpriseId := by
  rw [(shows_stock db).products] at hq
  obtain ⟨p, hp, rfl⟩ := Option.map_eq_some_iff.1 hq
  obtain ⟨p', hp', hnext⟩ := h.products id p hp
  exact ⟨p'.stock, find?_stock hp', hnext⟩

theorem Write.ledgerOk (h : Write e db db') : Preserves (fun db => Stock.LedgerOk db.stock) db db' := by
  intro hok
  rcases h.movements with hsame | ⟨m, p, hmovements, hp, howner, hcovered⟩
  · exact hok.of_eq (congrArg (List.map StockMovement.toMovement) hsame) h.later.stock_products
  · have hlevel := hok.level (find?_stock hp)
    rw [show p.stock.enterpriseId = p.enterpriseId from rfl, (shows_stock db).level] at hlevel
    have happend : Stock.LedgerOk { db.stock with movements := db.stock.movements ++ [m.toMovement] } :=
      hok.append (find?_stock hp) howner (by rw [← hlevel]; exact hcovered)
    refine happend.of_eq ?_ h.later.stock_products
    simp [Db.stock, hmovements]

theorem after_ledgerOk (T : Texts) (events : List Event) :
    Stock.LedgerOk (after T {} events).stock := by
  refine after_guaranteed (G := Preserves fun db => Stock.LedgerOk db.stock)
    (fun _ _ _ h => h.ledgerOk) (fun _ _ h => ⟨h.owned, h.solvent⟩)
    (fun _ _ _ h => ⟨h.owned, h.solvent⟩) T {} events ⟨?_, fun id => Solvent.nil⟩
  intro m hm
  cases hm

/-! ## What it says of the levels -/

theorem movementsOf_stock (db : Db) (id : Uuid) :
    db.stock.movementsOf id = (db.movementsOf id).map StockMovement.toMovement := by
  unfold Stock.Db.movementsOf Db.movementsOf Db.stock
  rw [List.filter_map]
  rfl

theorem balance_stock (ms : List StockMovement) :
    balance Stock.Movement.delta (ms.map StockMovement.toMovement) =
      balance (fun m : StockMovement => m.delta) ms := by
  rw [balance_eq_sum, balance_eq_sum, List.map_map]
  rfl

/-- `aggregateQuantities`, of a product of the enterprise. -/
theorem aggregate_onHand (hok : Stock.LedgerOk db.stock) (hp : db.products.find? id = some p)
    {ids : List Uuid} (hid : id ∈ ids) :
    (db.ledger.aggregateQuantities p.enterpriseId ids id).getD 0 = db.onHand id := by
  have haggregate := hok.aggregate (find?_stock hp) hid
  rw [movementsOf_stock, balance_stock] at haggregate
  exact haggregate

theorem getLevel_onHand (hok : Stock.LedgerOk db.stock) {l : StockLevel}
    (hl : db.Answers (StockRepository.getLevel e id) l) : l.quantityOnHand = db.onHand id := by
  obtain ⟨product, hproduct, rfl⟩ := map_eq_ok.1 (answers_ask.1 hl)
  unfold findTrackedProductOrThrow at hproduct
  split at hproduct
  · cases hproduct
  · rename_i found hfound
    split_ifs at hproduct with hrefused
    cases hproduct
    obtain ⟨howner, -⟩ := not_or.1 hrefused
    obtain rfl := not_not.1 howner
    obtain rfl : product.id = id := Table.key_of_find? hfound
    exact aggregate_onHand hok hfound (List.mem_singleton.2 rfl)

theorem findLevels_onHand {T : Texts} (hok : Stock.LedgerOk db.stock) {query : ListStockQuery}
    {page : Paged StockLevel} (hpage : db.Answers (StockRepository.findLevels T e query) page) :
    ∀ l ∈ page.items, l.quantityOnHand = db.onHand l.productId := by
  have hanswer := answers_ask.1 hpage
  cases hanswer
  intro l hl
  obtain ⟨product, hproduct, rfl⟩ := List.mem_map.1 hl
  obtain ⟨found, hfound, rfl⟩ := List.mem_map.1 hproduct
  obtain ⟨hmem, howner⟩ := TenantTable.mem_findMany (List.mem_of_mem_drop (List.mem_of_mem_take hfound))
  have hrow : db.products.find? found.id = some found := Table.find?_of_mem hmem
  obtain rfl : found.enterpriseId = e := howner
  exact aggregate_onHand hok hrow (List.mem_map_of_mem hproduct)

/-- A purchase that is confirmed brings goods in. -/
theorem purchase_not_short (hok : Stock.LedgerOk db.stock) (draw : Draw) :
    (exec (DocumentMethods.confirm Stock.purchasesRepository e id draw) db).1 ≠
      .error (.conflict "Stock insuffisant") := by
  intro h
  obtain ⟨fresh, hagree⟩ := confirm_agree (shows_stock db) Stock.purchasesRepository e id draw
  unfold exec at h
  generalize DocumentMethods.confirm Stock.purchasesRepository e id draw db = x at h hagree
  generalize hy : Stock.purchasesRepository.confirm e id fresh db.stock = y at hagree
  cases hagree with
  | ok hR => cases h
  | error err =>
    cases h
    exact Stock.purchase_confirm_not_short hok hy

/-- After any calls of any enterprises, whatever else is written. -/
theorem stock_solvent (T : Texts) (events : List Event) : StockSolvent T (after T {} events) := by
  have hok := after_ledgerOk T events
  generalize after T {} events = db at hok
  refine ⟨fun id pre hpre => ?_, fun _ _ _ => getLevel_onHand hok,
    fun _ _ _ => findLevels_onHand hok, fun _ _ => purchase_not_short hok⟩
  have hprefix : pre.map StockMovement.toMovement <+: db.stock.movementsOf id := by
    rw [movementsOf_stock]
    exact hpre.map _
  rw [← balance_stock]
  exact hok.solvent id _ hprefix

end Gescom.Erp
