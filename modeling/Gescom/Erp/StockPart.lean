import Gescom.Erp.Documents

/-!
# The stock part of the database

`Gescom.Stock` has `applyMovement` and `confirm` over the columns that levels and statuses depend on;
here they run over the whole tables. `applyMovement_agree` and `confirm_agree`: over a database and its
stock part, both throw the same or both go through, to a database and its stock part.
-/

namespace Gescom.Erp

open Confinement
open Stock (DocumentRepository)

def Product.stock (p : Product) : Stock.Product := ⟨p.id, p.enterpriseId, p.trackStock⟩

def DocumentLine.stock (l : DocumentLine) : Stock.Line := ⟨l.productId, l.quantity, l.positive⟩

def Document.stock (d : Document) : Stock.Document where
  id := d.id
  enterpriseId := d.enterpriseId
  status := d.status
  lines := d.lines.map DocumentLine.stock
  confirmedAt := d.confirmedAt
  cancelledAt := d.cancelledAt

def MovementResult.stock (r : MovementResult) : Stock.CreateMovementResult where
  movement := r.movement.toMovement
  quantityOnHand := r.quantityOnHand
  created := r.created

/-- A row without the two fields that are no columns. -/
def stockColumns (d : Stock.Document) : Stock.Document := { d with version := 0, tracked := [] }

/-- `s` is the stock part of `db`. -/
structure Db.Shows (db : Db) (s : Stock.Db) : Prop where
  products : ∀ id, s.products.find? id = (db.products.find? id).map Product.stock
  documents : ∀ kind id, ((s.documents kind).find? id).map stockColumns =
    ((db.documents kind).find? id).map Document.stock
  movements : s.movements = db.movements.map StockMovement.toMovement
  now : s.now = db.now

theorem Product.stock_key (p : Product) : Keyed.key p.stock = Keyed.key p := rfl

theorem Document.stock_key (d : Document) : Keyed.key d.stock = Keyed.key d := rfl

def Db.stock (db : Db) : Stock.Db where
  products := db.products.map Product.stock Product.stock_key
  sales := db.sales.map Document.stock Document.stock_key
  purchases := db.purchases.map Document.stock Document.stock_key
  movements := db.movements.map StockMovement.toMovement
  now := db.now

/-- Every database has a stock part. -/
theorem shows_stock (db : Db) : db.Shows db.stock where
  products := Table.find?_map db.products Product.stock Product.stock_key
  documents kind id := by
    have hcolumns : ∀ t : Table Document, ((t.map Document.stock Document.stock_key).find? id).map
        stockColumns = (t.find? id).map Document.stock := by
      intro t
      rw [Table.find?_map, Option.map_map]
      rfl
    cases kind <;> exact hcolumns _
  movements := rfl
  now := rfl

/-- Both throw the same, or both return what `R` relates. -/
inductive Agree {α β : Type} (R : α → β → Prop) : Except ApiError α → Except ApiError β → Prop
  | ok {a : α} {b : β} (h : R a b) : Agree R (.ok a) (.ok b)
  | error (e : ApiError) : Agree R (.error e) (.error e)

section
variable {e id fresh : Uuid} {input : CreateStockMovementInput} {key : Option String}
  {origin : Option (DocKind × Uuid)} {db db' : Db} {s s' : Stock.Db} {r : DocumentRepository}
  {l : DocumentLine} {d : Document} {d' : Stock.Document}

/-! ## Reads -/

theorem Db.Shows.findByKey (h : db.Shows s) (k : String) :
    s.findByKey e k = (db.movementByKey e k).map StockMovement.toMovement := by
  unfold Stock.Db.findByKey Db.movementByKey
  rw [h.movements, List.find?_map]
  rfl

theorem Db.Shows.lookup (h : db.Shows s) (key : Option String) :
    key.bind (s.findByKey e) = (key.bind (db.movementByKey e)).map StockMovement.toMovement := by
  cases key with
  | none => rfl
  | some k => exact h.findByKey k

theorem Db.Shows.level (h : db.Shows s) (productId : Uuid) :
    s.level e productId = db.level e productId := by
  unfold Db.level Stock.Db.level Stock.Db.aggregateQuantities
  rw [h.movements]
  rfl

theorem Db.Shows.tracks (h : db.Shows s) (l : DocumentLine) :
    s.tracks l.productId = db.tracks l := by
  unfold Stock.Db.tracks Db.tracks
  rw [h.products]
  cases db.products.find? l.productId <;> rfl

/-! ## Movements -/

theorem Db.Shows.append (h : db.Shows s) (m : StockMovement) :
    Db.Shows { db with movements := db.movements ++ [m] }
      { s with movements := s.movements ++ [m.toMovement] } where
  products := h.products
  documents := h.documents
  movements := by simp [h.movements]
  now := h.now

theorem applyMovement_agree (h : db.Shows s) :
    Agree (fun x y => y.1 = x.1.stock ∧ x.2.Shows y.2)
      (applyMovement e input key origin fresh db) (Stock.applyMovement e input key origin fresh s) := by
  unfold applyMovement Stock.applyMovement
  rw [h.lookup]
  cases hfound : (truthy key).bind (db.movementByKey e) with
  | some existing =>
    exact .ok ⟨by simp [Stock.Db.replay, MovementResult.stock, h.level], h⟩
  | none =>
    rw [h.products]
    cases db.products.find? input.productId with
    | none => exact .error _
    | some product =>
      simp only [Option.map_none, Option.map_some, Product.stock, h.level]
      by_cases howner : product.enterpriseId = e
      · by_cases htracked : product.trackStock = true
        · by_cases hlow : db.level e input.productId + input.type.signed input.quantity < 0
          · simp only [howner, htracked, hlow, ne_eq, not_true_eq_false, if_false, if_true,
              Bool.not_true, Bool.false_eq_true]
            exact .error _
          · simp only [howner, htracked, hlow, ne_eq, not_true_eq_false, if_false, Bool.not_true,
              Bool.false_eq_true, Stock.Db.insertMovement, h.lookup, Option.isSome_map]
            split
            · exact .error _
            · exact .ok ⟨rfl, h.append _⟩
        · simp only [howner, htracked, ne_eq, not_true_eq_false, if_false, if_true, Bool.not_false]
          exact .error _
      · simp only [howner, ne_eq, not_false_eq_true, if_true]
        exact .error _

/-- A movement leaves the other tables alone. -/
theorem applyMovement_movements {result : MovementResult}
    (h : applyMovement e input key origin fresh db = .ok (result, db')) :
    ∃ ms, db' = { db with movements := ms } := by
  rcases applyMovement_ok h with ⟨rfl, -⟩ | ⟨-, -, -, -, -, -, -, -, rfl⟩
  · exact ⟨_, rfl⟩
  · exact ⟨_, rfl⟩

/-! ## The loop of `confirm` -/

theorem confirmLine_agree (h : db.Shows s) (htracks : db.tracks l = true) :
    Agree (fun x s' => x.2.Shows s' ∧ ∃ ms, x.2 = { db with movements := ms })
      (DocumentMethods.confirmLine r e id fresh l db) (r.confirmLine e id fresh l.stock s) := by
  have hstock : s.tracks l.stock.productId = true := (h.tracks l).trans htracks
  unfold DocumentRepository.confirmLine
  rw [if_pos hstock]
  have hagree : Agree _
      (applyMovement e (r.movementFor id l.stock) none (some (r.kind, id)) fresh db)
      (Stock.applyMovement e (r.movementFor id l.stock) none (some (r.kind, id)) fresh s) :=
    applyMovement_agree h
  generalize hx : applyMovement e (r.movementFor id l.stock) none (some (r.kind, id)) fresh db = x
    at hagree
  generalize Stock.applyMovement e (r.movementFor id l.stock) none (some (r.kind, id)) fresh s = y
    at hagree
  cases hagree with
  | ok hR =>
    rw [show DocumentMethods.confirmLine r e id fresh l db = _ from
      bind_of_ok (f := fun _ => pure ()) hx]
    exact .ok ⟨hR.2, applyMovement_movements hx⟩
  | error e' =>
    rw [show DocumentMethods.confirmLine r e id fresh l db = _ from
      bind_of_error (f := fun _ => pure ()) hx]
    exact .error e'

/-- The identifiers that the loop draws are those below the number of its lines. -/
theorem confirmLines_congr {draw draw' : Nat → Uuid} {ls : List Stock.Line}
    (h : ∀ n < ls.length, draw n = draw' n) :
    r.confirmLines e id draw ls s = r.confirmLines e id draw' ls s := by
  induction ls generalizing s with
  | nil => rfl
  | cons l ls ih =>
    unfold DocumentRepository.confirmLines
    rw [h ls.length (Nat.lt_succ_self _)]
    cases r.confirmLine e id (draw' ls.length) l s with
    | error e' => rfl
    | ok s' => exact ih fun n hn => h n (Nat.lt_succ_of_lt hn)

/-- One turn of the loop, the line with its place among the tracked ones. -/
abbrev turn (r : DocumentRepository) (e id : Uuid) (draw : Draw) (l : DocumentLine × Nat) :
    Transaction Unit := DocumentMethods.confirmLine r e id (draw.lineId l.2) l.1

/-- The loop over the tracked lines, and the one that skips the others. -/
theorem confirmLines_agree (r : DocumentRepository) (e id : Uuid) (draw : Draw)
    (tracked : DocumentLine → Bool) (ls : List DocumentLine) (n : Nat) (h : db.Shows s)
    (htracked : ∀ l, db.tracks l = tracked l) :
    ∃ fresh, Agree (fun x s' => x.2.Shows s' ∧ ∃ ms, x.2 = { db with movements := ms })
      (((ls.filter tracked).zipIdx n).forM (turn r e id draw) db)
      (r.confirmLines e id fresh (ls.map DocumentLine.stock) s) := by
  induction ls generalizing db s n with
  | nil => exact ⟨draw.lineId, .ok ⟨h, _, rfl⟩⟩
  | cons l ls ih =>
    by_cases hl : tracked l = true
    · have hloop : (((l :: ls).filter tracked).zipIdx n).forM (turn r e id draw) =
          (turn r e id draw (l, n) >>= fun _ =>
            ((ls.filter tracked).zipIdx (n + 1)).forM (turn r e id draw)) := by
        rw [List.filter_cons_of_pos hl, List.zipIdx_cons]
        rfl
      have hline : Agree _ (DocumentMethods.confirmLine r e id (draw.lineId n) l db)
          (r.confirmLine e id (draw.lineId n) l.stock s) :=
        confirmLine_agree h ((htracked l).trans hl)
      rw [hloop, List.map_cons]
      generalize hx : DocumentMethods.confirmLine r e id (draw.lineId n) l db = x at hline
      generalize hy : r.confirmLine e id (draw.lineId n) l.stock s = y at hline
      cases hline with
      | error e' =>
        refine ⟨fun _ => draw.lineId n, ?_⟩
        rw [DocumentRepository.confirmLines, hy, bind_of_error hx]
        exact .error e'
      | @ok x s' hR =>
        obtain ⟨hshows, ms, hms⟩ := hR
        obtain ⟨fresh, hrest⟩ := ih (n + 1) hshows fun l' => by
          rw [hms]
          exact htracked l'
        -- the turns after this one draw from smaller places
        let fresh' := Function.update fresh (ls.map DocumentLine.stock).length (draw.lineId n)
        have hstock : r.confirmLines e id fresh' (ls.map DocumentLine.stock) s' =
            r.confirmLines e id fresh (ls.map DocumentLine.stock) s' :=
          confirmLines_congr fun k hk => Function.update_of_ne (Nat.ne_of_lt hk) _ _
        refine ⟨fresh', ?_⟩
        rw [DocumentRepository.confirmLines, show fresh' _ = draw.lineId n from Function.update_self .., hy,
          bind_of_ok hx]
        simp only [hstock]
        rw [hms] at hrest ⊢
        exact hrest
    · obtain ⟨fresh, hrest⟩ := ih n h htracked
      refine ⟨fresh, ?_⟩
      have hstock : s.tracks l.stock.productId = false := by
        rw [show l.stock.productId = l.productId from rfl, h.tracks, htracked]
        simpa using hl
      rw [List.filter_cons_of_neg hl, List.map_cons, DocumentRepository.confirmLines,
        DocumentRepository.confirmLine, if_neg (by simp [hstock])]
      exact hrest

/-! ## `confirm` -/

theorem Db.Shows.none (h : db.Shows s) {kind : DocKind}
    (hnone : (db.documents kind).find? id = Option.none) : (s.documents kind).find? id = Option.none := by
  have hdocument := h.documents kind id
  rw [hnone] at hdocument
  simpa using hdocument

theorem Db.Shows.some (h : db.Shows s) {kind : DocKind}
    (hsome : (db.documents kind).find? id = Option.some d) :
    ∃ d', (s.documents kind).find? id = Option.some d' ∧ stockColumns d' = d.stock := by
  have hdocument := h.documents kind id
  rw [hsome] at hdocument
  exact Option.map_eq_some_iff.1 hdocument

theorem documents_setDocuments (db : Db) (kind kind' : DocKind) (t : Table Document) :
    (db.setDocuments kind t).documents kind' = if kind' = kind then t else db.documents kind' := by
  cases kind <;> cases kind' <;> rfl

theorem confirm_key (now : Instant) (d : Document) : Keyed.key (d.confirm now) = Keyed.key d := rfl

theorem stockColumns_confirm (now : Instant) (tracked : List Uuid) (h : stockColumns d' = d.stock) :
    stockColumns (d'.confirm now tracked) = (d.confirm now).stock := by
  have hconfirm : stockColumns (d'.confirm now tracked) =
      { stockColumns d' with status := .confirmed, confirmedAt := Option.some now } := rfl
  rw [hconfirm, h]
  rfl

/-- The update of the status. -/
theorem Db.Shows.confirm (h : db.Shows s) (kind : DocKind) (id : Uuid) (now : Instant)
    (tracked : List Uuid) :
    Db.Shows
      (db.setDocuments kind ((db.documents kind).update id (Document.confirm now) (confirm_key now)))
      (s.updateDocument kind id (Stock.Document.confirm now tracked) (Stock.confirm_id _ _)) where
  products := by
    rw [Stock.updateDocument_products]
    cases kind <;> exact h.products
  movements := by
    rw [Stock.updateDocument_movements]
    cases kind <;> exact h.movements
  now := by cases kind <;> exact h.now
  documents kind' id' := by
    rw [Stock.updateDocument_documents, documents_setDocuments]
    by_cases hkind : kind' = kind
    · rw [if_pos hkind, if_pos hkind, Table.find?_update, Table.find?_update]
      by_cases hid : id' = id
      · rw [if_pos hid, if_pos hid]
        have hdocument := h.documents kind id
        cases hd : (db.documents kind).find? id with
        | none => rw [h.none hd]; rfl
        | some d =>
          obtain ⟨d', hd', hcolumns⟩ := h.some hd
          rw [hd']
          exact congrArg Option.some (stockColumns_confirm now tracked hcolumns)
      · rw [if_neg hid, if_neg hid]
        exact h.documents kind id'
    · rw [if_neg hkind, if_neg hkind]
      exact h.documents kind' id'

/-- What the first read of `confirm` finds. -/
structure Db.Finds (db : Db) (s : Stock.Db) (kind : DocKind) (id : Uuid)
    (found : Document × List DocumentLine) (d' : Stock.Document) : Prop where
  row : (db.documents kind).find? id = Option.some found.1
  columns : stockColumns d' = found.1.stock
  tracked : found.2 = found.1.lines.filter db.tracks

theorem getOrThrow_agree (h : db.Shows s) (r : DocumentRepository) (e id : Uuid) :
    Agree (fun x d' => x.2 = db ∧ db.Finds s r.kind id x.1 d')
      (DocumentMethods.getWithTracked r e id db) (r.getOrThrow s e id) := by
  have hget : ∀ found : Except ApiError Document,
      (documents r.kind).findOwned r.notFound e id db = found →
      DocumentMethods.getWithTracked r e id db =
        found.map fun d => ((d, d.lines.filter db.tracks), db) := by
    rintro found rfl
    simp only [DocumentMethods.getWithTracked, ask]
    cases (documents r.kind).findOwned r.notFound e id db <;> rfl
  unfold DocumentRepository.getOrThrow
  cases hd : (db.documents r.kind).find? id with
  | none =>
    rw [h.none hd, hget (.error (.notFound r.notFound)) (by simp only [TenantTable.findOwned, documents, hd])]
    exact .error _
  | some d =>
    obtain ⟨d', hd', hcolumns⟩ := h.some hd
    have howner : d'.enterpriseId = d.enterpriseId := congrArg Stock.Document.enterpriseId hcolumns
    rw [hd']
    by_cases heq : d.enterpriseId = e
    · rw [hget (.ok d) (by simp [TenantTable.findOwned, documents, hd, heq])]
      simp only [howner, heq, ne_eq, not_true_eq_false, if_false]
      exact .ok ⟨rfl, hd, hcolumns, rfl⟩
    · rw [hget (.error (.notFound r.notFound)) (by simp [TenantTable.findOwned, documents, hd, heq])]
      simp only [howner, heq, ne_eq, not_false_eq_true, if_true]
      exact .error _

/-- The last statement of `confirm`. -/
theorem update_confirm {kind : DocKind} (hd : (db.documents kind).find? id = Option.some d) :
    (documents kind).update id Document.confirm (fun _ _ => rfl) db = .ok (d.confirm db.now,
      db.setDocuments kind ((db.documents kind).update id (Document.confirm db.now)
        (confirm_key db.now))) := by
  unfold TenantTable.update
  have hfind : ((documents kind).get db).find? id = Option.some d := hd
  rw [hfind]
  exact if_neg (by simp [documents])

/-- Whatever identifiers `confirm` draws, there are some with which the stock model does the same. -/
theorem confirm_agree (h : db.Shows s) (r : DocumentRepository) (e id : Uuid) (draw : Draw) :
    ∃ fresh, Agree (fun x s' => x.2.Shows s') (DocumentMethods.confirm r e id draw db)
      (r.confirm e id fresh s) := by
  unfold DocumentMethods.confirm DocumentRepository.confirm
  have hread := getOrThrow_agree h r e id
  generalize hx : DocumentMethods.getWithTracked r e id db = x at hread
  generalize r.getOrThrow s e id = y at hread
  cases hread with
  | error e' =>
    rw [bind_of_error hx]
    exact ⟨draw.lineId, .error e'⟩
  | @ok x d' hR =>
    obtain ⟨⟨d, tracked⟩, db₁⟩ := x
    obtain ⟨hdb, hfinds⟩ := hR
    obtain rfl : db₁ = db := hdb
    obtain rfl : tracked = d.lines.filter db₁.tracks := hfinds.tracked
    have hstatus : d'.status = d.status := congrArg Stock.Document.status hfinds.columns
    have hlines : d'.lines = d.lines.map DocumentLine.stock :=
      congrArg Stock.Document.lines hfinds.columns
    have hid : d.id = id := Table.key_of_find? hfinds.row
    rw [bind_of_ok hx]
    simp only [hstatus, hlines]
    by_cases hdraft : d.status = .draft
    · simp only [hdraft, ne_eq, not_true_eq_false, if_false, hid]
      obtain ⟨fresh, hloop⟩ := confirmLines_agree r e id draw db₁.tracks d.lines 0 h fun _ => rfl
      refine ⟨fresh, ?_⟩
      generalize hy : ((d.lines.filter db₁.tracks).zipIdx 0).forM (turn r e id draw) db₁ = y at hloop
      generalize r.confirmLines e id fresh (d.lines.map DocumentLine.stock) s = y' at hloop
      cases hloop with
      | error e' =>
        have hthrow : ((d.lines.filter db₁.tracks).zipIdx.forM fun l =>
            DocumentMethods.confirmLine r e id (draw.lineId l.2) l.1) db₁ = .error e' := hy
        rw [bind_of_error hthrow]
        exact .error e'
      | ok hR =>
        obtain ⟨hshows, ms, hms⟩ := hR
        have hrow : (({ db₁ with movements := ms } : Db).documents r.kind).find? id = Option.some d :=
          hfinds.row
        have hdone : ((d.lines.filter db₁.tracks).zipIdx.forM fun l =>
            DocumentMethods.confirmLine r e id (draw.lineId l.2) l.1) db₁ = _ := hy
        rw [bind_of_ok hdone, hms, bind_of_ok (update_confirm hrow)]
        rw [hms] at hshows
        rw [h.now]
        exact .ok (hshows.confirm r.kind id db₁.now _)
    · simp only [hdraft, ne_eq, not_false_eq_true, if_true]
      exact ⟨draw.lineId, .error _⟩

end

end Gescom.Erp
