import Gescom.Erp.NonInterference
import Gescom.Stock.Levels

/-!
# Confirming a sale (`sales.repository.ts:226`)

`confirm` applies one `OUT` movement for each line whose product tracks stock, each checked against
the level the lines before it have left. `confirm_all_or_nothing` says what that comes to: one
condition for each product on the sum of its lines, whatever their order.
-/

namespace Gescom.Erp

open Confinement Ledger

/-- `product.trackStock` of a product by its identifier. -/
def Db.tracksProduct (db : Db) (productId : Uuid) : Bool :=
  (db.products.find? productId).any Product.trackStock

/-- What the lines of a document ask of a product. -/
def Document.ordered (d : Document) (productId : Uuid) : Int :=
  ((d.lines.filter fun l => l.productId = productId).map DocumentLine.quantity).sum

/-- The lines that move stock. -/
def Db.withdrawals (db : Db) (d : Document) : List (Uuid × Int) :=
  (d.lines.filter db.tracks).map fun l => (l.productId, l.quantity)

/-- The current levels cover what the document asks for. -/
def Db.Suffices (db : Db) (e : Uuid) (d : Document) : Prop :=
  ∀ l ∈ d.lines, db.tracksProduct l.productId = true →
    d.ordered l.productId ≤ db.level e l.productId

/-- The sale `id` with its lines in another order. -/
def Db.reorder (id : Uuid) (lines : List DocumentLine) (db : Db) : Db :=
  { db with sales := db.sales.update id (fun d => { d with lines := lines }) fun _ => rfl }

/-- A call of `confirm` on a sale with nobody else writing: its answer, and the database after it. -/
def confirmSale (e id : Uuid) (draw : Draw) : Run Db (Except ApiError DocumentView) :=
  exec (DocumentMethods.confirm Stock.salesRepository e id draw)

/-- What `confirm` does to the draft sale `d`. -/
structure AllOrNothing (e : Uuid) (draw : Draw) (d : Document) (db : Db) : Prop where
  succeeds : (∃ view, (confirmSale e d.id draw db).1 = .ok view) ↔ db.Suffices e d
  levels : db.Suffices e d → ∀ productId, (confirmSale e d.id draw db).2.level e productId =
    db.level e productId - if db.tracksProduct productId then d.ordered productId else 0
  untracked : db.Suffices e d → ∀ productId, db.tracksProduct productId = false →
    (confirmSale e d.id draw db).2.movements.filter (·.productId = productId) =
      db.movements.filter (·.productId = productId)
  confirmed : db.Suffices e d →
    (confirmSale e d.id draw db).2.sales.find? d.id = some (d.confirm db.now)
  refused : ¬ db.Suffices e d →
    confirmSale e d.id draw db = (.error (.conflict "Stock insuffisant"), db)
  anyOrder : ∀ lines draw', lines.Perm d.lines →
    ((∃ view, (confirmSale e d.id draw' (db.reorder d.id lines)).1 = .ok view) ↔
      ∃ view, (confirmSale e d.id draw db).1 = .ok view) ∧
    ∀ productId, (confirmSale e d.id draw' (db.reorder d.id lines)).2.level e productId =
      (confirmSale e d.id draw db).2.level e productId

/-! ## Levels -/

section
variable {e id docId fresh productId : Uuid} {db db' : Db} {d : Document} {draw : Draw}
  {l : DocumentLine}

theorem level_eq (db : Db) (e productId : Uuid) :
    db.level e productId = balance (fun m : StockMovement => m.delta)
      (db.movements.filter fun m => m.productId = productId ∧ m.enterpriseId = e) := by
  have hstock : db.level e productId = balance Stock.Movement.delta
      ((db.ledger.movementsOf productId).filter fun m => m.enterpriseId = e) :=
    Stock.aggregate_eq db.ledger e productId (List.mem_singleton.2 rfl)
  rw [hstock, balance_eq_sum, balance_eq_sum, Stock.Db.movementsOf, List.filter_filter]
  simp only [Db.ledger, List.filter_map, List.map_map]
  refine congrArg (fun ms => (List.map (fun m : StockMovement => m.delta) ms).sum)
    (List.filter_congr fun m _ => ?_)
  simp [Function.comp, and_comm]

/-- The row a line of sale `docId` inserts. -/
def lineMovement (e docId fresh : Uuid) (l : DocumentLine) (now : Instant) : StockMovement where
  id := fresh
  enterpriseId := e
  productId := l.productId
  type := .out
  quantity := l.quantity
  note := some ("Vente " ++ uuidText docId)
  idempotencyKey := none
  origin := some (.sale, docId)
  createdAt := now

def Db.append (db : Db) (ms : List StockMovement) : Db :=
  { db with movements := db.movements ++ ms }

/-- One more withdrawal. -/
theorem level_append (now : Instant) :
    (db.append [lineMovement e docId fresh l now]).level e =
      Function.update (db.level e) l.productId (db.level e l.productId - l.quantity) := by
  funext productId
  rw [level_eq, Db.append, List.filter_append, balance_append, ← level_eq]
  by_cases hp : productId = l.productId
  · subst hp
    rw [Function.update_self]
    simp [lineMovement, Stock.Movement.delta, Stock.MovementType.signed]
    omega
  · rw [Function.update_of_ne hp]
    have hother : ([lineMovement e docId fresh l now].filter fun m =>
        m.productId = productId ∧ m.enterpriseId = e) = [] := by
      simp [lineMovement, Ne.symm hp]
    rw [hother]
    simp [balance]

/-! ## The loop -/

/-- The product of the line is one of the enterprise's that tracks stock. -/
def Db.Movable (db : Db) (e : Uuid) (l : DocumentLine) : Prop :=
  ∃ product, db.products.find? l.productId = some product ∧ product.enterpriseId = e ∧
    product.trackStock = true

theorem confirmLine_eq (docId fresh : Uuid) (h : db.Movable e l) :
    DocumentMethods.confirmLine Stock.salesRepository e docId fresh l db =
      if db.level e l.productId - l.quantity < 0 then .error (.conflict "Stock insuffisant")
      else .ok ((), db.append [lineMovement e docId fresh l db.now]) := by
  obtain ⟨product, hfind, howner, htracks⟩ := h
  have happly : applyMovement e
      (Stock.salesRepository.movementFor docId ⟨l.productId, l.quantity, l.positive⟩) none
      (some (Stock.salesRepository.kind, docId)) fresh db =
      if db.level e l.productId - l.quantity < 0 then .error (.conflict "Stock insuffisant")
      else .ok (⟨lineMovement e docId fresh l db.now, db.level e l.productId - l.quantity, true⟩,
        db.append [lineMovement e docId fresh l db.now]) := by
    have hfind' : db.products.find? (Stock.salesRepository.movementFor docId
        ⟨l.productId, l.quantity, l.positive⟩).productId = some product := hfind
    have hdelta : db.level e l.productId + Stock.MovementType.out.signed l.quantity =
        db.level e l.productId - l.quantity := by
      simp [Stock.MovementType.signed]
      omega
    unfold applyMovement
    rw [show (truthy none).bind (db.movementByKey e) = none from rfl]
    simp only [hfind', howner, ne_eq, not_true_eq_false, if_false, htracks, Bool.not_true,
      Bool.false_eq_true, Option.bind_none, Option.isSome_none]
    simp only [Stock.DocumentRepository.movementFor, Stock.salesRepository, hdelta]
    rfl
  unfold DocumentMethods.confirmLine
  split
  · rename_i hlow
    rw [if_pos hlow] at happly
    exact bind_of_error (f := fun _ => pure ()) happly
  · rename_i hlow
    rw [if_neg hlow] at happly
    exact bind_of_ok (f := fun _ => pure ()) happly

/-- The movements of the loop, in its order. -/
def lineMovements (e docId : Uuid) (draw : Draw) (now : Instant) (ls : List (DocumentLine × Nat)) :
    List StockMovement :=
  ls.map fun l => lineMovement e docId (draw.lineId l.2) l.1 now

def lineWithdrawals (ls : List (DocumentLine × Nat)) : List (Uuid × Int) :=
  ls.map fun l => (l.1.productId, l.1.quantity)

/-- The loop makes the withdrawals of its lines, one after the other. -/
theorem confirmLines_eq (docId : Uuid) (draw : Draw) {ls : List (DocumentLine × Nat)}
    (h : ∀ l ∈ ls, db.Movable e l.1) :
    (ls.forM fun l => DocumentMethods.confirmLine Stock.salesRepository e docId (draw.lineId l.2)
        l.1) db =
      match withdrawAll (db.level e) (lineWithdrawals ls) with
      | none => .error (.conflict "Stock insuffisant")
      | some _ => .ok ((), db.append (lineMovements e docId draw db.now ls)) := by
  induction ls generalizing db with
  | nil =>
    simp only [lineMovements, lineWithdrawals, withdrawAll, Db.append, List.map_nil,
      List.append_nil]
    rfl
  | cons l ls ih =>
    have hline := confirmLine_eq docId (draw.lineId l.2) (h l List.mem_cons_self)
    have hcons : withdrawAll (db.level e) (lineWithdrawals (l :: ls)) =
        if db.level e l.1.productId - l.1.quantity < 0 then none
        else withdrawAll (Function.update (db.level e) l.1.productId
          (db.level e l.1.productId - l.1.quantity)) (lineWithdrawals ls) := rfl
    rw [hcons]
    by_cases hlow : db.level e l.1.productId - l.1.quantity < 0
    · rw [if_pos hlow] at hline
      rw [if_pos hlow]
      exact bind_of_error hline
    · rw [if_neg hlow] at hline
      have hrest : ∀ x ∈ ls, (db.append [lineMovement e docId (draw.lineId l.2) l.1 db.now]).Movable
          e x.1 := fun x hx => h x (List.mem_cons_of_mem _ hx)
      have hturn := ih hrest
      rw [level_append] at hturn
      rw [if_neg hlow]
      refine (bind_of_ok hline).trans (hturn.trans ?_)
      cases withdrawAll _ (lineWithdrawals ls) with
      | none => rfl
      | some q => simp [Db.append, lineMovements]

/-- The levels that the loop leaves. -/
theorem level_lineMovements (db : Db) (e docId : Uuid) (draw : Draw) (now : Instant)
    (ls : List (DocumentLine × Nat)) (productId : Uuid) :
    (db.append (lineMovements e docId draw now ls)).level e productId =
      db.level e productId - drawn (lineWithdrawals ls) productId := by
  induction ls generalizing db with
  | nil => simp [lineMovements, lineWithdrawals, Db.append, drawn]
  | cons l ls ih =>
    have hsplit : db.append (lineMovements e docId draw now (l :: ls)) =
        (db.append [lineMovement e docId (draw.lineId l.2) l.1 now]).append
          (lineMovements e docId draw now ls) := by
      simp [Db.append, lineMovements]
    have hdrawn : drawn (lineWithdrawals (l :: ls)) productId =
        (if l.1.productId = productId then l.1.quantity else 0) +
          drawn (lineWithdrawals ls) productId := drawn_cons ..
    rw [hsplit, ih, level_append, hdrawn]
    by_cases hp : l.1.productId = productId
    · rw [if_pos hp, ← hp, Function.update_self]
      omega
    · rw [if_neg hp, Function.update_of_ne (Ne.symm hp)]
      omega

/-! ## The whole call -/

/-- A draft sale of `e`, as the database has it. -/
structure Db.HasDraft (db : Db) (e : Uuid) (d : Document) : Prop where
  found : db.sales.find? d.id = some d
  owner : d.enterpriseId = e
  draft : d.status = .draft
  lines : ∀ l ∈ d.lines, Owns db.products Product.enterpriseId e l.productId

theorem lineWithdrawals_zipIdx (ls : List DocumentLine) :
    lineWithdrawals ls.zipIdx = ls.map fun l => (l.productId, l.quantity) := by
  have hmap : lineWithdrawals ls.zipIdx =
      (ls.zipIdx.map Prod.fst).map fun l => (l.productId, l.quantity) := by
    rw [List.map_map]
    rfl
  rw [hmap, List.zipIdx_map_fst]

theorem tracks_eq (db : Db) (l : DocumentLine) : db.tracks l = db.tracksProduct l.productId := rfl

theorem drawn_withdrawals (db : Db) (d : Document) (productId : Uuid) :
    drawn (db.withdrawals d) productId =
      if db.tracksProduct productId then d.ordered productId else 0 := by
  have hfilter : ((db.withdrawals d).filter fun w => w.1 = productId) =
      ((d.lines.filter fun l => l.productId = productId).filter fun _ =>
        db.tracksProduct productId).map fun l => (l.productId, l.quantity) := by
    rw [Db.withdrawals, List.filter_map, List.filter_filter, List.filter_filter]
    refine congrArg _ (List.filter_congr fun l _ => ?_)
    by_cases hp : l.productId = productId
    · subst hp
      simp [tracks_eq]
    · simp [hp]
  rw [drawn, hfilter, List.map_map, Document.ordered]
  cases db.tracksProduct productId with
  | true =>
    simp only [List.filter_true, if_true]
    rfl
  | false => simp

/-- The condition of the loop, said of each product. -/
theorem covers_withdrawals (db : Db) (e : Uuid) (d : Document) :
    Covers (db.level e) (db.withdrawals d) ↔ db.Suffices e d := by
  constructor
  · intro h l hl htracks
    have hmem : (l.productId, l.quantity) ∈ db.withdrawals d :=
      List.mem_map.2 ⟨l, List.mem_filter.2 ⟨hl, htracks⟩, rfl⟩
    have := h _ hmem
    rwa [drawn_withdrawals, if_pos htracks] at this
  · intro h w hw
    obtain ⟨l, hl, rfl⟩ := List.mem_map.1 hw
    obtain ⟨hmem, htracks⟩ := List.mem_filter.1 hl
    rw [drawn_withdrawals]
    simp only
    rw [if_pos (show db.tracksProduct l.productId = true from htracks)]
    exact h l hmem htracks

theorem withdrawals_nonneg (db : Db) (d : Document) : ∀ w ∈ db.withdrawals d, 0 ≤ w.2 := by
  intro w hw
  obtain ⟨l, -, rfl⟩ := List.mem_map.1 hw
  exact Int.le_of_lt l.positive

theorem Db.HasDraft.movable (h : db.HasDraft e d) :
    ∀ l ∈ (d.lines.filter db.tracks).zipIdx, db.Movable e l.1 := by
  intro l hl
  have hmem : l.1 ∈ d.lines.filter db.tracks := by
    rw [← List.zipIdx_map_fst 0 (d.lines.filter db.tracks)]
    exact List.mem_map_of_mem hl
  obtain ⟨hline, htracks⟩ := List.mem_filter.1 hmem
  obtain ⟨product, hfind, howner⟩ := h.lines l.1 hline
  refine ⟨product, hfind, howner, ?_⟩
  rwa [tracks_eq, Db.tracksProduct, hfind] at htracks

/-- Up to the loop. -/
theorem confirm_loop (h : db.HasDraft e d) :
    DocumentMethods.confirm Stock.salesRepository e d.id draw db =
      (do
        (d.lines.filter db.tracks).zipIdx.forM fun l =>
          DocumentMethods.confirmLine Stock.salesRepository e d.id (draw.lineId l.2) l.1
        let confirmed ← (documents .sale).update d.id Document.confirm fun _ _ => rfl
        viewOf .sale confirmed : Transaction DocumentView) db := by
  have hfound : DocumentMethods.getWithTracked Stock.salesRepository e d.id db =
      .ok ((d, d.lines.filter db.tracks), db) := by
    refine ask_of_ok ?_
    have howned : (documents .sale).findOwned Stock.salesRepository.notFound e d.id db = .ok d := by
      have hfind : ((documents .sale).get db).find? d.id = some d := h.found
      simp only [TenantTable.findOwned, hfind]
      exact if_neg (not_not.2 h.owner)
    have hkind : Stock.salesRepository.kind = .sale := rfl
    rw [hkind, howned]
    rfl
  unfold DocumentMethods.confirm
  rw [bind_of_ok hfound]
  simp only [h.draft, ne_eq, not_true_eq_false, if_false]
  rfl

/-- The database after a call that succeeds. -/
def confirmedDb (e : Uuid) (draw : Draw) (d : Document) (db : Db) : Db :=
  { db with
    movements := db.movements ++
      lineMovements e d.id draw db.now (d.lines.filter db.tracks).zipIdx
    sales := db.sales.update d.id (Document.confirm db.now) fun _ => rfl }

theorem confirmSale_ok (draw : Draw) (h : db.HasDraft e d) (hs : db.Suffices e d) :
    ∃ view, confirmSale e d.id draw db = (.ok view, confirmedDb e draw d db) := by
  have hcovers : Covers (db.level e) (lineWithdrawals (d.lines.filter db.tracks).zipIdx) := by
    rw [lineWithdrawals_zipIdx]
    exact (covers_withdrawals db e d).2 hs
  have hall := withdrawAll_covers
    (by rw [lineWithdrawals_zipIdx]; exact withdrawals_nonneg db d) hcovers
  have hloop := confirmLines_eq d.id draw h.movable
  rw [hall] at hloop
  have hupdate : (documents .sale).update d.id Document.confirm (fun _ _ => rfl)
      (db.append (lineMovements e d.id draw db.now (d.lines.filter db.tracks).zipIdx)) =
      .ok (d.confirm db.now, confirmedDb e draw d db) := by
    have hfind : ((documents .sale).get (db.append (lineMovements e d.id draw db.now
        (d.lines.filter db.tracks).zipIdx))).find? d.id = some d := h.found
    simp only [TenantTable.update, hfind]
    rw [if_neg (by simp [documents])]
    rfl
  refine ⟨(confirmedDb e draw d db).documentView .sale (d.confirm db.now), ?_⟩
  rw [confirmSale, exec, confirm_loop h, bind_of_ok hloop, bind_of_ok hupdate]
  rfl

theorem confirmSale_error (draw : Draw) (h : db.HasDraft e d) (hs : ¬ db.Suffices e d) :
    confirmSale e d.id draw db = (.error (.conflict "Stock insuffisant"), db) := by
  have hcovers : ¬ Covers (db.level e) (lineWithdrawals (d.lines.filter db.tracks).zipIdx) := by
    rw [lineWithdrawals_zipIdx]
    exact fun hc => hs ((covers_withdrawals db e d).1 hc)
  have hall := withdrawAll_not_covers
    (by rw [lineWithdrawals_zipIdx]; exact withdrawals_nonneg db d) hcovers
  have hloop := confirmLines_eq d.id draw h.movable
  rw [hall] at hloop
  rw [confirmSale, exec, confirm_loop h, bind_of_error hloop]

theorem confirmSale_succeeds (h : db.HasDraft e d) :
    (∃ view, (confirmSale e d.id draw db).1 = .ok view) ↔ db.Suffices e d := by
  constructor
  · rintro ⟨view, hview⟩
    by_contra hs
    rw [confirmSale_error draw h hs] at hview
    cases hview
  · intro hs
    obtain ⟨view, hok⟩ := confirmSale_ok draw h hs
    exact ⟨view, by rw [hok]⟩

/-- The level a call leaves: what the tracked lines ask for is gone, if it succeeds. -/
theorem level_confirmSale (h : db.HasDraft e d) (hs : db.Suffices e d) (productId : Uuid) :
    (confirmSale e d.id draw db).2.level e productId =
      db.level e productId - if db.tracksProduct productId then d.ordered productId else 0 := by
  obtain ⟨view, hok⟩ := confirmSale_ok draw h hs
  rw [hok]
  have hlevel := level_lineMovements db e d.id draw db.now
    (d.lines.filter db.tracks).zipIdx productId
  rw [lineWithdrawals_zipIdx] at hlevel
  have hdrawn : drawn ((d.lines.filter db.tracks).map fun l => (l.productId, l.quantity)) productId =
      if db.tracksProduct productId then d.ordered productId else 0 :=
    drawn_withdrawals db d productId
  rw [hdrawn] at hlevel
  exact hlevel

theorem movements_untracked (h : db.HasDraft e d) (hs : db.Suffices e d)
    (hp : db.tracksProduct productId = false) :
    (confirmSale e d.id draw db).2.movements.filter (·.productId = productId) =
      db.movements.filter (·.productId = productId) := by
  obtain ⟨view, hok⟩ := confirmSale_ok draw h hs
  have hnone : (lineMovements e d.id draw db.now (d.lines.filter db.tracks).zipIdx).filter
      (·.productId = productId) = [] := by
    refine List.filter_eq_nil_iff.2 fun m hm => ?_
    obtain ⟨l, hl, rfl⟩ := List.mem_map.1 hm
    obtain ⟨product, hfind, -, htracks⟩ := h.movable l hl
    intro hsame
    have hid : l.1.productId = productId := of_decide_eq_true hsame
    subst hid
    rw [Db.tracksProduct, hfind, Option.any_some, htracks] at hp
    cases hp
  rw [hok]
  simp only [confirmedDb, List.filter_append, hnone, List.append_nil]

/-! ## The order of the lines -/

theorem ordered_perm {lines : List DocumentLine} (h : lines.Perm d.lines) (productId : Uuid) :
    { d with lines := lines }.ordered productId = d.ordered productId :=
  ((h.filter _).map _).sum_eq

theorem Db.HasDraft.reorder {lines : List DocumentLine} (h : db.HasDraft e d)
    (hperm : lines.Perm d.lines) :
    (db.reorder d.id lines).HasDraft e { d with lines := lines } where
  found := by
    simp only [Db.reorder, Table.find?_update, if_true, h.found, Option.map_some]
  owner := h.owner
  draft := h.draft
  lines l hl := h.lines l (hperm.mem_iff.1 hl)

theorem suffices_reorder (db : Db) (e : Uuid) {lines : List DocumentLine}
    (hperm : lines.Perm d.lines) :
    (db.reorder d.id lines).Suffices e { d with lines := lines } ↔ db.Suffices e d := by
  have hlevel : ∀ p, (db.reorder d.id lines).level e p = db.level e p := fun _ => rfl
  simp only [Db.Suffices, hperm.mem_iff, ordered_perm hperm, hlevel]
  rfl

end

/-- A draft sale of any lines, in a database that calls lead to. -/
theorem confirm_all_or_nothing {T : Texts} {db : Db} (hr : Reached T db) (e : Uuid) (draw : Draw)
    {d : Document} (hfound : db.sales.find? d.id = some d) (howner : d.enterpriseId = e)
    (hdraft : d.status = .draft) : AllOrNothing e draw d db := by
  have h : db.HasDraft e d := by
    have hrefs : d.RefsOk db .sale := hr.intact.documents .sale d (Table.mem_of_find? hfound)
    exact ⟨hfound, howner, hdraft, fun l hl => howner ▸ hrefs.lines l hl⟩
  refine ⟨confirmSale_succeeds h, level_confirmSale h, fun hs p hp => movements_untracked h hs hp,
    fun hs => ?_, confirmSale_error draw h, fun lines draw' hperm => ⟨?_, fun p => ?_⟩⟩
  · obtain ⟨view, hok⟩ := confirmSale_ok draw h hs
    have hrow := db.sales.find?_update d.id d.id (Document.confirm db.now) fun _ => rfl
    rw [if_pos rfl, hfound] at hrow
    rw [hok]
    exact hrow
  · rw [confirmSale_succeeds h]
    exact (confirmSale_succeeds (h.reorder hperm)).trans (suffices_reorder db e hperm)
  · by_cases hs : db.Suffices e d
    · have hs' := (suffices_reorder db e hperm).2 hs
      rw [level_confirmSale h hs p]
      refine (level_confirmSale (h.reorder hperm) hs' p).trans ?_
      rw [ordered_perm hperm]
      rfl
    · have hs' : ¬ (db.reorder d.id lines).Suffices e { d with lines := lines } := fun hc =>
        hs ((suffices_reorder db e hperm).1 hc)
      rw [confirmSale_error draw h hs]
      have herror := confirmSale_error draw' (h.reorder hperm) hs'
      rw [show confirmSale e d.id draw' (db.reorder d.id lines) = _ from herror]
      rfl

section

/-- Ten of product 7 in stock, product 8 without stock, and a draft sale of 4 and 6 of the first and
one of the second. -/
def shopCalls : List Request :=
  [⟨.createProduct riz, ⟨7, id⟩, 1⟩,
    ⟨.createProduct { riz with code := "LIVRAISON", trackStock := false }, ⟨8, id⟩, 2⟩,
    ⟨.createCustomer { name := "Awa" }, ⟨9, id⟩, 3⟩,
    ⟨.createMovement ⟨7, .in_, 10, none, by decide⟩ none, ⟨10, id⟩, 4⟩,
    ⟨.create .sale ⟨9, none, [⟨7, 4, by decide, 0⟩, ⟨8, 1, by decide, 0⟩, ⟨7, 6, by decide, 0⟩]⟩ none,
      ⟨11, id⟩, 5⟩]

def shop : Db := (runAs plainTexts (16 ^ 24) shopCalls registered).2

theorem reached_shop : Reached plainTexts shop := by
  refine reached_registered.runAs ?_ ?_
  · exact ⟨reached_registered.intact (T := plainTexts), prefixes_registered, by decide⟩
  · unfold Draw.FreshFor
    decide +kernel

theorem confirm_all_or_nothing_shop :
    ∃ d, shop.sales.find? 11 = some d ∧ d.lines.length = 3 ∧
      AllOrNothing (16 ^ 24) ⟨12, id⟩ d shop := by
  have hsale : (shop.sales.find? 11).map (fun d => (d.id, d.enterpriseId, d.status, d.lines.length))
      = some (11, 16 ^ 24, .draft, 3) := by decide +kernel
  obtain ⟨d, hd, hrow⟩ := Option.map_eq_some_iff.1 hsale
  simp only [Prod.mk.injEq] at hrow
  obtain ⟨hid, howner, hdraft, hlines⟩ := hrow
  have hfound : shop.sales.find? d.id = some d := by rw [hid]; exact hd
  exact ⟨d, hd, hlines, confirm_all_or_nothing reached_shop (16 ^ 24) ⟨12, id⟩ hfound howner hdraft⟩

end

end Gescom.Erp
