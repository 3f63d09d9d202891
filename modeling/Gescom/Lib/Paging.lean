import Mathlib.Data.List.Nodup
import Mathlib.Data.List.Perm.Basic
import Mathlib.Data.List.Sort

/-!
# Pages of an ordered query

A database answers an ordered query in any arrangement of the rows that is sorted, and in another
one the next time. A page is a stretch of such an arrangement. `visitsOnce_iff`: the pages hold each
row once, whatever the arrangements, when no two rows of equal keys lie on different pages, that is
when the rows before a row and the rows up to its ties end on the same page.
-/

namespace Paging

variable {α : Type}

/-- The rows in some order that is sorted. -/
structure Arranged (order : α → α → Bool) (rows ord : List α) : Prop where
  perm : ord.Perm rows
  sorted : ord.Pairwise fun a b => order a b = true

/-- `skip` and `take`, pages numbered from 0. -/
def pageRows (size : Nat) (ord : List α) (page : Nat) : List α := (ord.drop (page * size)).take size

/-- `ceil(total / size)`. -/
def pageCount (size total : Nat) : Nat := (total + size - 1) / size

/-- All the pages, each of its own arrangement. -/
def visited (size total : Nat) (ord : Nat → List α) : List α :=
  (List.range (pageCount size total)).flatMap fun page => pageRows size (ord page) page

def VisitsOnce (order : α → α → Bool) (rows : List α) (size : Nat) : Prop :=
  ∀ ord : Nat → List α, (∀ page, Arranged order rows (ord page)) →
    (visited size rows.length ord).Perm rows

/-- How many rows come before `x`. -/
def before (order : α → α → Bool) (rows : List α) (x : α) : Nat :=
  rows.countP fun y => order y x && !order x y

/-- How many rows come before `x` or tie with it. -/
def upTo (order : α → α → Bool) (rows : List α) (x : α) : Nat := rows.countP fun y => order y x

/-- The rows that tie with a row are on one page. -/
def Unsplit (order : α → α → Bool) (rows : List α) (size : Nat) : Prop :=
  ∀ x ∈ rows, before order rows x / size = (upTo order rows x - 1) / size

instance (order : α → α → Bool) (rows : List α) (size : Nat) :
    Decidable (Unsplit order rows size) := inferInstanceAs (Decidable (∀ x ∈ rows, _))

/-- A total preorder. -/
structure Preordered (order : α → α → Bool) : Prop where
  trans : ∀ a b c, order a b = true → order b c = true → order a c = true
  total : ∀ a b, (order a b || order b a) = true

variable {order : α → α → Bool} {rows ord : List α} {size i j : Nat} {x : α}

theorem Preordered.refl (h : Preordered order) (a : α) : order a a = true := by
  simpa using h.total a a

theorem Preordered.of_not (h : Preordered order) {a b : α} (hab : order a b ≠ true) :
    order b a = true := by
  have htotal := h.total a b
  rw [Bool.or_eq_true] at htotal
  exact htotal.resolve_left hab

theorem arranged_mergeSort (h : Preordered order) (rows : List α) :
    Arranged order rows (rows.mergeSort order) :=
  ⟨List.mergeSort_perm rows order, List.pairwise_mergeSort h.trans h.total rows⟩

/-! ## Where a row is -/

/-- Earlier in an arrangement is not later in the order. -/
theorem Arranged.order_of_le (h : Preordered order) (hord : Arranged order rows ord)
    (hi : i < ord.length) (hj : j < ord.length) (hij : i ≤ j) : order ord[i] ord[j] = true := by
  obtain rfl | hlt := Nat.eq_or_lt_of_le hij
  · exact h.refl _
  · exact List.pairwise_iff_getElem.1 hord.sorted i j hi hj hlt

/-- Before an index where a predicate begins to fail it counts that far at most. -/
theorem countP_le_of_drop {p : α → Bool} (h : ∀ k, (hk : k < ord.length) → i ≤ k → p ord[k] = false) :
    ord.countP p ≤ i := by
  have hdrop : (ord.drop i).countP p = 0 := by
    rw [List.countP_eq_zero]
    intro y hy
    obtain ⟨k, hk, rfl⟩ := List.mem_iff_getElem.1 hy
    rw [List.getElem_drop]
    simp [h (i + k) (by simp at hk; omega) (Nat.le_add_right i k)]
  calc ord.countP p = (ord.take i ++ ord.drop i).countP p := by rw [List.take_append_drop]
    _ = (ord.take i).countP p := by rw [List.countP_append, hdrop, Nat.add_zero]
    _ ≤ (ord.take i).length := List.countP_le_length
    _ ≤ i := List.length_take_le i ord

theorem lt_countP_of_take {p : α → Bool} (hi : i < ord.length)
    (h : ∀ k, (hk : k < ord.length) → k ≤ i → p ord[k] = true) : i < ord.countP p := by
  have htake : (ord.take (i + 1)).countP p = (ord.take (i + 1)).length := by
    rw [List.countP_eq_length]
    intro y hy
    obtain ⟨k, hk, rfl⟩ := List.mem_iff_getElem.1 hy
    rw [List.getElem_take]
    exact h k (by simp at hk; omega) (by simp at hk; omega)
  calc i < (ord.take (i + 1)).length := by rw [List.length_take]; omega
    _ = (ord.take (i + 1)).countP p := htake.symm
    _ ≤ ord.countP p := (List.take_sublist (i + 1) ord).countP_le

/-- An arrangement has a row among its ties. -/
theorem Arranged.bounds (h : Preordered order) (hord : Arranged order rows ord)
    (hi : i < ord.length) : before order rows ord[i] ≤ i ∧ i < upTo order rows ord[i] := by
  constructor
  · rw [before, ← hord.perm.countP_eq]
    refine countP_le_of_drop fun k hk hik => ?_
    rw [hord.order_of_le h hi hk hik]
    simp
  · rw [upTo, ← hord.perm.countP_eq]
    exact lt_countP_of_take hi fun k hk hki => hord.order_of_le h hk hi hki

/-- And nothing else there. -/
theorem Arranged.tied (h : Preordered order) (hord : Arranged order rows ord)
    (hj : j < ord.length) (hlow : before order rows x ≤ j) (hhigh : j < upTo order rows x) :
    order ord[j] x = true ∧ order x ord[j] = true := by
  rw [before, ← hord.perm.countP_eq] at hlow
  rw [upTo, ← hord.perm.countP_eq] at hhigh
  constructor
  · by_contra hnot
    refine absurd hhigh (Nat.not_lt.2 (countP_le_of_drop fun k hk hjk => ?_))
    refine Bool.eq_false_iff.2 fun hkx => hnot ?_
    exact h.trans _ _ _ (hord.order_of_le h hj hk hjk) hkx
  · by_contra hnot
    refine absurd hlow (Nat.not_le.2 (lt_countP_of_take hj fun k hk hkj => ?_))
    have hkx := h.trans _ _ _ (hord.order_of_le h hk hj hkj) (h.of_not hnot)
    have hxk : order x ord[k] ≠ true := fun hxk =>
      hnot (h.trans _ _ _ hxk (hord.order_of_le h hk hj hkj))
    simp [hkx, hxk]

theorem Arranged.length_eq (hord : Arranged order rows ord) : ord.length = rows.length :=
  hord.perm.length_eq

theorem upTo_le (order : α → α → Bool) (rows : List α) (x : α) : upTo order rows x ≤ rows.length :=
  List.countP_le_length

theorem exists_index (hord : Arranged order rows ord) (hx : x ∈ rows) :
    ∃ i, ∃ hi : i < ord.length, ord[i] = x := List.mem_iff_getElem.1 (hord.perm.mem_iff.2 hx)

/-! ## Pages that split no ties -/

theorem Arranged.page_eq (h : Preordered order) (hord : Arranged order rows ord)
    (hpages : Unsplit order rows size) (hi : i < ord.length) :
    before order rows ord[i] / size = i / size := by
  obtain ⟨hlow, hhigh⟩ := hord.bounds h hi
  have hpage := hpages ord[i] (hord.perm.mem_iff.1 (List.getElem_mem hi))
  have hle := Nat.div_le_div_right (c := size) hlow
  have hge := Nat.div_le_div_right (c := size) (Nat.le_sub_one_of_lt hhigh)
  omega

/-- Then a page has the same rows in every arrangement. -/
theorem Arranged.pageRows_eq (h : Preordered order) (hord : Arranged order rows ord)
    (hpages : Unsplit order rows size) (hsize : 0 < size) (page : Nat) :
    pageRows size ord page = ord.filter fun x => before order rows x / size = page := by
  have hindex : ∀ k, (hk : k < ord.length) →
      (decide (before order rows ord[k] / size = page) = true ↔
        page * size ≤ k ∧ k < page * size + size) := by
    intro k hk
    rw [decide_eq_true_iff, hord.page_eq h hpages hk, Nat.div_eq_iff hsize]
    omega
  have hearlier : (ord.take (page * size)).filter
      (fun x => before order rows x / size = page) = [] := by
    refine List.filter_eq_nil_iff.2 fun y hy hpage => ?_
    obtain ⟨k, hk, rfl⟩ := List.mem_iff_getElem.1 hy
    rw [List.length_take] at hk
    rw [List.getElem_take] at hpage
    have := (hindex k (by omega)).1 hpage
    omega
  have hpage : ((ord.drop (page * size)).take size).filter
      (fun x => before order rows x / size = page) = (ord.drop (page * size)).take size := by
    refine List.filter_eq_self.2 fun y hy => ?_
    obtain ⟨k, hk, rfl⟩ := List.mem_iff_getElem.1 hy
    rw [List.length_take, List.length_drop] at hk
    rw [List.getElem_take, List.getElem_drop]
    exact (hindex _ (by omega)).2 (by omega)
  have hlater : ((ord.drop (page * size)).drop size).filter
      (fun x => before order rows x / size = page) = [] := by
    refine List.filter_eq_nil_iff.2 fun y hy hpage => ?_
    obtain ⟨k, hk, rfl⟩ := List.mem_iff_getElem.1 hy
    rw [List.length_drop, List.length_drop] at hk
    rw [List.getElem_drop, List.getElem_drop] at hpage
    have := (hindex _ (by omega)).1 hpage
    omega
  have hsplit : ord = ord.take (page * size) ++
      ((ord.drop (page * size)).take size ++ (ord.drop (page * size)).drop size) := by
    rw [List.take_append_drop, List.take_append_drop]
  conv_rhs => rw [hsplit]
  rw [List.filter_append, List.filter_append, hearlier, hpage, hlater, List.nil_append,
    List.append_nil, pageRows]

/-- A list by the values of a function below a bound. -/
theorem flatMap_filter_perm (g : α → Nat) (rows : List α) (n : Nat) :
    ((List.range n).flatMap fun k => rows.filter fun x => g x = k).Perm
      (rows.filter fun x => g x < n) := by
  induction n with
  | zero =>
    rw [List.filter_eq_nil_iff.2 (by simp)]
    exact .refl _
  | succ n ih =>
    have hparts := List.filter_append_perm (fun x => decide (g x < n))
      (rows.filter fun x => g x < n + 1)
    rw [List.filter_filter, List.filter_filter] at hparts
    have hlow : (fun x => decide (g x < n) && decide (g x < n + 1)) = fun x => decide (g x < n) := by
      funext x
      rw [← Bool.decide_and, decide_eq_decide]
      omega
    have hhigh : (fun x => !decide (g x < n) && decide (g x < n + 1)) = fun x => decide (g x = n) := by
      funext x
      rw [← decide_not, ← Bool.decide_and, decide_eq_decide]
      omega
    rw [hlow, hhigh] at hparts
    rw [List.range_succ, List.flatMap_append, List.flatMap_singleton]
    exact (ih.append_right _).trans hparts

theorem lt_pageCount (hsize : 0 < size) {total k : Nat} (hk : k < total) :
    k / size < pageCount size total := by
  rw [pageCount, Nat.div_lt_iff_lt_mul hsize]
  have hlast := Nat.lt_div_mul_add (a := total + size - 1) hsize
  omega

theorem visitsOnce_of_unsplit (h : Preordered order) (hsize : 0 < size)
    (hpages : Unsplit order rows size) : VisitsOnce order rows size := by
  intro ord hord
  have hpage : ∀ page, (pageRows size (ord page) page).Perm
      (rows.filter fun x => before order rows x / size = page) := by
    intro page
    rw [(hord page).pageRows_eq h hpages hsize page]
    exact (hord page).perm.filter _
  have hall : (rows.filter fun x => before order rows x / size < pageCount size rows.length) = rows := by
    refine List.filter_eq_self.2 fun x hx => decide_eq_true ?_
    obtain ⟨i, hi, rfl⟩ := exists_index (hord 0) hx
    refine lt_pageCount hsize ?_
    have hbounds := (hord 0).bounds h hi
    have hlength := (hord 0).length_eq
    omega
  have hvisited := flatMap_filter_perm (fun x => before order rows x / size) rows
    (pageCount size rows.length)
  rw [hall] at hvisited
  exact (List.Perm.flatMap_left _ fun page _ => hpage page).trans hvisited

/-! ## Pages that split ties -/

theorem mem_pageRows {page : Nat} (hx : ord[i]? = some x) (hlow : page * size ≤ i)
    (hhigh : i < page * size + size) : x ∈ pageRows size ord page := by
  obtain ⟨hi, rfl⟩ := List.getElem?_eq_some_iff.1 hx
  rw [pageRows, List.mem_iff_getElem]
  refine ⟨i - page * size, ?_, ?_⟩
  · rw [List.length_take, List.length_drop]
    omega
  · rw [List.getElem_take, List.getElem_drop]
    congr 1
    omega

/-- Neighbours that tie may change places. -/
theorem Arranged.swap {l l' : List α} {u v : α} (hord : Arranged order rows (l ++ u :: v :: l'))
    (hvu : order v u = true) : Arranged order rows (l ++ v :: u :: l') := by
  constructor
  · exact ((List.Perm.swap u v l').append_left l).trans hord.perm
  · have hsorted := hord.sorted
    simp only [List.pairwise_append, List.pairwise_cons, List.mem_cons, forall_eq_or_imp] at hsorted ⊢
    obtain ⟨hl, ⟨⟨-, hu⟩, hv, hl'⟩, hcross⟩ := hsorted
    exact ⟨hl, ⟨⟨hvu, hv⟩, hu, hl'⟩, fun a ha => ⟨(hcross a ha).2.1, (hcross a ha).1,
      (hcross a ha).2.2⟩⟩

theorem swap_decomposition (hi : i + 1 < ord.length) :
    ord = ord.take i ++ ord[i] :: ord[i + 1] :: ord.drop (i + 2) := by
  rw [← List.drop_eq_getElem_cons hi, ← List.drop_eq_getElem_cons (Nat.lt_of_succ_lt hi),
    List.take_append_drop]

/-- A row at the end of a page in one arrangement and at the start of the next in another is seen
twice. -/
theorem not_visitsOnce (hnodup : rows.Nodup) {ord ord' : List α} (hord : Arranged order rows ord)
    (hord' : Arranged order rows ord') (page : Nat) (hpage : page + 1 < pageCount size rows.length)
    {u : α} (hu : u ∈ pageRows size ord page) (hu' : u ∈ pageRows size ord' (page + 1)) :
    ¬ VisitsOnce order rows size := by
  intro hvisits
  have hperm := hvisits (fun k => if k = page then ord else ord') fun k => by
    by_cases hk : k = page
    · rw [if_pos hk]
      exact hord
    · rw [if_neg hk]
      exact hord'
  have hdisjoint := (List.nodup_flatMap.1 (hperm.nodup_iff.2 hnodup)).2
  have hpair := List.pairwise_iff_getElem.1 hdisjoint page (page + 1)
    (by rw [List.length_range]; omega) (by rw [List.length_range]; exact hpage) (Nat.lt_succ_self page)
  rw [List.getElem_range, List.getElem_range] at hpair
  refine hpair (a := u) ?_ ?_
  · simpa using hu
  · simpa using hu'

theorem unsplit_of_visitsOnce (h : Preordered order) (hsize : 0 < size) (hnodup : rows.Nodup)
    (hvisits : VisitsOnce order rows size) : Unsplit order rows size := by
  intro x hx
  by_contra hne
  have hord := arranged_mergeSort h rows
  obtain ⟨i, hi, hix⟩ := exists_index hord hx
  have hbounds := hord.bounds h hi
  rw [hix] at hbounds
  have hlength := hord.length_eq
  have hlast := upTo_le order rows x
  -- the boundary after the page of the first row that ties with `x`
  have hboundary : before order rows x < (before order rows x / size + 1) * size :=
    Nat.lt_mul_of_div_lt (Nat.lt_succ_self _) hsize
  have hpages : before order rows x / size + 1 ≤ (upTo order rows x - 1) / size := by
    have hle : before order rows x / size ≤ (upTo order rows x - 1) / size :=
      Nat.div_le_div_right (by omega)
    omega
  have hinside := (Nat.le_div_iff_mul_le hsize).1 hpages
  obtain ⟨b, hb⟩ : ∃ b, (before order rows x / size + 1) * size = b + 1 :=
    Nat.exists_eq_succ_of_ne_zero (by omega)
  have hstart : before order rows x / size * size + size = b + 1 := by
    rw [← hb, Nat.succ_mul]
  have hlt : b + 1 < (rows.mergeSort order).length := by omega
  have hu := hord.tied h (x := x) (Nat.lt_of_succ_lt hlt) (by omega) (by omega)
  have hv := hord.tied h (x := x) hlt (by omega) (by omega)
  have hsplit := swap_decomposition hlt
  have hswapped : Arranged order rows _ := Arranged.swap (hsplit ▸ hord) (h.trans _ _ _ hv.1 hu.2)
  refine not_visitsOnce hnodup hord hswapped (before order rows x / size) ?_
    (mem_pageRows (List.getElem?_eq_getElem (Nat.lt_of_succ_lt hlt)) (by omega) (by omega))
    (mem_pageRows (i := b + 1) ?_ (by omega) (by omega)) hvisits
  · have := lt_pageCount hsize (show b + 1 < rows.length by omega)
    rwa [← hb, Nat.mul_div_cancel _ hsize] at this
  · have hb : ((rows.mergeSort order).take b).length = b := by
      rw [List.length_take]
      omega
    rw [List.getElem?_append_right (by omega), hb]
    simp

/-- The pages hold each row once exactly when none of them splits a group of ties. -/
theorem visitsOnce_iff (h : Preordered order) (hsize : 0 < size) (hnodup : rows.Nodup) :
    VisitsOnce order rows size ↔ Unsplit order rows size :=
  ⟨unsplit_of_visitsOnce h hsize hnodup, visitsOnce_of_unsplit h hsize⟩

/-- Distinct keys tie with nothing. -/
theorem unsplit_of_antisymm (h : Preordered order) (hnodup : rows.Nodup)
    (hkeys : ∀ x ∈ rows, ∀ y ∈ rows, order x y = true → order y x = true → x = y) (size : Nat) :
    Unsplit order rows size := by
  intro x hx
  have hord := arranged_mergeSort h rows
  obtain ⟨i, hi, hix⟩ := exists_index hord hx
  have hbounds := hord.bounds h hi
  rw [hix] at hbounds
  have hlength := hord.length_eq
  have hlast := upTo_le order rows x
  have hone : upTo order rows x ≤ before order rows x + 1 := by
    by_contra hmore
    have hlt : before order rows x + 1 < (rows.mergeSort order).length := by omega
    have hmem : ∀ k, (hk : k < (rows.mergeSort order).length) → before order rows x ≤ k →
        k < upTo order rows x → (rows.mergeSort order)[k] = x := by
      intro k hk hlow hhigh
      have htied := hord.tied h (x := x) hk hlow hhigh
      exact hkeys _ (hord.perm.mem_iff.1 (List.getElem_mem hk)) x hx htied.1 htied.2
    have hfirst := hmem _ (Nat.lt_of_succ_lt hlt) (Nat.le_refl _) (by omega)
    have hsecond := hmem _ hlt (by omega) (by omega)
    have hsame := (hord.perm.nodup_iff.2 hnodup).getElem_inj_iff.1 (hfirst.trans hsecond.symm)
    omega
  congr 1
  omega

end Paging
