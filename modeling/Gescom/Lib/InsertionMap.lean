import Gescom.Lib.Table
import Mathlib.Data.List.Dedup

/-!
# Maps that iterate in insertion order

The rows of a `Table` are the entries of such a map (a JavaScript `Map`): `set` writes a key that is
present where it stands and appends one that is not, `erase` drops a key. The second part says when
the iteration order is the order of use, for a log `uses` of the keys as they were used.
-/

namespace Table

open Keyed (key)

variable {ρ κ : Type} [Keyed ρ κ] [DecidableEq κ] {t : Table ρ} {r : ρ} {k : κ}

/-- The keys in iteration order. -/
def keys (t : Table ρ) : List κ := t.rows.map key

omit [DecidableEq κ] in
@[simp] theorem length_keys (t : Table ρ) : t.keys.length = t.rows.length := List.length_map ..

theorem mem_keys : k ∈ t.keys ↔ ∃ r, t.find? k = some r := by
  constructor
  · intro h
    obtain ⟨r, hr, rfl⟩ := List.mem_map.1 h
    exact ⟨r, find?_of_mem hr⟩
  · rintro ⟨r, hr⟩
    exact List.mem_map.2 ⟨r, mem_of_find? hr, key_of_find? hr⟩

theorem find?_eq_none : t.find? k = none ↔ k ∉ t.keys := by
  rw [mem_keys]
  cases t.find? k <;> simp

/-- `map.delete(k)`. -/
def erase (t : Table ρ) (k : κ) : Table ρ := t.filter fun r => key r != k

@[simp] theorem keys_erase (t : Table ρ) (k : κ) : (t.erase k).keys = t.keys.filter (· != k) := by
  simp only [keys, erase, rows_filter, List.filter_map]
  rfl

theorem find?_erase_self (t : Table ρ) (k : κ) : (t.erase k).find? k = none := by
  rw [find?_eq_none, keys_erase]
  simp

theorem find?_erase_ne {k' : κ} (h : k' ≠ k) : (t.erase k).find? k' = t.find? k' :=
  t.find?_filter_key (p := (· != k)) (by simpa using h)

theorem keys_foldl_erase (ks : List κ) (t : Table ρ) :
    (ks.foldl erase t).keys = t.keys.filter (· ∉ ks) := by
  induction ks generalizing t with
  | nil => simp
  | cons k ks ih =>
    rw [List.foldl_cons, ih, keys_erase, List.filter_filter]
    refine List.filter_congr fun x _ => ?_
    by_cases hx : x = k <;> simp [hx]

/-- A map whose keys are erased one by one. -/
theorem foldl_erase_keys (t : Table ρ) : t.keys.foldl erase t = empty := by
  have hkeys : (t.keys.foldl erase t).keys = [] := by
    rw [keys_foldl_erase]
    exact List.filter_eq_nil_iff.2 fun k hk => by simpa using hk
  exact Table.ext (List.map_eq_nil_iff.1 hkeys)

/-- `map.set(key, row)` on a key that is present: the entry keeps its place. -/
def replace (t : Table ρ) (r : ρ) : Table ρ :=
  ⟨t.rows.map fun x => if key x = key r then r else x, by
    have : (t.rows.map fun x => if key x = key r then r else x).map key = t.rows.map key := by
      rw [List.map_map]
      refine List.map_congr_left fun x _ => ?_
      by_cases h : key x = key r <;> simp [h]
    rw [this]; exact t.nodup⟩

/-- `map.set(key, row)`. -/
def set (t : Table ρ) (r : ρ) : Table ρ := if key r ∈ t.keys then t.replace r else t.insert r

theorem mem_set {x : ρ} (h : x ∈ (t.set r).rows) : x ∈ t.rows ∨ x = r := by
  unfold set at h
  split at h
  · obtain ⟨y, hy, heq⟩ := List.mem_map.1 h
    split at heq
    · exact .inr heq.symm
    · exact .inl (heq ▸ hy)
  · exact mem_insert h

theorem keys_set_of_mem (h : key r ∈ t.keys) : (t.set r).keys = t.keys := by
  rw [set, if_pos h]
  simp only [replace, keys, List.map_map]
  refine List.map_congr_left fun x _ => ?_
  by_cases hx : key x = key r <;> simp [hx]

theorem keys_set_of_notMem (h : key r ∉ t.keys) : (t.set r).keys = t.keys ++ [key r] := by
  rw [set, if_neg h, keys, rows_insert (find?_eq_none.2 h)]
  simp [keys]

theorem find?_set_self (t : Table ρ) (r : ρ) : (t.set r).find? (key r) = some r := by
  by_cases h : key r ∈ t.keys
  · have hmem : r ∈ (t.set r).rows := by
      obtain ⟨x, hx, hkey⟩ := List.mem_map.1 h
      rw [set, if_pos h]
      exact List.mem_map.2 ⟨x, hx, if_pos hkey⟩
    exact find?_of_mem hmem
  · rw [set, if_neg h, find?_insert (find?_eq_none.2 h), if_pos rfl]

theorem find?_set_ne (h : k ≠ key r) : (t.set r).find? k = t.find? k := by
  by_cases hr : key r ∈ t.keys
  · rw [set, if_pos hr]
    simp only [find?, replace, List.find?_map]
    have hpred : ((fun x : ρ => key x == k) ∘ fun x => if key x = key r then r else x) =
        fun x => key x == k := by
      funext x
      by_cases hx : key x = key r <;> simp [hx]
    rw [hpred]
    cases hf : t.rows.find? fun x => key x == k with
    | none => rfl
    | some x =>
      have hx : key x = k := key_of_find? (t := t) hf
      simp [hx, h]
  · rw [set, if_neg hr, find?_insert_ne h]

end Table

/-! ## The order of use -/

namespace Recency

variable {κ : Type} [DecidableEq κ] {keys uses : List κ} {k : κ}

/-- `keys` lists, of the keys it has, the one used last at the end. -/
def Ordered (keys uses : List κ) : Prop := keys = uses.dedup.filter (· ∈ keys)

instance : Decidable (Ordered keys uses) := inferInstanceAs (Decidable (_ = _))

/-- Of the keys in `keys`, the one whose last use is the oldest. -/
def leastRecent (keys uses : List κ) : Option κ := uses.dedup.find? (· ∈ keys)

/-- `dedup` keeps the last occurrence. -/
theorem dedup_concat (uses : List κ) (k : κ) :
    (uses ++ [k]).dedup = uses.dedup.filter (· != k) ++ [k] := by
  induction uses with
  | nil => simp
  | cons x uses ih =>
    rw [List.cons_append]
    by_cases hx : x ∈ uses
    · rw [List.dedup_cons_of_mem (by simp [hx]), List.dedup_cons_of_mem hx, ih]
    · rw [List.dedup_cons_of_notMem hx]
      by_cases hk : x = k
      · subst hk
        rw [List.dedup_cons_of_mem (by simp), ih]
        simp
      · rw [List.dedup_cons_of_notMem (by simp [hx, hk]), ih]
        simp [hk]

theorem ordered_nil (uses : List κ) : Ordered [] uses := by simp [Ordered]

theorem Ordered.filter (h : Ordered keys uses) (p : κ → Bool) :
    Ordered (keys.filter p) uses := by
  unfold Ordered at h ⊢
  calc keys.filter p
      = (uses.dedup.filter (· ∈ keys)).filter p := by rw [← h]
    _ = uses.dedup.filter (· ∈ keys.filter p) := by
        rw [List.filter_filter]
        exact List.filter_congr fun x _ => by simp [Bool.and_comm]

/-- A key that is used goes to the end. -/
theorem Ordered.touch (h : Ordered keys uses) (k : κ) :
    Ordered (keys.filter (· != k) ++ [k]) (uses ++ [k]) := by
  have hrest : Ordered (keys.filter (· != k)) uses := h.filter _
  unfold Ordered at hrest ⊢
  rw [dedup_concat, List.filter_append, List.filter_filter]
  congr 1
  · refine hrest.trans (List.filter_congr fun x _ => ?_)
    by_cases hx : x = k <;> simp [hx]
  · simp

theorem Ordered.getLast (h : Ordered keys (uses ++ [k])) (hk : k ∈ keys) :
    keys.getLast? = some k := by
  unfold Ordered at h
  rw [dedup_concat, List.filter_append] at h
  have hend : [k].filter (· ∈ keys) = [k] := by simp [hk]
  rw [hend] at h
  rw [h]
  simp

/-- The last key may be used where it stands. -/
theorem Ordered.again (h : Ordered keys uses) (hk : keys.getLast? = some k) :
    Ordered keys (uses ++ [k]) := by
  obtain ⟨front, rfl⟩ := List.getLast?_eq_some_iff.1 hk
  have hnodup : (front ++ [k]).Nodup := by
    unfold Ordered at h
    rw [h]
    exact uses.nodup_dedup.filter _
  have hfront : k ∉ front := by
    intro hmem
    exact (List.nodup_append.1 hnodup).2.2 k hmem k (by simp) rfl
  have hmoved := h.touch k
  have hsame : (front ++ [k]).filter (· != k) = front := by
    rw [List.filter_append, List.filter_eq_self.2 fun x hx => by
      simpa using fun e : x = k => hfront (e ▸ hx)]
    simp
  rwa [hsame] at hmoved

theorem Ordered.head (h : Ordered keys uses) : keys.head? = leastRecent keys uses := by
  unfold Ordered at h
  rw [leastRecent, ← List.head?_filter, ← h]

end Recency
