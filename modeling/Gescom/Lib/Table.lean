import Mathlib.Data.List.Nodup

/-!
# Keyed tables

A `Table ρ` is a finite list of rows with pairwise distinct keys, in insertion order. The key
function comes from the `Keyed` instance of the row type. Updates keep every key, so uniqueness is
part of the type and no later proof has to restate it.
-/

class Keyed (ρ : Type) (κ : outParam Type) where
  key : ρ → κ

structure Table (ρ : Type) {κ : Type} [Keyed ρ κ] where
  rows : List ρ
  nodup : (rows.map Keyed.key).Nodup

namespace Table

open Keyed (key)

variable {ρ κ : Type} [Keyed ρ κ]

def empty : Table ρ := ⟨[], List.nodup_nil⟩

/-- The rows that satisfy `p`, rewritten by `f`, which keeps keys. -/
def updateWhere (t : Table ρ) (p : ρ → Bool) (f : ρ → ρ) (hf : ∀ r, key (f r) = key r) : Table ρ :=
  ⟨t.rows.map fun r => if p r then f r else r, by
    have : (t.rows.map fun r => if p r then f r else r).map key = t.rows.map key := by
      rw [List.map_map]
      refine List.map_congr_left fun r _ => ?_
      by_cases h : p r <;> simp [h, hf]
    rw [this]; exact t.nodup⟩

@[simp] theorem rows_updateWhere (t : Table ρ) (p : ρ → Bool) (f : ρ → ρ) (hf) :
    (t.updateWhere p f hf).rows = t.rows.map fun r => if p r then f r else r := rfl

def deleteWhere (t : Table ρ) (p : ρ → Bool) : Table ρ :=
  ⟨t.rows.filter fun r => !p r, t.nodup.sublist (List.filter_sublist.map key)⟩

@[simp] theorem rows_deleteWhere (t : Table ρ) (p : ρ → Bool) :
    (t.deleteWhere p).rows = t.rows.filter fun r => !p r := rfl

/-- The rows that satisfy `p`. -/
def filter (t : Table ρ) (p : ρ → Bool) : Table ρ :=
  ⟨t.rows.filter p, t.nodup.sublist (List.filter_sublist.map key)⟩

@[simp] theorem rows_filter (t : Table ρ) (p : ρ → Bool) : (t.filter p).rows = t.rows.filter p := rfl

@[ext] theorem ext {t t' : Table ρ} (h : t.rows = t'.rows) : t = t' := by
  cases t
  cases t'
  cases h
  rfl

variable [DecidableEq κ]

def find? (t : Table ρ) (k : κ) : Option ρ := t.rows.find? fun r => key r == k

def update (t : Table ρ) (k : κ) (f : ρ → ρ) (hf : ∀ r, key (f r) = key r) : Table ρ :=
  t.updateWhere (fun r => key r == k) f hf

/-- Append a row; a row whose key is taken is refused (the unique index). -/
def insert (t : Table ρ) (r : ρ) : Table ρ :=
  if h : key r ∈ t.rows.map key then t
  else ⟨t.rows ++ [r], by
    rw [List.map_append, List.nodup_append]
    refine ⟨t.nodup, by simp, ?_⟩
    intro a ha b hb
    simp only [List.map_cons, List.map_nil, List.mem_singleton] at hb
    subst hb
    exact fun hab => h (hab ▸ ha)⟩

theorem key_of_find? {t : Table ρ} {k : κ} {r : ρ} (h : t.find? k = some r) : key r = k := by
  have := List.find?_some h
  simpa using this

theorem mem_of_find? {t : Table ρ} {k : κ} {r : ρ} (h : t.find? k = some r) : r ∈ t.rows :=
  List.mem_of_find?_eq_some h

theorem find?_of_mem {t : Table ρ} {r : ρ} (h : r ∈ t.rows) : t.find? (key r) = some r := by
  have hex : (t.rows.find? fun x => key x == key r).isSome := by
    rw [List.find?_isSome]; exact ⟨r, h, by simp⟩
  obtain ⟨x, hx⟩ := Option.isSome_iff_exists.1 hex
  have hk : key x = key r := key_of_find? (t := t) hx
  have : x = r := List.inj_on_of_nodup_map t.nodup (List.mem_of_find?_eq_some hx) h hk
  rw [find?, hx, this]

/-- Rows rewritten one by one, keys kept, are found where they were. -/
theorem find?_of_rows_map {t t' : Table ρ} {f : ρ → ρ} (hf : ∀ r, key (f r) = key r)
    (h : t'.rows = t.rows.map f) (k : κ) : t'.find? k = (t.find? k).map f := by
  unfold find?
  rw [h, List.find?_map]
  congr 1
  exact congrArg (fun q => t.rows.find? q) (funext fun r => by simp only [Function.comp, hf])

theorem find?_updateWhere (t : Table ρ) (p : ρ → Bool) (f : ρ → ρ) (hf) (k : κ) :
    (t.updateWhere p f hf).find? k = (t.find? k).map fun r => if p r then f r else r := by
  refine find?_of_rows_map (fun r => ?_) (rows_updateWhere t p f hf) k
  by_cases h : p r <;> simp [h, hf]

theorem find?_update (t : Table ρ) (k k' : κ) (f : ρ → ρ) (hf) :
    (t.update k f hf).find? k' = if k' = k then (t.find? k).map f else t.find? k' := by
  rw [update, find?_updateWhere]
  by_cases hk : k' = k
  · subst hk
    simp only [if_true]
    cases hr : t.find? k' with
    | none => rfl
    | some r => simp [key_of_find? hr]
  · simp only [hk, if_false]
    cases hr : t.find? k' with
    | none => rfl
    | some r => simp [key_of_find? hr, hk]

theorem not_mem_keys {t : Table ρ} {k : κ} (h : t.find? k = none) : k ∉ t.rows.map key := by
  intro hm
  obtain ⟨r, hr, rfl⟩ := List.mem_map.1 hm
  rw [find?_of_mem hr] at h
  simp at h

theorem rows_insert {t : Table ρ} {r : ρ} (h : t.find? (key r) = none) :
    (t.insert r).rows = t.rows ++ [r] := by
  unfold insert; rw [dif_neg (not_mem_keys h)]

theorem find?_insert {t : Table ρ} {r : ρ} (h : t.find? (key r) = none) (k : κ) :
    (t.insert r).find? k = if k = key r then some r else t.find? k := by
  unfold find? at h ⊢
  rw [rows_insert h, List.find?_append]
  by_cases hk : k = key r
  · subst hk; rw [h]; simp
  · have : (key r == k) = false := by simpa using fun e => hk e.symm
    simp [this, hk]

/-- Inserting a new key leaves every stored row where it was. -/
theorem find?_insert_of_some {t : Table ρ} {r x : ρ} {k : κ} (hx : t.find? k = some x) :
    (t.insert r).find? k = some x := by
  by_cases h : key r ∈ t.rows.map key
  · unfold insert; rw [dif_pos h]; exact hx
  · have hr : t.find? (key r) = none := by
      cases hf : t.find? (key r) with
      | none => rfl
      | some y =>
        exact absurd (List.mem_map.2 ⟨y, mem_of_find? hf, key_of_find? hf⟩) h
    rw [find?_insert hr, if_neg, hx]
    rintro rfl
    rw [hr] at hx
    simp at hx

theorem mem_insert {t : Table ρ} {r x : ρ} (h : x ∈ (t.insert r).rows) : x ∈ t.rows ∨ x = r := by
  unfold insert at h
  split at h
  · exact .inl h
  · rcases List.mem_append.1 h with hold | hnew
    · exact .inl hold
    · exact .inr (List.mem_singleton.1 hnew)

/-- An insert leaves the other keys alone, accepted or not. -/
theorem find?_insert_ne {t : Table ρ} {r : ρ} {k : κ} (hk : k ≠ key r) :
    (t.insert r).find? k = t.find? k := by
  cases ht : t.find? (key r) with
  | none => rw [find?_insert ht, if_neg hk]
  | some x =>
    have htaken : key r ∈ t.rows.map key :=
      List.mem_map.2 ⟨x, mem_of_find? ht, key_of_find? ht⟩
    unfold insert
    rw [dif_pos htaken]

/-- A row found by any predicate is the one its key finds. -/
theorem find?_of_findBy {t : Table ρ} {p : ρ → Bool} {r : ρ} (h : t.rows.find? p = some r) :
    t.find? (key r) = some r := find?_of_mem (List.mem_of_find?_eq_some h)

theorem find?_filter (t : Table ρ) (p : ρ → Bool) (k : κ) :
    (t.filter p).find? k = (t.find? k).filter p := by
  cases ht : t.find? k with
  | none =>
    have hnone : ∀ r ∈ t.rows, ¬(key r == k) = true := List.find?_eq_none.1 ht
    refine List.find?_eq_none.2 fun r hr => hnone r (List.mem_filter.1 hr).1
  | some r =>
    have hkey : key r = k := key_of_find? ht
    by_cases hp : p r = true
    · have hmem : r ∈ (t.filter p).rows := List.mem_filter.2 ⟨mem_of_find? ht, hp⟩
      rw [Option.filter_some_pos hp, ← hkey]
      exact find?_of_mem hmem
    · -- another row with the key would be `r`
      rw [Option.filter_some_neg (by simpa using hp)]
      refine List.find?_eq_none.2 fun x hx hxk => hp ?_
      obtain ⟨hmem, hpx⟩ := List.mem_filter.1 hx
      have hfind : t.find? k = some x := by
        rw [← beq_iff_eq.1 hxk]
        exact find?_of_mem hmem
      rw [ht] at hfind
      rw [Option.some.inj hfind]
      exact hpx

/-- A filter on the key itself. -/
theorem find?_filter_key {p : κ → Bool} {k : κ} (t : Table ρ) (h : p k = true) :
    (t.filter fun r => p (key r)).find? k = t.find? k := by
  rw [find?_filter]
  cases ht : t.find? k with
  | none => rfl
  | some r => rw [Option.filter_some_pos (by rw [key_of_find? ht, h])]

theorem find?_filter_key_neg {p : κ → Bool} {k : κ} (t : Table ρ) (h : p k = false) :
    (t.filter fun r => p (key r)).find? k = none := by
  rw [find?_filter]
  cases ht : t.find? k with
  | none => rfl
  | some r => rw [Option.filter_some_neg (by rw [key_of_find? ht, h])]

/-- Inserting a row outside the filter. -/
theorem filter_insert_neg {t : Table ρ} {r : ρ} {p : ρ → Bool} (h : p r = false) :
    (t.insert r).filter p = t.filter p := by
  refine ext ?_
  unfold insert
  split
  · rfl
  · simp [h]

/-- Inserting a row of the filter, whose key no row outside it has. -/
theorem filter_insert {t : Table ρ} {r : ρ} {p : ρ → Bool} (hp : p r = true)
    (hother : ∀ x ∈ t.rows, key x = key r → p x = true) :
    (t.insert r).filter p = (t.filter p).insert r := by
  refine ext ?_
  have hiff : key r ∈ (t.filter p).rows.map key ↔ key r ∈ t.rows.map key := by
    simp only [rows_filter, List.mem_map, List.mem_filter]
    constructor
    · rintro ⟨x, ⟨hx, -⟩, hkey⟩
      exact ⟨x, hx, hkey⟩
    · rintro ⟨x, hx, hkey⟩
      exact ⟨x, ⟨hx, hother x hx hkey⟩, hkey⟩
  unfold insert
  by_cases hmem : key r ∈ t.rows.map key
  · rw [dif_pos hmem, dif_pos (hiff.2 hmem)]
  · rw [dif_neg hmem, dif_neg fun h => hmem (hiff.1 h)]
    simp [hp]

/-- An update that keeps the filter. -/
theorem filter_update {t : Table ρ} {k : κ} {f : ρ → ρ} (hf : ∀ r, key (f r) = key r)
    {p : ρ → Bool} (hp : ∀ r, p (f r) = p r) :
    (t.update k f hf).filter p = (t.filter p).update k f hf := by
  refine ext ?_
  simp only [update, rows_filter, rows_updateWhere, List.filter_map]
  refine congrArg _ (List.filter_congr fun r _ => ?_)
  simp only [Function.comp]
  split
  · exact hp r
  · rfl

/-- An update of a key that no row has. -/
theorem update_of_none {t : Table ρ} {k : κ} {f : ρ → ρ} (hf : ∀ r, key (f r) = key r)
    (h : t.find? k = none) : t.update k f hf = t := by
  refine ext ?_
  have hnone : ∀ r ∈ t.rows, ¬(key r == k) = true := List.find?_eq_none.1 h
  rw [update, rows_updateWhere]
  calc t.rows.map (fun r => if (key r == k) = true then f r else r)
      = t.rows.map id := List.map_congr_left fun r hr => if_neg (hnone r hr)
    _ = t.rows := List.map_id _

/-! ## Fewer columns -/

section
variable {ρ' : Type} [Keyed ρ' κ]

/-- The same rows, seen through `f`. -/
def map (t : Table ρ) (f : ρ → ρ') (hf : ∀ r, key (f r) = key r) : Table ρ' :=
  ⟨t.rows.map f, by
    rw [List.map_map, show key ∘ f = key from funext hf]
    exact t.nodup⟩

theorem find?_map (t : Table ρ) (f : ρ → ρ') (hf : ∀ r, key (f r) = key r) (k : κ) :
    (t.map f hf).find? k = (t.find? k).map f := by
  unfold find? map
  rw [List.find?_map]
  congr 1
  exact congrArg (fun q => t.rows.find? q) (funext fun r => by simp only [Function.comp, hf])

end

end Table
