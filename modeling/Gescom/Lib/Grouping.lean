import Mathlib.Algebra.BigOperators.Group.List.Basic
import Mathlib.Data.List.Induction
import Mathlib.Data.List.Nodup

/-!
# Grouping by key

A loop that files each item under its key, in a map that keeps the order of its keys. An entry of the
map is the fold of the items of its key (`of_mem_groups`), and what the entries add up to is what the
items add up to (`sum_groups`).
-/

namespace Grouping

variable {α β κ : Type} [DecidableEq κ]

/-- `map.set(key, f(map.get(key) ?? init))`; a `Map` keeps the order of its keys. -/
def mapUpdate (key : κ) (f : β → β) (init : β) : List (κ × β) → List (κ × β)
  | [] => [(key, f init)]
  | (k, b) :: rest => if k = key then (k, f b) :: rest else (k, b) :: mapUpdate key f init rest

/-- The map after the items `xs`. -/
def groups (key : α → κ) (init : α → β) (add : β → α → β) (xs : List α) : List (κ × β) :=
  xs.foldl (fun m x => mapUpdate (key x) (fun b => add b x) (init x) m) []

/-! ## One item -/

theorem keys_mapUpdate (key : κ) (f : β → β) (init : β) (m : List (κ × β)) :
    (mapUpdate key f init m).map Prod.fst =
      if key ∈ m.map Prod.fst then m.map Prod.fst else m.map Prod.fst ++ [key] := by
  induction m with
  | nil => rfl
  | cons kb m ih =>
    by_cases hk : kb.1 = key
    · simp [mapUpdate, hk]
    · simp only [mapUpdate, if_neg hk, List.map_cons, ih, List.mem_cons, Ne.symm hk, false_or]
      split <;> rfl

theorem mem_keys_mapUpdate {key k : κ} {f : β → β} {init : β} {m : List (κ × β)} :
    k ∈ (mapUpdate key f init m).map Prod.fst ↔ k ∈ m.map Prod.fst ∨ k = key := by
  rw [keys_mapUpdate]
  split
  · rename_i hmem
    constructor
    · exact .inl
    · rintro (hold | rfl)
      · exact hold
      · exact hmem
  · rw [List.mem_append, List.mem_singleton]

theorem nodup_mapUpdate {key : κ} {f : β → β} {init : β} {m : List (κ × β)}
    (h : (m.map Prod.fst).Nodup) : ((mapUpdate key f init m).map Prod.fst).Nodup := by
  rw [keys_mapUpdate]
  split
  · exact h
  · rename_i hnew
    exact h.append (List.nodup_singleton _) (by simpa using hnew)

/-- An entry after `mapUpdate` is an old one of another key, or the updated one. -/
theorem mem_mapUpdate {key : κ} {f : β → β} {init : β} {m : List (κ × β)}
    (hm : (m.map Prod.fst).Nodup) {kb : κ × β} (h : kb ∈ mapUpdate key f init m) :
    kb.1 ≠ key ∧ kb ∈ m ∨ (∃ b, (key, b) ∈ m ∧ kb = (key, f b)) ∨
      key ∉ m.map Prod.fst ∧ kb = (key, f init) := by
  induction m with
  | nil => exact .inr (.inr ⟨List.not_mem_nil, List.mem_singleton.1 h⟩)
  | cons x m ih =>
    obtain ⟨hx, hm⟩ := List.nodup_cons.1 hm
    by_cases hk : x.1 = key
    · rw [mapUpdate, if_pos hk] at h
      rcases List.mem_cons.1 h with rfl | hrest
      · exact .inr (.inl ⟨x.2, by simp [← hk], by rw [← hk]⟩)
      · refine .inl ⟨?_, List.mem_cons_of_mem _ hrest⟩
        rintro rfl
        exact hx (hk ▸ List.mem_map_of_mem hrest)
    · rw [mapUpdate, if_neg hk] at h
      rcases List.mem_cons.1 h with rfl | hrest
      · exact .inl ⟨hk, List.mem_cons_self⟩
      · rcases ih hm hrest with ⟨hne, hold⟩ | ⟨b, hb, rfl⟩ | ⟨hnew, rfl⟩
        · exact .inl ⟨hne, List.mem_cons_of_mem _ hold⟩
        · exact .inr (.inl ⟨b, List.mem_cons_of_mem _ hb, rfl⟩)
        · refine .inr (.inr ⟨?_, rfl⟩)
          simp only [List.map_cons, List.mem_cons, not_or]
          exact ⟨Ne.symm hk, hnew⟩

/-- What the entries add up to grows by what the item adds to its own. -/
theorem sum_mapUpdate {M : Type} [AddCommMonoid M] {g : β → M} {w : M} {f : β → β} {init : β}
    (key : κ) (hf : ∀ b, g (f b) = g b + w) (hinit : g init = 0) (m : List (κ × β)) :
    ((mapUpdate key f init m).map fun kb => g kb.2).sum = (m.map fun kb => g kb.2).sum + w := by
  induction m with
  | nil => simp [mapUpdate, hf, hinit]
  | cons kb m ih =>
    by_cases hk : kb.1 = key
    · simp only [mapUpdate, if_pos hk, List.map_cons, List.sum_cons, hf]
      exact add_right_comm _ _ _
    · simp only [mapUpdate, if_neg hk, List.map_cons, List.sum_cons, ih]
      exact (add_assoc _ _ _).symm

/-- A part of the values that is updated on its own. -/
theorem map_mapUpdate {γ : Type} (g : β → γ) {f : β → β} (f' : γ → γ) (hf : ∀ b, g (f b) = f' (g b))
    (key : κ) (init : β) (m : List (κ × β)) :
    (mapUpdate key f init m).map (Prod.map id g) =
      mapUpdate key f' (g init) (m.map (Prod.map id g)) := by
  induction m with
  | nil => simp [mapUpdate, hf]
  | cons kb m ih =>
    obtain ⟨k, b⟩ := kb
    by_cases hk : k = key
    · simp [mapUpdate, hk, hf]
    · simp [mapUpdate, hk, ih]

/-! ## All the items -/

section
variable {key : α → κ} {init : α → β} {add : β → α → β}

theorem groups_concat (xs : List α) (x : α) : groups key init add (xs ++ [x]) =
    mapUpdate (key x) (fun b => add b x) (init x) (groups key init add xs) := by
  simp [groups]

theorem nodup_groups (xs : List α) : ((groups key init add xs).map Prod.fst).Nodup := by
  induction xs using List.reverseRecOn with
  | nil => exact List.nodup_nil
  | append_singleton xs x ih =>
    rw [groups_concat]
    exact nodup_mapUpdate ih

theorem mem_keys_groups {xs : List α} {k : κ} :
    k ∈ (groups key init add xs).map Prod.fst ↔ ∃ x ∈ xs, key x = k := by
  induction xs using List.reverseRecOn with
  | nil => simp [groups]
  | append_singleton xs x ih =>
    rw [groups_concat, mem_keys_mapUpdate, ih]
    simp only [List.mem_append, List.mem_singleton, or_and_right, exists_or, exists_eq_left,
      eq_comm (a := k)]

/-- An entry is the fold of the items of its key, from what one of them begins with. -/
theorem of_mem_groups {xs : List α} {k : κ} {b : β} (h : (k, b) ∈ groups key init add xs) :
    ∃ x ∈ xs, key x = k ∧ b = (xs.filter fun y => key y = k).foldl add (init x) := by
  induction xs using List.reverseRecOn generalizing b with
  | nil => cases h
  | append_singleton xs x ih =>
    rw [groups_concat] at h
    rw [List.filter_append]
    rcases mem_mapUpdate (nodup_groups xs) h with ⟨hne, hold⟩ | ⟨b', hold, heq⟩ | ⟨hnew, heq⟩
    · obtain ⟨y, hy, hk, rfl⟩ := ih hold
      have hother : ([x].filter fun y => key y = k) = [] := by simp [Ne.symm hne]
      refine ⟨y, List.mem_append_left _ hy, hk, ?_⟩
      rw [hother, List.append_nil]
    · obtain ⟨rfl, rfl⟩ := Prod.mk.inj heq
      obtain ⟨y, hy, hk, rfl⟩ := ih hold
      refine ⟨y, List.mem_append_left _ hy, hk, ?_⟩
      simp [List.foldl_append]
    · obtain ⟨rfl, rfl⟩ := Prod.mk.inj heq
      have hnone : (xs.filter fun y => key y = key x) = [] :=
        List.filter_eq_nil_iff.2 fun y hy hsame =>
          hnew (mem_keys_groups.2 ⟨y, hy, of_decide_eq_true hsame⟩)
      refine ⟨x, List.mem_append_right _ (List.mem_singleton.2 rfl), rfl, ?_⟩
      simp [hnone]

theorem map_groups {γ : Type} (g : β → γ) {add' : γ → α → γ}
    (hadd : ∀ b x, g (add b x) = add' (g b) x) (xs : List α) :
    (groups key init add xs).map (Prod.map id g) = groups key (fun x => g (init x)) add' xs := by
  induction xs using List.reverseRecOn with
  | nil => rfl
  | append_singleton xs x ih =>
    have hstep := map_mapUpdate g (fun c => add' c x) (fun b => hadd b x) (key x) (init x)
    rw [groups_concat, groups_concat, hstep, ih]

theorem sum_groups {M : Type} [AddCommMonoid M] {g : β → M} {w : α → M}
    (hadd : ∀ b x, g (add b x) = g b + w x) (hinit : ∀ x, g (init x) = 0) (xs : List α) :
    ((groups key init add xs).map fun kb => g kb.2).sum = (xs.map w).sum := by
  induction xs using List.reverseRecOn with
  | nil => rfl
  | append_singleton xs x ih =>
    rw [groups_concat, sum_mapUpdate (key x) (fun b => hadd b x) (hinit x), ih, List.map_append,
      List.sum_append, List.map_singleton, List.sum_singleton]

end

end Grouping
