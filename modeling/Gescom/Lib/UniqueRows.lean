import Gescom.Lib.ReadCommitted
import Mathlib.Data.List.Nodup
import Mathlib.Data.List.Pairwise

/-!
# Rows under unique indexes

Each row has some index entries, and no two rows have the same. A transaction that inserts rows waits
for the entries that another one has locked, fails on those that are taken, and holds the locks of its
own until it ends. `Pending` is what it may rely on meanwhile, and `Pending.append` says that its commit
loses none of its rows.
-/

namespace UniqueRows

open ReadCommitted

variable {ρ κ δ : Type} [DecidableEq κ] {entries : ρ → List κ}

structure Rows (entries : ρ → List κ) where
  rows : List ρ
  unique : (rows.flatMap entries).Nodup

namespace Rows

variable {t : Rows entries} {new : List ρ} {k : κ} {r : ρ}

/-- Some row has this entry. -/
def taken (t : Rows entries) (k : κ) : Bool := decide (k ∈ t.rows.flatMap entries)

/-- The rows of a transaction. -/
def append (t : Rows entries) (new : List ρ) : Rows entries :=
  if h : ((t.rows ++ new).flatMap entries).Nodup then ⟨t.rows ++ new, h⟩ else t

/-- An update that leaves the indexed columns. -/
def map (t : Rows entries) (f : ρ → ρ) (hf : ∀ r, entries (f r) = entries r) : Rows entries :=
  ⟨t.rows.map f, by
    have hsame : (t.rows.map f).flatMap entries = t.rows.flatMap entries := by
      simp [List.flatMap_map, hf]
    exact hsame ▸ t.unique⟩

theorem taken_iff : t.taken k = true ↔ ∃ r ∈ t.rows, k ∈ entries r := by
  simp [taken]

theorem taken_map {f : ρ → ρ} (hf : ∀ r, entries (f r) = entries r) :
    (t.map f hf).taken k = t.taken k := by
  simp [taken, map, List.flatMap_map, hf]

theorem taken_of_append (h : (t.append new).taken k = true) :
    t.taken k = true ∨ k ∈ new.flatMap entries := by
  obtain ⟨r, hr, hk⟩ := taken_iff.1 h
  unfold append at hr
  split at hr
  · rcases List.mem_append.1 hr with hr | hr
    · exact .inl (taken_iff.2 ⟨r, hr, hk⟩)
    · exact .inr (List.mem_flatMap.2 ⟨r, hr, hk⟩)
  · exact .inl (taken_iff.2 ⟨r, hr, hk⟩)

theorem append_of_nodup (h : ((t.rows ++ new).flatMap entries).Nodup) :
    (t.append new).rows = t.rows ++ new := by
  rw [append, dif_pos h]

end Rows

omit [DecidableEq κ] in
/-- A column with a unique index. -/
theorem Rows.nodup_filterMap {α β : Type} (t : Rows entries) {f : ρ → Option α} {key : α → β} (entry : β → κ)
    (hentry : ∀ r x, f r = some x → entry (key x) ∈ entries r) :
    ((t.rows.filterMap f).map key).Nodup := by
  have hsub : ∀ rows : List ρ, List.Sublist (((rows.filterMap f).map key).map entry) (rows.flatMap entries) := by
    intro rows
    induction rows with
    | nil => exact List.Sublist.refl _
    | cons r rows ih =>
      rw [List.flatMap_cons, List.filterMap_cons]
      split
      · exact ih.trans (List.sublist_append_right _ _)
      · rename_i x hx
        rw [List.map_cons, List.map_cons, ← List.singleton_append]
        exact (List.singleton_sublist.2 (hentry r x hx)).append ih
  exact List.Nodup.of_map entry (t.unique.sublist (hsub t.rows))

omit [DecidableEq κ] in
/-- Two rows that share an entry are one. -/
theorem eq_of_entry {rows : List ρ} {r r' : ρ} {k : κ} (h : (rows.flatMap entries).Nodup)
    (hr : r ∈ rows) (hr' : r' ∈ rows) (hk : k ∈ entries r) (hk' : k ∈ entries r') : r = r' := by
  by_contra hne
  have : Std.Symm (Function.onFun List.Disjoint entries) := ⟨fun _ _ h _ ha hb => h hb ha⟩
  exact (List.nodup_flatMap.1 h).2.forall hr hr' hne hk hk'

/-! ## Entries that a transaction takes -/

inductive Taking (δ κ : Type) where
  | waits
  | violation
  | done (s : Store δ κ)

/-- The entries `new` of one statement, for a transaction that holds the entries `held`. -/
def take (s : Store δ κ) (taken : κ → Bool) (pid : Nat) (held new : List κ) : Taking δ κ :=
  match new.find? fun k => taken k || !s.free pid k with
  | some k => if taken k then .violation else .waits
  | none => if (held ++ new).Nodup then .done (s.acquireAll pid fun k => decide (k ∈ new)) else .violation

section
variable {s s' : Store δ κ} {taken : κ → Bool} {pid : Nat} {held new : List κ}

theorem take_done (h : take s taken pid held new = .done s') :
    (held ++ new).Nodup ∧ (∀ k ∈ new, taken k = false ∧ s.free pid k = true) ∧
      s' = s.acquireAll pid fun k => decide (k ∈ new) := by
  unfold take at h
  split at h
  · split at h <;> cases h
  · rename_i hnone
    split at h
    · rename_i hnodup
      cases h
      refine ⟨hnodup, fun k hk => ?_, rfl⟩
      simpa using List.find?_eq_none.1 hnone k hk
    · cases h

/-- Without other transactions nothing waits. -/
theorem take_alone (hs : s.Alone pid) (hnodup : (held ++ new).Nodup) (hnew : ∀ k ∈ new, taken k = false) :
    take s taken pid held new = .done (s.acquireAll pid fun k => decide (k ∈ new)) := by
  have hnone : (new.find? fun k => taken k || !s.free pid k) = none :=
    List.find?_eq_none.2 fun k hk => by simp [hnew k hk, hs.free k]
  simp only [take, hnone, if_pos hnodup]

theorem take_taken (hs : s.Alone pid) {k : κ} (hk : k ∈ new) (htaken : taken k = true) :
    take s taken pid held new = .violation := by
  unfold take
  split
  · rename_i k' hk'
    have := List.find?_some hk'
    simp only [hs.free k', Bool.not_true, Bool.or_false] at this
    rw [if_pos this]
  · rename_i hnone
    have := List.find?_eq_none.1 hnone k hk
    simp [htaken] at this

/-- A violation is an entry that is taken, or one the transaction takes twice. -/
theorem take_violation (h : take s taken pid held new = .violation) :
    (∃ k ∈ new, taken k = true) ∨ ¬ (held ++ new).Nodup := by
  unfold take at h
  split at h
  · rename_i k hk
    split at h
    · rename_i htaken
      exact .inl ⟨k, List.mem_of_find?_eq_some hk, htaken⟩
    · cases h
  · split at h
    · cases h
    · rename_i hnodup
      exact .inr hnodup

end

/-- Transaction `pid` holds `held`, and none of it is committed. -/
structure Pending (taken : κ → Bool) (lock : κ → Option Nat) (pid : Nat) (held : List κ) : Prop where
  unique : held.Nodup
  locked : ∀ k ∈ held, lock k = some pid
  untaken : ∀ k ∈ held, taken k = false

namespace Pending

variable {taken taken' : κ → Bool} {lock lock' : κ → Option Nat} {pid : Nat} {held new : List κ}
  {s s' : Store δ κ}

omit [DecidableEq κ] in
theorem nil : Pending taken lock pid [] :=
  ⟨List.nodup_nil, fun _ h => (List.not_mem_nil h).elim, fun _ h => (List.not_mem_nil h).elim⟩

omit [DecidableEq κ] in
theorem perm (h : Pending taken lock pid held) (hp : held.Perm new) : Pending taken lock pid new where
  unique := hp.nodup_iff.1 h.unique
  locked k hk := h.locked k (hp.mem_iff.2 hk)
  untaken k hk := h.untaken k (hp.mem_iff.2 hk)

omit [DecidableEq κ] in
/-- What another transaction does leaves them alone: it takes no lock away and commits no entry that
it has not locked. -/
theorem stable (h : Pending taken lock pid held)
    (hlock : ∀ k, lock k = some pid → lock' k = some pid)
    (htaken : ∀ k, lock k = some pid → taken' k = true → taken k = true) :
    Pending taken' lock' pid held where
  unique := h.unique
  locked k hk := hlock k (h.locked k hk)
  untaken k hk := by
    by_contra htrue
    have hold := htaken k (h.locked k hk) (by simpa using htrue)
    rw [h.untaken k hk] at hold
    cases hold

/-- One more statement. -/
theorem take (h : Pending taken s.lock pid held)
    (hdone : UniqueRows.take s taken pid held new = .done s') :
    Pending taken s'.lock pid (held ++ new) := by
  obtain ⟨hnodup, hnew, rfl⟩ := take_done hdone
  refine ⟨hnodup, fun k hk => ?_, fun k hk => ?_⟩ <;> rcases List.mem_append.1 hk with hold | hk
  · exact acquireAll_keeps (h.locked k hold)
  · simp [Store.acquireAll, hk]
  · exact h.untaken k hold
  · exact (hnew k hk).1

/-- The commit keeps every row. -/
theorem append {t : Rows entries} {rows : List ρ}
    (h : Pending t.taken lock pid (rows.flatMap entries)) :
    (t.append rows).rows = t.rows ++ rows := by
  refine Rows.append_of_nodup ?_
  rw [List.flatMap_append, List.nodup_append]
  refine ⟨t.unique, h.unique, fun k hk k' hk' heq => ?_⟩
  subst heq
  have htaken := h.untaken k hk'
  simp only [Rows.taken, decide_eq_false_iff_not] at htaken
  exact htaken hk

end Pending

end UniqueRows
