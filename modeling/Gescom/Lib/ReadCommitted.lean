import Mathlib.Logic.Function.Basic

/-!
# Read committed: row locks and pending writes

A `Store` is the committed data with the row locks that open transactions hold. A statement reads
the latest committed data (with its own transaction's pending writes on top); a statement that
writes row `k` waits until `k` is `free` for it and then holds the lock until its transaction
commits or rolls back. Pending writes live in the writing thread and reach the committed data at
`commit` only, so nobody else ever sees them.
-/

namespace ReadCommitted

structure Store (δ κ : Type) where
  db : δ
  lock : κ → Option Nat

variable {δ κ : Type} {s : Store δ κ} {pid pid' : Nat} {k : κ}

/-- No other transaction holds `k`. -/
def Store.free (s : Store δ κ) (pid : Nat) (k : κ) : Bool :=
  s.lock k == none || s.lock k == some pid

def Store.acquire [DecidableEq κ] (s : Store δ κ) (pid : Nat) (k : κ) : Store δ κ :=
  { s with lock := Function.update s.lock k (some pid) }

def Store.acquireAll (s : Store δ κ) (pid : Nat) (p : κ → Bool) : Store δ κ :=
  { s with lock := fun k => if p k then some pid else s.lock k }

/-- Rollback: the pending writes are dropped with the thread's local state, the locks go free. -/
def Store.release (s : Store δ κ) (pid : Nat) : Store δ κ :=
  { s with lock := fun k => if s.lock k = some pid then none else s.lock k }

/-- A statement outside any transaction commits at once. -/
def Store.autocommit (s : Store δ κ) (f : δ → δ) : Store δ κ := { s with db := f s.db }

def Store.commit (s : Store δ κ) (pid : Nat) (f : δ → δ) : Store δ κ := (s.autocommit f).release pid

@[simp] theorem acquire_db [DecidableEq κ] : (s.acquire pid k).db = s.db := rfl
@[simp] theorem autocommit_db {f : δ → δ} : (s.autocommit f).db = f s.db := rfl
@[simp] theorem commit_db {f : δ → δ} : (s.commit pid f).db = f s.db := rfl

theorem free_iff : s.free pid k = true ↔ s.lock k = none ∨ s.lock k = some pid := by
  simp [Store.free]

/-- A lock another transaction holds is not free. -/
theorem not_free (h : s.lock k = some pid') (hne : pid ≠ pid') : s.free pid k = false := by
  simp [Store.free, h, Ne.symm hne]

@[simp] theorem acquire_lock_self [DecidableEq κ] : (s.acquire pid k).lock k = some pid := by
  simp [Store.acquire]

theorem acquire_keeps [DecidableEq κ] {k' : κ} (h : s.lock k' = some pid) :
    (s.acquire pid k).lock k' = some pid := by
  by_cases hk : k' = k
  · subst hk; exact acquire_lock_self
  · simpa [Store.acquire, Function.update_of_ne hk] using h

theorem acquireAll_keeps {p : κ → Bool} {k' : κ} (h : s.lock k' = some pid) :
    (s.acquireAll pid p).lock k' = some pid := by
  simp [Store.acquireAll, h]

theorem acquire_ne [DecidableEq κ] {k' : κ} (h : k' ≠ k) :
    (s.acquire pid k).lock k' = s.lock k' := by
  simp [Store.acquire, Function.update_of_ne h]

theorem acquireAll_ne {p : κ → Bool} (h : p k = false) :
    (s.acquireAll pid p).lock k = s.lock k := by
  simp [Store.acquireAll, h]

/-- A released transaction holds nothing. -/
theorem release_ne : (s.release pid).lock k ≠ some pid := by
  simp only [Store.release]
  split
  · simp
  · assumption

/-- `pid` is the only one that holds locks. -/
def Store.Alone (s : Store δ κ) (pid : Nat) : Prop := ∀ k, s.lock k = none ∨ s.lock k = some pid

theorem Store.Alone.free (h : s.Alone pid) (k : κ) : s.free pid k = true := free_iff.2 (h k)

theorem Store.Alone.acquire [DecidableEq κ] (h : s.Alone pid) (k : κ) :
    (s.acquire pid k).Alone pid := by
  intro k'
  by_cases hk : k' = k
  · subst hk
    exact .inr acquire_lock_self
  · rw [acquire_ne hk]
    exact h k'

theorem Store.Alone.acquireAll (h : s.Alone pid) (p : κ → Bool) :
    (s.acquireAll pid p).Alone pid := by
  intro k
  by_cases hk : p k = true
  · simp [Store.acquireAll, hk]
  · rw [acquireAll_ne (by simpa using hk)]
    exact h k

theorem Store.Alone.release (h : s.Alone pid) :
    s.release pid = { db := s.db, lock := fun _ => none } := by
  simp only [Store.release, Store.mk.injEq, true_and]
  funext k
  rcases h k with hk | hk <;> simp [hk]

theorem Store.Alone.commit (h : s.Alone pid) (f : δ → δ) :
    s.commit pid f = { db := f s.db, lock := fun _ => none } :=
  Store.Alone.release (s := s.autocommit f) h

/-- A step of `pid` on the locks: it neither takes a lock from another thread nor gives it one. -/
def LocksKept (pid : Nat) (s s' : Store δ κ) : Prop :=
  ∀ k pid', pid' ≠ pid → (s'.lock k = some pid' ↔ s.lock k = some pid')

theorem LocksKept.of_eq {s' : Store δ κ} (h : s'.lock = s.lock) : LocksKept pid s s' := by
  intro k pid' _; rw [h]

theorem locksKept_acquire [DecidableEq κ] (h : s.free pid k = true) :
    LocksKept pid s (s.acquire pid k) := by
  intro k' pid' hne
  simp only [Store.acquire]
  by_cases hk : k' = k
  · subst hk
    rcases free_iff.1 h with hl | hl <;> simp [hl, Ne.symm hne]
  · rw [Function.update_of_ne hk]

theorem locksKept_acquireAll {p : κ → Bool} (h : ∀ k, p k = true → s.free pid k = true) :
    LocksKept pid s (s.acquireAll pid p) := by
  intro k' pid' hne
  simp only [Store.acquireAll]
  by_cases hk : p k' = true
  · rcases free_iff.1 (h k' hk) with hl | hl <;> simp [hk, hl, Ne.symm hne]
  · simp [hk]

theorem locksKept_release : LocksKept pid s (s.release pid) := by
  intro k' pid' hne
  simp only [Store.release]
  by_cases hk : s.lock k' = some pid
  · simp [hk, Ne.symm hne]
  · simp [hk]

theorem locksKept_commit {f : δ → δ} : LocksKept pid s (s.commit pid f) := by
  intro k' pid' hne
  exact locksKept_release (s := s.autocommit f) k' pid' hne

end ReadCommitted
