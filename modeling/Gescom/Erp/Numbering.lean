import Gescom.Lib.Numbering
import Gescom.Erp.DocumentRepositories

/-!
# Unique indexes and counters under concurrent `create` calls

The counter row stays locked from the upsert to the end of its transaction, and a transaction that
does not commit leaves the counter as it was. So at every commit the number of the new row is the
one after the last committed number, whatever other calls, failures and rollbacks came before.
-/

namespace Gescom.Erp

open ReadCommitted Transition

variable {ι φ ρ ν : Type} [DocumentRow ρ] {s s' : ErpStore} {pid : Nat}

/-! ## Counter rows -/

theorem lastNumber_setCounter (t : Table Counter) (e e' : Uuid) (n : Nat) :
    (((setCounter e n t).find? e').map Counter.lastNumber).getD 0 =
      if e' = e then n else ((t.find? e').map Counter.lastNumber).getD 0 := by
  unfold setCounter
  rw [Table.find?_update]
  by_cases he : e' = e
  · subst he
    cases ht : t.find? e' with
    | none =>
      rw [Table.find?_insert ht]
      simp [Keyed.key]
    | some c =>
      rw [Table.find?_insert_of_some ht]
      simp
  · rw [if_neg he, if_neg he, Table.find?_insert_ne he]

theorem lastNumber_setLastNumber (db : Db) (series : Series) (e e' : Uuid) (n : Nat) :
    (db.setLastNumber series e n).lastNumber series e' =
      if e' = e then n else db.lastNumber series e' := by
  cases series <;> exact lastNumber_setCounter _ e e' n

/-! ## The two invariants -/

/-- No two rows share an entry of a unique index. -/
def Repository.Indexed (R : Repository ι φ ρ ν) (db : Db) : Prop :=
  (R.table db).rows.Pairwise fun a b => Repository.sameEntry a b = false

/-- Every enterprise's rows carry the numbers from 1 to its counter, in the order of their
commits. -/
def Repository.GapFree (R : Repository ι φ ρ ν) (series : Series) (db : Db) : Prop :=
  Numbering.GapFree DocumentRow.enterpriseId DocumentRow.number
    (fun e n => some (series.number e n)) (R.table db).rows (db.lastNumber series)

/-- The columns of a new row that the indexes and the counter are about. -/
structure Repository.RowsOk (R : Repository ι φ ρ ν) : Prop where
  owner : ∀ c found n draw t, DocumentRow.enterpriseId (R.row c found n draw t) = c.enterpriseId
  key : ∀ c found n draw t, DocumentRow.idempotencyKey (R.row c found n draw t) = c.idempotencyKey
  number : ∀ series, R.series = some series → ∀ c found n draw t,
    DocumentRow.number (R.row c found n draw t) = some (series.number c.enterpriseId n)

namespace Repository

variable {R : Repository ι φ ρ ν} {series : Series} {db : Db}

/-- Rows with a common index entry need a common lock. -/
theorem lock_of_sameEntry {a b : ρ} (h : sameEntry a b = true) :
    ∃ lock ∈ R.locks a, lock ∈ R.locks b := by
  simp only [sameEntry, Bool.or_eq_true, Bool.and_eq_true, beq_iff_eq] at h
  rcases h with ((hid | ⟨⟨howner, hsome⟩, hkey⟩) | ⟨hsome, hnumber⟩) | ⟨hsome, hsale⟩
  · exact ⟨.id R.collection (Keyed.key a), by simp [locks], by simp [locks, hid]⟩
  · obtain ⟨key, ha⟩ := Option.isSome_iff_exists.1 hsome
    refine ⟨.key R.collection (DocumentRow.enterpriseId a) key, ?_, ?_⟩
    · simp [locks, ha]
    · simp [locks, howner, ← hkey, ha]
  · obtain ⟨number, ha⟩ := Option.isSome_iff_exists.1 hsome
    exact ⟨.number R.collection number, by simp [locks, ha], by simp [locks, ← hnumber, ha]⟩
  · obtain ⟨sale, ha⟩ := Option.isSome_iff_exists.1 hsome
    exact ⟨.invoiceOf sale, by simp [locks, ha], by simp [locks, ← hsale, ha]⟩

theorem rows_commit {r : ρ} (h : R.refuses db r = false) (e : Uuid) (n : Nat) :
    (R.table (R.commit e r n db)).rows = (R.table db).rows ++ [r] := by
  rw [table_commit, Table.rows_insert (accepted_id h)]

theorem lastNumber_commit (hseries : R.series = some series) (r : ρ) (e e' : Uuid) (n : Nat) :
    (R.commit e r n db).lastNumber series e' =
      if e' = e then n else db.lastNumber series e' := by
  simp only [commit, hseries]
  rw [lastNumber_setLastNumber]
  simp only [Db.lastNumber, insert, R.counters_put]

theorem Indexed.commit {r : ρ} (hI : R.Indexed db) (h : R.refuses db r = false) (e : Uuid)
    (n : Nat) : R.Indexed (R.commit e r n db) := by
  unfold Indexed
  rw [rows_commit h, List.pairwise_append]
  refine ⟨hI, List.pairwise_singleton .., fun x hx y hy => ?_⟩
  rw [List.mem_singleton.1 hy]
  exact refuses_eq_false.1 h x hx

theorem GapFree.commit {r : ρ} (hI : R.GapFree series db) (hseries : R.series = some series)
    (h : R.refuses db r = false) {e : Uuid} (howner : DocumentRow.enterpriseId r = e)
    (hnumber : DocumentRow.number r = some (series.number e (db.lastNumber series e + 1))) :
    R.GapFree series (R.commit e r (db.lastNumber series e + 1) db) := by
  subst howner
  unfold GapFree
  rw [rows_commit h]
  refine Numbering.GapFree.append hI hnumber ?_ fun e' he' => ?_
  · rw [lastNumber_commit hseries, if_pos rfl]
  · rw [lastNumber_commit hseries, if_neg he']

/-- The indexes and the counter of a repository. -/
def Integrity (R : Repository ι φ ρ ν) (s : ErpStore) : Prop :=
  R.Indexed s.db ∧ ∀ series, R.series = some series → R.GapFree series s.db

/-- The number a call has drawn is the next one, and the call holds the counter. -/
def Draws (R : Repository ι φ ρ ν) (e : Uuid) (n : Nat) (pid : Nat) (s : ErpStore) : Prop :=
  ∀ series, R.series = some series →
    s.lock (.counter series e) = some pid ∧ n = s.db.lastNumber series e + 1

/-- What a call knows of the row it has inserted and not committed. -/
structure Pending (R : Repository ι φ ρ ν) (e : Uuid) (row : ρ) (n : Nat) (pid : Nat)
    (s : ErpStore) : Prop where
  owner : DocumentRow.enterpriseId row = e
  number : ∀ series, R.series = some series → DocumentRow.number row = some (series.number e n)
  draws : R.Draws e n pid s
  held : ∀ lock ∈ R.locks row, s.lock lock = some pid
  accepted : R.refuses s.db row = false

def Reserves (R : Repository ι φ ρ ν) (pid : Nat) (call : CreateCall ι φ ρ ν) (s : ErpStore) :
    Prop :=
  match call with
  | some (c, .inserting _ n) => R.Draws c.enterpriseId n pid s
  | some (c, .committing row n _) => R.Pending c.enterpriseId row n pid s
  | _ => True

/-- What a step of `pid` is for the others. -/
def Commits (R : Repository ι φ ρ ν) (pid : Nat) (s s' : ErpStore) : Prop :=
  LocksKept pid s s' ∧
    ((R.table s'.db = R.table s.db ∧ s'.db.counters = s.db.counters) ∨
      ∃ e row n, R.Pending e row n pid s ∧ s'.db = R.commit e row n s.db)

theorem Commits.of_db (hl : LocksKept pid s s') (h : s'.db = s.db) : R.Commits pid s s' :=
  ⟨hl, .inl ⟨by rw [h], by rw [h]⟩⟩

/-- Assertions only look at the table, the counters and the locks. -/
theorem Draws.congr {e : Uuid} {n : Nat} (hc : s'.db.counters = s.db.counters)
    (hl : ∀ k, s.lock k = some pid → s'.lock k = some pid) (h : R.Draws e n pid s) :
    R.Draws e n pid s' := by
  intro series hseries
  obtain ⟨hlock, hn⟩ := h series hseries
  exact ⟨hl _ hlock, by simp only [Db.lastNumber, hc]; exact hn⟩

theorem Pending.congr {e : Uuid} {row : ρ} {n : Nat} (ht : R.table s'.db = R.table s.db)
    (hc : s'.db.counters = s.db.counters) (hl : ∀ k, s.lock k = some pid → s'.lock k = some pid)
    (h : R.Pending e row n pid s) : R.Pending e row n pid s' where
  owner := h.owner
  number := h.number
  draws := h.draws.congr hc hl
  held lock hmem := hl lock (h.held lock hmem)
  accepted := by
    unfold refuses
    rw [ht]
    exact h.accepted

theorem Reserves.congr {call : CreateCall ι φ ρ ν} (ht : R.table s'.db = R.table s.db)
    (hc : s'.db.counters = s.db.counters) (hl : ∀ k, s.lock k = some pid → s'.lock k = some pid)
    (h : R.Reserves pid call s) : R.Reserves pid call s' := by
  cases call with
  | none => trivial
  | some call =>
    obtain ⟨c, st⟩ := call
    cases st with
    | inserting found n => exact Draws.congr hc hl h
    | committing row n view => exact Pending.congr ht hc hl h
    | _ => trivial

/-- Another call's commit does not touch a counter this call holds. -/
theorem Draws.other {e e' : Uuid} {n n' : Nat} {row' : ρ} {pid' : Nat} (hne : pid ≠ pid')
    (hcommit : R.Pending e' row' n' pid s) (hdb : s'.db = R.commit e' row' n' s.db)
    (hl : ∀ k, s.lock k = some pid' → s'.lock k = some pid') (h : R.Draws e n pid' s) :
    R.Draws e n pid' s' := by
  intro series hseries
  obtain ⟨hlock, hn⟩ := h series hseries
  refine ⟨hl _ hlock, ?_⟩
  have hother : e ≠ e' := by
    rintro rfl
    have hheld := (hcommit.draws series hseries).1
    rw [hlock] at hheld
    exact hne (Option.some.inj hheld).symm
  rw [hdb, lastNumber_commit hseries, if_neg hother]
  exact hn

theorem Pending.other {e e' : Uuid} {n n' : Nat} {row row' : ρ} {pid' : Nat} (hne : pid ≠ pid')
    (hcommit : R.Pending e' row' n' pid s) (hdb : s'.db = R.commit e' row' n' s.db)
    (hl : ∀ k, s.lock k = some pid' → s'.lock k = some pid') (h : R.Pending e row n pid' s) :
    R.Pending e row n pid' s' where
  owner := h.owner
  number := h.number
  draws := h.draws.other hne hcommit hdb hl
  held lock hmem := hl lock (h.held lock hmem)
  accepted := by
    rw [refuses_eq_false, hdb, rows_commit hcommit.accepted]
    intro x hx
    rcases List.mem_append.1 hx with hx | hx
    · exact refuses_eq_false.1 h.accepted x hx
    · -- the two rows would need one lock
      rw [List.mem_singleton.1 hx]
      by_contra hsame
      obtain ⟨lock, h', hrow⟩ := lock_of_sameEntry (R := R) (by simpa using hsame)
      have hheld := hcommit.held lock h'
      rw [h.held lock hrow] at hheld
      exact hne (Option.some.inj hheld).symm

theorem Reserves.stable {call : CreateCall ι φ ρ ν} {pid' : Nat} (hne : pid ≠ pid')
    (hstep : R.Commits pid s s') (h : R.Reserves pid' call s) : R.Reserves pid' call s' := by
  have hl : ∀ k, s.lock k = some pid' → s'.lock k = some pid' :=
    fun k => (hstep.1 k pid' (Ne.symm hne)).2
  rcases hstep.2 with ⟨ht, hc⟩ | ⟨e, row, n, hcommit, hdb⟩
  · exact Reserves.congr ht hc hl h
  · cases call with
    | none => trivial
    | some call =>
      obtain ⟨c, st⟩ := call
      cases st with
      | inserting found n => exact Draws.other hne hcommit hdb hl h
      | committing row n view => exact Pending.other hne hcommit hdb hl h
      | _ => trivial

/-- One step of a thread. -/
theorem Effect.reserves (hR : R.RowsOk) {c : Create ι} {st st' : CreateState φ ρ ν}
    (hI : R.Integrity s) (hQ : R.Reserves pid (some (c, st)) s)
    (h : R.Effect c pid s st s' st') :
    R.Integrity s' ∧ R.Reserves pid (some (c, st')) s' ∧ R.Commits pid s s' := by
  cases h with
  | silent _ _ hdb hlocks hidle =>
    refine ⟨by unfold Integrity; rw [hdb]; exact hI, ?_, .of_db hlocks hdb⟩
    cases st' with
    | inserting found n => exact hidle.elim
    | committing row n view => exact hidle.elim
    | _ => trivial
  | unnumbered found hseries =>
    refine ⟨hI, ?_, .of_db (.of_eq rfl) rfl⟩
    intro series hsome
    rw [hseries] at hsome
    cases hsome
  | numbered found series hseries hfree =>
    refine ⟨hI, ?_, .of_db (locksKept_acquire hfree) rfl⟩
    intro series' hsome
    obtain rfl := Option.some.inj (hseries.symm.trans hsome)
    exact ⟨acquire_lock_self, rfl⟩
  | inserted found sequence draw row stmt hrow hfree haccepted =>
    subst stmt
    have hdraws : R.Draws c.enterpriseId sequence pid s := hQ
    refine ⟨hI, ?_, .of_db (locksKept_acquireAll fun lock hl => hfree lock (by simpa using hl)) rfl⟩
    refine ⟨?_, fun series hseries => ?_, ?_, fun lock hmem => ?_, haccepted⟩
    · rw [hrow]
      exact hR.owner ..
    · rw [hrow]
      exact hR.number series hseries ..
    · exact Draws.congr (s := s) rfl (fun k hk => acquireAll_keeps hk) hdraws
    · simp [Store.acquireAll, hmem]
  | committed row sequence view stmt =>
    subst stmt
    have hpending : R.Pending c.enterpriseId row sequence pid s := hQ
    refine ⟨⟨hI.1.commit hpending.accepted _ _, fun series hseries => ?_⟩, trivial,
      locksKept_commit, .inr ⟨_, row, sequence, hpending, rfl⟩⟩
    have hn := (hpending.draws series hseries).2
    have hnumber := hpending.number series hseries
    subst hn
    exact (hI.2 series hseries).commit hseries hpending.accepted hpending.owner hnumber

/-- The outline of `create`, for every run. -/
theorem integrity (hR : R.RowsOk) :
    Outline R.creates Always R.Integrity R.Reserves R.Commits where
  own P pid i s t _ hI hQ hst := by
    obtain ⟨c, st, st', hcall, rfl, heffect⟩ := thread_effect hst
    rw [hcall] at hQ
    exact heffect.reserves hR hI hQ
  stable _ _ _ _ _ hne _ _ hG hQ := Reserves.stable hne hG hQ
  env P x _ hI := by
    have ht : R.table (R.creates.env x P.shared).db = R.table P.shared.db := x.table _
    have hc : (R.creates.env x P.shared).db.counters = P.shared.db.counters := x.counters _
    have hlast : (R.creates.env x P.shared).db.lastNumber = P.shared.db.lastNumber := by
      funext series e
      simp only [Db.lastNumber, hc]
    refine ⟨?_, fun pid call hQ => Reserves.congr ht hc (fun _ hk => hk) hQ⟩
    simp only [Integrity, Indexed, GapFree, ht, hlast] at hI ⊢
    exact hI

end Repository

end Gescom.Erp
