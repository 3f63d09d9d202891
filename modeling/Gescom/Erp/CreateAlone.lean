import Mathlib.Logic.Relation
import Gescom.Erp.Create

/-!
# `create` of the document repositories, alone

`Repository.create` is the method as one program. `create_alone` says that it is what the statements
of `Repository.step` do when no other transaction holds a lock: the same answer, the same rows.
-/

namespace Gescom.Erp

open Confinement ReadCommitted

variable {ι φ ρ ν : Type} [DocumentRow ρ]

namespace Repository

section
variable (R : Repository ι φ ρ ν)

/-- The lookup by idempotency key, with the view of the row it finds. -/
def replay (c : Create ι) : Transaction (Option ν) :=
  ask fun db => .ok <|
    ((truthy c.idempotencyKey).bind (R.findFirst db c.enterpriseId)).map (R.toView db)

/-- The statements between the lookup and the insert. -/
def lookUp (c : Create ι) : Transaction φ := ask (R.gather c.enterpriseId c.input)

/-- The number a row gets; 0 where rows have none. -/
def sequence (e : Uuid) (db : Db) : Nat :=
  match R.series with
  | some series => db.lastNumber series e + 1
  | none => 0

/-- The insert. With a key, the `catch` around it looks the key up in the aborted transaction. -/
def insertRow (c : Create ι) (draw : Draw) (found : φ) : Transaction (CreateResult ν) := fun db =>
  let row := R.row c found (R.sequence c.enterpriseId db) draw db.now
  if R.refuses db row then
    if R.conflict.isNone && (truthy c.idempotencyKey).isSome then .error transactionAborted
    else .error (.prisma .p2002)
  else
    .ok (⟨R.created found (R.insert row db) row, true⟩,
      R.commit c.enterpriseId row (R.sequence c.enterpriseId db) db)

def insertNew (c : Create ι) (draw : Draw) : Transaction (CreateResult ν) := do
  let found ← R.lookUp c
  R.insertRow c draw found

def transaction (c : Create ι) (draw : Draw) : Transaction (CreateResult ν) := do
  match ← R.replay c with
  | some view => pure ⟨view, false⟩
  | none => R.insertNew c draw

/-- The last lookup of a `catch` around the transaction, and the error that leaves it. -/
def refusal (c : Create ι) (e : ApiError) : Transaction (CreateResult ν) :=
  ask fun db => .error ((R.conflict.bind fun conflict => conflict db c.input).getD e)

/-- The `catch` around the transaction. -/
def recover (c : Create ι) (e : ApiError) : Transaction (CreateResult ν) :=
  if R.conflict.isSome && isRequestError e then do
    match ← R.replay c with
    | some view => pure ⟨view, false⟩
    | none => R.refusal c e
  else throw e

def create (c : Create ι) (draw : Draw) : Transaction (CreateResult ν) :=
  match R.precheck c.input with
  | some e => throw e
  | none => rescue (R.transaction c draw) (R.recover c)

end

/-! ## The statements -/

variable {R : Repository ι φ ρ ν} {c : Create ι} {draw : Draw} {pid : Nat}

/-- Statements of one call, with nothing between them. -/
def Runs (R : Repository ι φ ρ ν) (c : Create ι) (draw : Draw) (pid : Nat) :
    ErpStore × CreateState φ ρ ν → ErpStore × CreateState φ ρ ν → Prop :=
  Relation.ReflTransGen fun x y => R.step c pid draw x.1 x.2 = some y

theorem Runs.of_step {x y z : ErpStore × CreateState φ ρ ν} (h : R.step c pid draw x.1 x.2 = some y)
    (hr : R.Runs c draw pid y z) : R.Runs c draw pid x z := .head h hr

/-- The call ends as the program does. -/
def EndsAs (R : Repository ι φ ρ ν) (c : Create ι) (draw : Draw) (pid : Nat) (s : ErpStore)
    (st : CreateState φ ρ ν) (m : Transaction (CreateResult ν)) : Prop :=
  ∃ s' r, R.Runs c draw pid (s, st) (s', .finished r) ∧ exec m s.db = (r, s'.db)

theorem EndsAs.of_step {s : ErpStore} {st : CreateState φ ρ ν} {m : Transaction (CreateResult ν)}
    (s' : ErpStore) (st' : CreateState φ ρ ν) (m' : Transaction (CreateResult ν))
    (h : R.step c pid draw s st = some (s', st')) (he : R.EndsAs c draw pid s' st' m')
    (hm : exec m s.db = exec m' s'.db) : R.EndsAs c draw pid s st m := by
  obtain ⟨s'', r, hruns, hexec⟩ := he
  exact ⟨s'', r, .of_step h hruns, hm.trans hexec⟩

theorem EndsAs.finished {s : ErpStore} {r : Except ApiError (CreateResult ν)}
    {m : Transaction (CreateResult ν)} (h : exec m s.db = (r, s.db)) :
    R.EndsAs c draw pid s (.finished r) m :=
  ⟨s, r, .refl, h⟩

/-- What follows a lookup by key. -/
theorem replay_bind (f : Option ν → Transaction (CreateResult ν)) (db : Db) :
    (R.replay c >>= f) db =
      f (((truthy c.idempotencyKey).bind (R.findFirst db c.enterpriseId)).map (R.toView db)) db :=
  rfl

theorem recovering_alone (R : Repository ι φ ρ ν) (c : Create ι) (draw : Draw) (pid : Nat)
    (e : ApiError) (s : ErpStore) :
    R.EndsAs c draw pid s (.recoveringBySale e) (R.refusal c e) := by
  refine .of_step s
    (.finished (.error ((R.conflict.bind fun conflict => conflict s.db c.input).getD e)))
    (R.refusal c e) ?_ (.finished rfl) rfl
  unfold step
  cases R.conflict.bind fun conflict => conflict s.db c.input with
  | none => rfl
  | some e' => rfl

/-- The error of a transaction, and the `catch` around it. -/
theorem thrown_alone (R : Repository ι φ ρ ν) (c : Create ι) (draw : Draw) (pid : Nat)
    (e : ApiError) (s : ErpStore) :
    R.EndsAs c draw pid s (R.thrown c e) (R.recover c e) := by
  unfold thrown recover
  split
  · split
    · cases hfound : (truthy c.idempotencyKey).bind (R.findFirst s.db c.enterpriseId) with
      | some existing =>
        refine .of_step s (.finished (.ok ⟨R.toView s.db existing, false⟩))
          (pure ⟨R.toView s.db existing, false⟩) ?_ (.finished rfl) ?_
        · simp only [step, hfound]
        · simp only [exec, replay_bind, hfound, Option.map_some]
      | none =>
        refine .of_step s (.recoveringBySale e) _ ?_ (recovering_alone R c draw pid e s) ?_
        · simp only [step, hfound]
        · simp only [exec, replay_bind, hfound, Option.map_none]
    · rename_i hkey
      have hnone : truthy c.idempotencyKey = none := by simpa using hkey
      obtain ⟨s', r, hruns, hexec⟩ := recovering_alone R c draw pid e s
      refine ⟨s', r, hruns, ?_⟩
      rw [← hexec]
      simp only [exec, replay_bind, hnone, Option.bind_none, Option.map_none]
  · exact .finished rfl

/-- An attempt that fails leaves the rest to the handler. -/
theorem exec_rescue_error {m : Transaction (CreateResult ν)} {db : Db} {e : ApiError}
    (h : m db = .error e) : exec (rescue m (R.recover c)) db = exec (R.recover c e) db := by
  simp only [exec, rescue, h]

theorem exec_rescue_ok {m : Transaction (CreateResult ν)} {db db' : Db} {r : CreateResult ν}
    (h : m db = .ok (r, db')) : exec (rescue m (R.recover c)) db = (.ok r, db') := by
  simp only [exec, rescue, h]

theorem inserting_alone (R : Repository ι φ ρ ν) (c : Create ι) (draw : Draw) {s : ErpStore}
    (hs : s.Alone pid) (found : φ) :
    R.EndsAs c draw pid s (.inserting found (R.sequence c.enterpriseId s.db))
      (rescue (R.insertRow c draw found) (R.recover c)) := by
  obtain ⟨row, hrow⟩ :
    ∃ row, R.row c found (R.sequence c.enterpriseId s.db) draw s.db.now = row := ⟨_, rfl⟩
  have hfree : ((R.locks row).all (s.free pid ·)) = true :=
    List.all_eq_true.2 fun lock _ => hs.free lock
  by_cases hrefused : R.refuses s.db row = true
  · by_cases hkey : (R.conflict.isNone && (truthy c.idempotencyKey).isSome) = true
    · -- the second lookup runs in the aborted transaction
      have hinsert : R.insertRow c draw found s.db = .error transactionAborted := by
        simp only [insertRow, hrow, hrefused, if_true, hkey]
      have hconflict : R.conflict.isSome = false := by
        have hnone := (Bool.and_eq_true_iff.1 hkey).1
        simpa using hnone
      refine .of_step s .recovering (throw transactionAborted) ?_ ?_ ?_
      · simp only [step, hrow, hfree, hrefused, if_true, hkey]
      · exact .of_step (s.release pid) _ (throw transactionAborted) rfl (.finished rfl) rfl
      · rw [exec_rescue_error hinsert, recover, hconflict]
        rfl
    · have hinsert : R.insertRow c draw found s.db = .error (.prisma .p2002) := by
        simp only [insertRow, hrow, hrefused, if_true, hkey]
        rfl
      refine .of_step (s.release pid) (R.thrown c (.prisma .p2002)) _ ?_
        (thrown_alone R c draw pid (.prisma .p2002) (s.release pid)) (exec_rescue_error hinsert)
      simp only [step, hrow, hfree, hrefused, if_true, hkey]
      rfl
  · have hinsert : R.insertRow c draw found s.db =
        .ok (⟨R.created found (R.insert row s.db) row, true⟩,
          R.commit c.enterpriseId row (R.sequence c.enterpriseId s.db) s.db) := by
      simp only [insertRow, hrow, hrefused]
      rfl
    refine .of_step (s.acquireAll pid (R.locks row).contains)
      (.committing row (R.sequence c.enterpriseId s.db) (R.created found (R.insert row s.db) row))
      (rescue (R.insertRow c draw found) (R.recover c)) ?_ ?_ rfl
    · simp only [step, hrow, hfree, hrefused, if_true]
      rfl
    · refine ⟨(s.acquireAll pid (R.locks row).contains).commit pid
        (R.commit c.enterpriseId row (R.sequence c.enterpriseId s.db)), _, .of_step rfl .refl, ?_⟩
      exact exec_rescue_ok hinsert

theorem reading_alone {s : ErpStore} (hs : s.Alone pid)
    (rest : List (φ → Db → Except ApiError φ)) (found : φ) :
    R.EndsAs c draw pid s (.reading found rest)
      (rescue (do
        let found ← ask fun db => rest.foldlM (fun found lookup => lookup found db) found
        R.insertRow c draw found) (R.recover c)) := by
  induction rest generalizing found with
  | nil =>
    cases hseries : R.series with
    | none =>
      have hsequence : R.sequence c.enterpriseId s.db = 0 := by simp only [sequence, hseries]
      have hinsert := inserting_alone R c draw hs found
      rw [hsequence] at hinsert
      refine .of_step s _ _ ?_ hinsert rfl
      simp only [step, hseries]
      rfl
    | some series =>
      have hsequence : R.sequence c.enterpriseId s.db = s.db.lastNumber series c.enterpriseId + 1 := by
        simp only [sequence, hseries]
      have hinsert := inserting_alone R c draw
        (hs.acquire (.counter series c.enterpriseId)) found
      rw [acquire_db, hsequence] at hinsert
      refine .of_step s (.numbering found) (rescue (R.insertRow c draw found) (R.recover c)) ?_
        (.of_step _ _ _ ?_ hinsert rfl) rfl
      · simp only [step, hseries]
        rfl
      · simp only [step, hseries, hs.free, if_true]
  | cons lookup rest ih =>
    cases hlookup : lookup found s.db with
    | error e =>
      refine .of_step s (R.thrown c e) _ ?_ (thrown_alone R c draw pid e s) (exec_rescue_error ?_)
      · simp only [step, hlookup]
      · refine bind_of_error (ask_of_error ?_)
        rw [List.foldlM_cons, hlookup]
        rfl
    | ok found' =>
      refine .of_step s (.reading found' rest) _ ?_ (ih found') ?_
      · simp only [step, hlookup]
      · simp only [exec, rescue, Bind.bind, StateT.bind, ask, List.foldlM_cons, hlookup,
          Except.bind]

/-- Alone, the statements of a `create` do what the program does. -/
theorem create_alone {s : ErpStore} (hs : s.Alone pid) :
    R.EndsAs c draw pid s .checking (R.create c draw) := by
  unfold create
  cases hcheck : R.precheck c.input with
  | some e =>
    refine .of_step s (.finished (.error e)) (throw e) ?_ (.finished rfl) rfl
    simp only [step, hcheck]
  | none =>
    cases hfound : (truthy c.idempotencyKey).bind (R.findFirst s.db c.enterpriseId) with
    | some existing =>
      refine .of_step s (.finished (.ok ⟨R.toView s.db existing, false⟩))
        (pure ⟨R.toView s.db existing, false⟩) ?_ (.finished rfl) (exec_rescue_ok ?_)
      · simp only [step, hcheck, hfound]
      · rw [transaction, replay_bind, hfound]
        rfl
    | none =>
      refine .of_step s _ _ ?_ (reading_alone hs (R.lookups c.enterpriseId c.input) R.start) ?_
      · simp only [step, hcheck, hfound]
      · have hnew : R.transaction c draw s.db = R.insertNew c draw s.db := by
          rw [transaction, replay_bind, hfound]
          rfl
        simp only [exec, rescue, hnew]
        rfl

end Repository

end Gescom.Erp
