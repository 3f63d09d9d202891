import Gescom.Mobile.Worklist

/-!
# In order, one at a time, with bounded retries

`processQueue` promises a replay "FIFO par id — jamais en parallèle" (`mutation-queue.ts:81`), and
`MAX_TRANSIENT_RETRIES` bounds what a server that keeps failing can cost. `replays_in_order` proves
both for every run: whatever triggers overlap, whatever the server answers, and wherever the
application is killed. `retryCount` is in the table, so a kill costs one answer at most.
-/

namespace Gescom.Mobile

open Transition

/-! ## What must hold -/

def QueueEvent.sends (id : Nat) : QueueEvent → Bool
  | .sent id' => id' == id
  | _ => false

/-- A 5xx or 429 for the row `id`. -/
def QueueEvent.fails (id : Nat) : QueueEvent → Bool
  | .answered id' reply => id' == id && transientReply reply
  | _ => false

/-- The application is killed between such an answer and its recording. -/
def QueueEvent.loses (id : Nat) : QueueEvent → Bool
  | .killed unhandled => unhandled.any fun x => x.1 == id && transientReply x.2
  | _ => false

def Process.sent (s : Process) (id : Nat) : Nat := s.events.countP (QueueEvent.sends id)

def Process.failures (s : Process) (id : Nat) : Nat := s.events.countP (QueueEvent.fails id)

def Process.lost (s : Process) (id : Nat) : Nat := s.events.countP (QueueEvent.loses id)

/-- `apiFetch` has not settled. -/
def QueueCall.inFlight (c : QueueCall) : Bool :=
  match c.run with
  | .waiting .. => c.answer.isNone
  | _ => false

/-- The row has been inserted, and is failed or deleted now. -/
def Process.Gone (s : Process) (id : Nat) : Prop :=
  id < s.device.phone.nextId ∧ ∀ m ∈ s.device.phone.queue.rows, m.id = id → m.status = .failed

structure ReplaysInOrder (s₀ : Process) : Prop where
  /-- A mutation is sent only when none with a smaller id is pending or processing. -/
  order : ∀ s s' a id, Reach process NoPurge s₀ s → NoPurge s a → s.step a = some s' →
    s'.events = .sent id :: s.events →
      ∀ m ∈ s.device.phone.queue.rows, m.id < id → m.status = .failed
  /-- Two sends are never in flight at once. -/
  single : ∀ s, Reach process NoPurge s₀ s → s.calls.countP QueueCall.inFlight ≤ 1
  /-- A row that is failed or deleted is never sent again. -/
  gone : ∀ s s' id, Reach process NoPurge s₀ s → s.Gone id → Reach process NoPurge s s' →
    s'.sent id = s.sent id
  bounded : ∀ s id, Reach process NoPurge s₀ s →
    s.failures id ≤ maxTransientRetries + s.lost id
  /-- The last of these answers makes the row failed. -/
  exhausted : ∀ s, Reach process NoPurge s₀ s → (∀ c ∈ s.calls, c.answer = none) →
    ∀ m ∈ s.device.phone.queue.rows, m.status ≠ .failed →
      s.failures m.id < maxTransientRetries + s.lost m.id

variable {s s' s₀ : Process} {a : ProcessAction} {c : QueueCall} {id : Nat}

/-! ## Order -/

theorem Process.Ordered.least (h : s.Ordered) {n : Nat} {tail : List (Nat × Nat)}
    (hwork : s.work = (id, n) :: tail) : ∀ m ∈ s.device.phone.queue.rows, m.id < id →
      m.status = .failed := by
  intro m hm hlt
  by_contra hlive
  have hmem : m.id ∈ s.work.map Prod.fst := mem_work_ids.2 ⟨m, hm, hlive, rfl⟩
  have hsorted := h.sorted
  rw [hwork, List.map_cons] at hmem hsorted
  rcases List.mem_cons.1 hmem with heq | htail
  · simp only at heq
    omega
  · have hgt := (List.pairwise_cons.1 hsorted).1 _ htail
    simp only at hgt
    omega

/-- A request is sent for the mutation at the head of the work list. -/
theorem Process.Effect.head_of_sent (he : s.Effect a s') (h : s.Ordered)
    (hsent : s'.events = .sent id :: s.events) : ∃ n tail, s.work = (id, n) :: tail := by
  have hnot : ∀ {e : QueueEvent} {es : List QueueEvent}, es ≠ e :: es := by
    intro e es heq
    have hlength := congrArg List.length heq
    simp at hlength
  cases he with
  | sent call run _ _ _ _ events =>
    rw [events] at hsent
    cases hsent
    obtain ⟨tail, hwork, -⟩ := h.head call (by rw [run]; rfl)
    exact ⟨_, tail, hwork⟩
  | killed _ _ events | settled _ _ _ _ _ events =>
    rw [events] at hsent
    cases hsent
  | idle _ _ events | enqueued _ _ _ events | dropped _ _ _ events | started _ _ _ _ _ events
  | marked _ _ _ _ _ _ events | refused _ _ _ _ _ _ _ _ events | served _ _ _ _ _ _ _ events
  | stopped _ _ _ _ _ _ _ _ _ events | ended _ _ _ _ _ events =>
    rw [events] at hsent
    exact absurd hsent hnot

/-! ## Rows that are gone -/

theorem not_mem_of_gone (h : s.Gone id) : id ∉ s.work.map Prod.fst := by
  intro hmem
  obtain ⟨m, hm, hlive, hid⟩ := mem_work_ids.1 hmem
  exact hlive (h.2 m hm hid)

theorem nextId_mono (hs : s.Single) (hst : s.step a = some s') :
    s.device.phone.nextId ≤ s'.device.phone.nextId := by
  have hle : s.asDevice.phone.nextId ≤ s'.asDevice.phone.nextId := by
    rcases (step_device hs hst).2 with hsame | ⟨b, hb⟩ | ⟨-, hend⟩
    · exact Nat.le_of_eq (congrArg (fun d : Device => d.phone.nextId) hsame.symm)
    · rcases step_phone hb with ⟨b, -, hphone⟩ | ⟨hcarries, -, -⟩
      · rcases (step_change hphone).inserts with hcarries | ⟨_, -, -, -, -, hnext, -, -⟩
        · exact Nat.le_of_eq hcarries.nextId.symm
        · omega
      · exact Nat.le_of_eq hcarries.nextId.symm
    · rw [hend]
      exact Nat.le_refl _
  exact hle

/-- No id comes back to the work list. -/
theorem Process.Effect.ids (he : s.Effect a s') (hid : id ∈ s'.work.map Prod.fst) :
    id ∈ s.work.map Prod.fst ∨ id = s.device.phone.nextId := by
  cases he with
  | idle work _ _ | killed work _ _ | dropped _ work _ _ | started _ work _ _ _ _
  | marked _ _ work _ _ _ _ | sent _ _ work _ _ _ _ | settled _ _ _ work _ _
  | refused _ _ _ _ work _ _ _ _ | ended _ _ _ work _ _ => exact .inl (work ▸ hid)
  | enqueued _ work _ _ =>
    rw [work, List.map_append] at hid
    simpa using hid
  | served _ _ _ work _ _ _ =>
    rw [work]
    exact .inl (List.mem_cons_of_mem _ hid)
  | stopped _ _ _ _ work work' _ _ _ _ =>
    rcases work' with ⟨-, hsame⟩ | ⟨-, -, hcount⟩
    · exact .inl (hsame ▸ hid)
    · rw [hcount] at hid
      rw [work]
      exact .inl hid

theorem gone_step (hs : s.Single) (he : s.Effect a s') (hst : s.step a = some s')
    (h : s.Gone id) : s'.Gone id := by
  have hmono := nextId_mono hs hst
  refine ⟨by have := h.1; omega, fun m hm hid => ?_⟩
  by_contra hlive
  have hmem : id ∈ s'.work.map Prod.fst := mem_work_ids.2 ⟨m, hm, hlive, hid⟩
  rcases he.ids hmem with hold | hnew
  · exact not_mem_of_gone h hold
  · have hlt := h.1
    omega

theorem sent_step (he : s.Effect a s') (ho : s.Ordered) (h : s.Gone id) :
    s'.sent id = s.sent id := by
  have hsame : s'.events = s.events → s'.sent id = s.sent id := congrArg (List.countP _)
  cases he with
  | sent call run _ _ _ _ events =>
    obtain ⟨tail, hwork, -⟩ := ho.head call (by rw [run]; rfl)
    have hne := not_mem_of_gone h
    rw [hwork, List.map_cons] at hne
    unfold Process.sent
    rw [events, List.countP_cons_of_neg]
    intro heq
    exact hne (List.mem_cons.2 (.inl (beq_iff_eq.1 heq).symm))
  | killed _ _ events | settled _ _ _ _ _ events =>
    unfold Process.sent
    rw [events]
    exact List.countP_cons_of_neg Bool.false_ne_true
  | idle _ _ events | enqueued _ _ _ events | dropped _ _ _ events | started _ _ _ _ _ events
  | marked _ _ _ _ _ _ events | refused _ _ _ _ _ _ _ _ events | served _ _ _ _ _ _ _ events
  | stopped _ _ _ _ _ _ _ _ _ events | ended _ _ _ _ _ events => exact hsame events

/-! ## The answers a row gets -/

/-- The call has a 5xx or 429 for the row `id` that no segment has handled. -/
def QueueCall.unrecorded (id : Nat) (c : QueueCall) : Bool :=
  c.unhandled.any fun x => x.1 == id && transientReply x.2

def Process.unrecorded (s : Process) (id : Nat) : Nat := s.calls.countP (QueueCall.unrecorded id)

/-- The answers to the row `id` are those the table has counted, one that no segment has handled,
and those that kills have lost. -/
structure Process.Tally (s : Process) (id : Nat) : Prop where
  live : ∀ n, (id, n) ∈ s.work → s.failures id ≤ s.lost id + s.unrecorded id + n ∧
    s.failures id < maxTransientRetries + s.lost id + s.unrecorded id
  bounded : s.failures id ≤ maxTransientRetries + s.lost id
  fresh : s.device.phone.nextId ≤ id → s.failures id = 0

theorem unrecorded_of_none (h : c.answer = none) : c.unrecorded id = false := by
  unfold QueueCall.unrecorded QueueCall.unhandled
  split <;> simp [h]

theorem unrecorded_of_run (h : ∀ m rest, c.run ≠ .waiting m rest) : c.unrecorded id = false := by
  unfold QueueCall.unrecorded QueueCall.unhandled
  split
  · rename_i m rest hrun
    exact absurd hrun (h m rest)
  · rfl

theorem unrecorded_of_reply {m : QueuedMutation} {rest : List QueuedMutation}
    {reply : Option Response} (hrun : c.run = .waiting m rest) (hanswer : c.answer = some reply) :
    c.unrecorded id = (m.id == id && transientReply reply) := by
  simp [QueueCall.unrecorded, QueueCall.unhandled, hrun, hanswer]

/-- It is about the row the call works on. -/
theorem unrecorded_of_held {m : QueuedMutation} {rest : List QueuedMutation}
    (hheld : c.run.held = m :: rest) (hne : m.id ≠ id) : c.unrecorded id = false := by
  unfold QueueCall.unrecorded QueueCall.unhandled
  split
  · rename_i m' rest' hrun
    rw [hrun] at hheld
    cases hheld
    cases c.answer with
    | none => rfl
    | some reply => simp [hne]
  · rfl

theorem unrecorded_one (h : s.calls = [c]) : s.unrecorded id = if c.unrecorded id then 1 else 0 := by
  simp [Process.unrecorded, h, List.countP_cons]

theorem unrecorded_nil (h : s.calls = []) : s.unrecorded id = 0 := by
  simp [Process.unrecorded, h]

/-- The counts are what they were, and the row is counted as it was. -/
theorem Process.Tally.keep (h : s.Tally id) (hnext : s.device.phone.nextId ≤ s'.device.phone.nextId)
    (hfailures : s'.failures id = s.failures id) (hlost : s'.lost id = s.lost id)
    (hcalls : s'.unrecorded id = s.unrecorded id)
    (hwork : ∀ n, (id, n) ∈ s'.work → (id, n) ∈ s.work) : s'.Tally id := by
  refine ⟨fun n hn => ?_, ?_, fun hle => ?_⟩
  · rw [hfailures, hlost, hcalls]
    exact h.live n (hwork n hn)
  · rw [hfailures, hlost]
    exact h.bounded
  · rw [hfailures]
    exact h.fresh (Nat.le_trans hnext hle)

theorem failures_of_events (h : s'.events = s.events) : s'.failures id = s.failures id :=
  congrArg (List.countP _) h

theorem lost_of_events (h : s'.events = s.events) : s'.lost id = s.lost id :=
  congrArg (List.countP _) h

/-- A sorted work list has the row at its head once. -/
theorem Process.Ordered.once (h : s.Ordered) {n k : Nat} {tail : List (Nat × Nat)}
    (hwork : s.work = (id, n) :: tail) : (id, k) ∉ tail := by
  intro hmem
  have hsorted := h.sorted
  rw [hwork, List.map_cons, List.pairwise_cons] at hsorted
  have hlt := hsorted.1 id (List.mem_map_of_mem (f := Prod.fst) hmem)
  omega

section
variable {m : QueuedMutation} {rest : List QueuedMutation} {tail : List (Nat × Nat)}
  (hs : s.Single) (ho : s.Ordered) (h : s.Tally id)
  (hmono : s.device.phone.nextId ≤ s'.device.phone.nextId)
include h hmono

theorem tally_enqueued (work : s'.work = s.work ++ [(s.device.phone.nextId, 0)])
    (calls : s'.calls = s.calls) (events : s'.events = s.events) : s'.Tally id := by
  have hcalls : s'.unrecorded id = s.unrecorded id := congrArg (List.countP _) calls
  have hfailures : s'.failures id = s.failures id := failures_of_events events
  have hlost : s'.lost id = s.lost id := lost_of_events events
  refine ⟨fun n hn => ?_, by rw [hfailures, hlost]; exact h.bounded, fun hle => ?_⟩
  · rw [hfailures, hlost, hcalls]
    rw [work, List.mem_append, List.mem_singleton] at hn
    rcases hn with hold | hnew
    · exact h.live n hold
    · cases hnew
      have hzero := h.fresh (Nat.le_refl _)
      simp only [hzero, maxTransientRetries]
      omega
  · rw [hfailures]
    exact h.fresh (Nat.le_trans hmono hle)

include hs in
/-- A kill loses the answer that no segment has handled. -/
theorem tally_killed (work : s'.work = s.work) (calls : s'.calls = [])
    (events : s'.events = .killed (s.calls.filterMap QueueCall.unhandled) :: s.events) :
    s'.Tally id := by
  have hfailures : s'.failures id = s.failures id := by
    unfold Process.failures
    rw [events]
    exact List.countP_cons_of_neg Bool.false_ne_true
  have hlost : s'.lost id = s.lost id + s.unrecorded id := by
    unfold Process.lost
    rw [events, List.countP_cons]
    rcases hs.calls with ⟨hnone, -⟩ | ⟨c, hone, -⟩
    · simp [QueueEvent.loses, hnone, unrecorded_nil hnone]
    · rw [unrecorded_one hone, hone]
      cases hc : c.unhandled <;> simp [QueueEvent.loses, QueueCall.unrecorded, hc]
  have hnone : s'.unrecorded id = 0 := unrecorded_nil calls
  have hbounded := h.bounded
  refine ⟨fun n hn => ?_, by omega, fun hle => ?_⟩
  · have hlive := h.live n (work ▸ hn)
    omega
  · rw [hfailures]
    exact h.fresh (Nat.le_trans hmono hle)

include ho in
theorem tally_settled {reply : Option Response} (hq : QueueOk s.asDevice.phone)
    (call : s.calls = [c]) (run : c.run = .waiting m rest) (answer : c.answer = none)
    (work : s'.work = s.work) (calls : s'.calls = [{ c with answer := some reply }])
    (events : s'.events = .answered m.id reply :: s.events) : s'.Tally id := by
  obtain ⟨tail, hhead, -⟩ := ho.head call (by rw [run]; rfl)
  have hmem : (m.id, m.retryCount) ∈ s.work := by
    rw [hhead]
    exact List.mem_cons_self
  have hbefore : s.unrecorded id = 0 := by
    rw [unrecorded_one call, unrecorded_of_none answer]
    rfl
  have hcall : ({ c with answer := some reply } : QueueCall).unrecorded id =
      (m.id == id && transientReply reply) := unrecorded_of_reply run rfl
  have hafter : s'.unrecorded id = if m.id == id && transientReply reply then 1 else 0 := by
    rw [unrecorded_one calls, hcall]
  have hfailures : s'.failures id =
      s.failures id + if m.id == id && transientReply reply then 1 else 0 := by
    unfold Process.failures
    rw [events, List.countP_cons]
    rfl
  have hlost : s'.lost id = s.lost id := by
    unfold Process.lost
    rw [events]
    exact List.countP_cons_of_neg Bool.false_ne_true
  by_cases hanswer : (m.id == id && transientReply reply) = true
  · rw [if_pos hanswer] at hafter hfailures
    obtain rfl : m.id = id := by
      simp only [Bool.and_eq_true, beq_iff_eq] at hanswer
      exact hanswer.1
    have hlive := (h.live _ hmem).2
    refine ⟨fun n hn => ?_, by omega, fun hle => ?_⟩
    · have hcount := h.live n (work ▸ hn)
      omega
    · have hlt := hq.work_lt _ hmem
      simp only at hlt
      omega
  · rw [if_neg hanswer] at hafter hfailures
    exact h.keep hmono hfailures hlost (hafter.trans hbefore.symm) fun n hn => work ▸ hn

include ho in
theorem tally_served {c' : QueueCall} (call : s.calls = [c]) (held : c.run.held = m :: rest)
    (work : s.work = (m.id, m.retryCount) :: s'.work) (calls : s'.calls = [c'])
    (answer : c'.answer = none) (events : s'.events = s.events) : s'.Tally id := by
  have hafter : s'.unrecorded id = 0 := by
    rw [unrecorded_one calls, unrecorded_of_none answer]
    rfl
  by_cases hid : m.id = id
  · subst hid
    have hfailures : s'.failures m.id = s.failures m.id := failures_of_events events
    have hlost : s'.lost m.id = s.lost m.id := lost_of_events events
    refine ⟨fun n hn => absurd hn (ho.once work), by rw [hfailures, hlost]; exact h.bounded,
      fun hle => ?_⟩
    rw [hfailures]
    exact h.fresh (Nat.le_trans hmono hle)
  · have hbefore : s.unrecorded id = 0 := by
      rw [unrecorded_one call, unrecorded_of_held held hid]
      rfl
    refine h.keep hmono (failures_of_events events) (lost_of_events events)
      (hafter.trans hbefore.symm) fun n hn => ?_
    rw [work]
    exact List.mem_cons_of_mem _ hn

include ho in
/-- One more attempt is counted in the table. -/
theorem tally_retry {c' : QueueCall} {reply : Option Response} (call : s.calls = [c])
    (run : c.run = .waiting m rest) (hanswer : c.answer = some reply)
    (htransient : transientReply reply = true) (hlast : m.retryCount + 1 < maxTransientRetries)
    (work : s.work = (m.id, m.retryCount) :: tail)
    (work' : s'.work = (m.id, m.retryCount + 1) :: tail) (calls : s'.calls = [c'])
    (answer : c'.answer = none) (events : s'.events = s.events) : s'.Tally id := by
  have hafter : s'.unrecorded id = 0 := by
    rw [unrecorded_one calls, unrecorded_of_none answer]
    rfl
  have hbefore : s.unrecorded id = if m.id == id && transientReply reply then 1 else 0 := by
    rw [unrecorded_one call, unrecorded_of_reply run hanswer]
  have hfailures : s'.failures id = s.failures id := failures_of_events events
  have hlost : s'.lost id = s.lost id := lost_of_events events
  by_cases hid : m.id = id
  · subst hid
    simp only [beq_self_eq_true, htransient, Bool.and_self, if_true] at hbefore
    have hmem : (m.id, m.retryCount) ∈ s.work := by
      rw [work]
      exact List.mem_cons_self
    have hlive := h.live _ hmem
    have hbounded := h.bounded
    refine ⟨fun n hn => ?_, by omega, fun hle => ?_⟩
    · rw [work'] at hn
      rcases List.mem_cons.1 hn with hhead | htail
      · cases hhead
        omega
      · exact absurd htail (ho.once work)
    · rw [hfailures]
      exact h.fresh (Nat.le_trans hmono hle)
  · refine h.keep hmono hfailures hlost (by simp [hafter, hbefore, hid]) fun n hn => ?_
    rw [work'] at hn
    rw [work]
    rcases List.mem_cons.1 hn with hhead | htail
    · cases hhead
      exact absurd rfl hid
    · exact List.mem_cons_of_mem _ htail

end

/-- A call that ends has no answer. -/
theorem Process.Over.unrecorded {a : QueueAction} (h : s.Over a c) : c.unrecorded id = false := by
  refine unrecorded_of_run fun m rest hrun => ?_
  rcases h with hnext | ⟨_, _, hnext, -⟩ | ⟨_, hstop⟩
  · rw [hrun] at hnext
    cases hnext
  · rw [hrun] at hnext
    cases hnext
  · rw [hrun] at hstop
    cases hstop

theorem tally_step (hs : s.Single) (ho : s.Ordered) (hq : QueueOk s.asDevice.phone)
    (he : s.Effect a s') (hst : s.step a = some s') (h : s.Tally id) : s'.Tally id := by
  have hmono := nextId_mono hs hst
  have hsame : s'.events = s.events → s'.unrecorded id = s.unrecorded id → s'.work = s.work →
      s'.Tally id := fun events hcalls work =>
    h.keep hmono (failures_of_events events) (lost_of_events events) hcalls fun n hn => work ▸ hn
  cases he with
  | idle work calls events | dropped _ work calls events =>
    exact hsame events (congrArg (List.countP _) calls) work
  | enqueued _ work calls events => exact tally_enqueued h hmono work calls events
  | killed work calls events => exact tally_killed hs h hmono work calls events
  | started idle work calls run answer events =>
    refine hsame events ?_ work
    rw [unrecorded_nil idle, unrecorded_one calls, unrecorded_of_none answer]
    rfl
  | marked call run work calls run' answer events =>
    refine hsame events ?_ work
    rw [unrecorded_one call, unrecorded_one calls, unrecorded_of_none answer,
      unrecorded_of_run (by simp [run])]
  | sent call run work calls run' answer events =>
    refine h.keep hmono ?_ ?_ ?_ fun n hn => work ▸ hn
    · unfold Process.failures
      rw [events]
      exact List.countP_cons_of_neg Bool.false_ne_true
    · unfold Process.lost
      rw [events]
      exact List.countP_cons_of_neg Bool.false_ne_true
    · rw [unrecorded_one call, unrecorded_one calls, unrecorded_of_none answer,
        unrecorded_of_run (by simp [run])]
  | settled call run answer work calls events =>
    exact tally_settled ho h hmono hq call run answer work calls events
  | refused call run answer final work calls run' answer' events =>
    refine hsame events ?_ work
    rw [unrecorded_one call, unrecorded_one calls, unrecorded_of_none answer',
      unrecorded_of_reply run answer]
    simp [transientReply, final]
  | served _ call held work calls run' answer events =>
    exact tally_served ho h hmono call held work calls answer events
  | stopped call run answer stop work work' calls run' answer' events =>
    rcases work' with ⟨hfinal, hwork⟩ | ⟨htransient, hlast, hcount⟩
    · refine hsame events ?_ hwork
      rw [unrecorded_one call, unrecorded_one calls, unrecorded_of_none answer',
        unrecorded_of_reply run answer]
      simp [hfinal]
    · exact tally_retry ho h hmono call run answer htransient hlast work hcount calls answer' events
  | ended _ call hover work calls events =>
    refine hsame events ?_ work
    rw [unrecorded_one call, unrecorded_nil calls, hover.unrecorded]
    rfl

/-! ## The result -/

/-- The application does not run, and the rows are in the order of their ids. -/
structure ReplayStarts (s : Process) : Prop extends ProcessStarts s where
  order : (s.device.phone.queue.rows.map QueuedMutation.id).Pairwise (· < ·)

theorem ReplayStarts.replaying (h : ReplayStarts s) : s.Replaying :=
  replaying_of_idle h.single h.idle.2.1 h.device.ids h.order

theorem ReplayStarts.tally (h : ReplayStarts s) : s.Tally id := by
  have hfailures : s.failures id = 0 := by simp [Process.failures, h.events]
  refine ⟨fun n _ => ?_, ?_, fun _ => hfailures⟩
  · rw [hfailures]
    exact ⟨Nat.zero_le _, by simp only [maxTransientRetries]; omega⟩
  · rw [hfailures]
    exact Nat.zero_le _

theorem reach_tally (h0 : ReplayStarts s₀) (h : Reach process NoPurge s₀ s) (id : Nat) :
    s.Tally id := by
  refine h.inv (Process.Tally · id) h0.tally fun s a s' hr ih hK hst => ?_
  have hreplay := h0.replaying.reach hr
  exact tally_step hreplay.single hreplay.ordered hreplay.queue (hreplay.effect hK hst) hst ih

/-- In every run the queue replays in order, one request at a time, and a row gets at most
`maxTransientRetries` answers 5xx or 429, and one for each kill that loses one. -/
theorem replays_in_order (h0 : ReplayStarts s₀) : ReplaysInOrder s₀ where
  order s s' a id h hK hst hsent := by
    have hreplay := h0.replaying.reach h
    obtain ⟨n, tail, hwork⟩ := (hreplay.effect hK hst).head_of_sent hreplay.ordered hsent
    exact hreplay.ordered.least hwork
  single s h := by
    rcases (h0.replaying.reach h).single.calls with ⟨hnone, -⟩ | ⟨c, hone, -⟩
    · simp [hnone]
    · rw [hone]
      exact List.countP_le_length
  gone s s' id h hgone h' := by
    have hboth : s'.Gone id ∧ s'.sent id = s.sent id := by
      refine h'.inv (fun s' => s'.Gone id ∧ s'.sent id = s.sent id) ⟨hgone, rfl⟩ ?_
      intro s₁ a s₂ h₁ ih hK hst
      have hreplay := h0.replaying.reach (h.trans h₁)
      have he := hreplay.effect hK hst
      exact ⟨gone_step hreplay.single he hst ih.1,
        (sent_step he hreplay.ordered ih.1).trans ih.2⟩
    exact hboth.2
  bounded s id h := (reach_tally h0 h id).bounded
  exhausted s h hanswers m hm hlive := by
    have hwork : (m.id, m.retryCount) ∈ s.work := mem_work.2 ⟨m, hm, hlive, rfl, rfl⟩
    have hnone : s.unrecorded m.id = 0 := by
      refine List.countP_eq_zero.2 fun c hc => ?_
      rw [unrecorded_of_none (hanswers c hc)]
      exact Bool.false_ne_true
    have hcount := ((reach_tally h0 h m.id).live _ hwork).2
    omega

/-- A device with an empty queue. -/
def sampleProcess : Process where
  device := ⟨samplePhone, none, none⟩

theorem sampleProcess_starts : ReplayStarts sampleProcess where
  device := ⟨rfl, rfl, fun _ hm => absurd hm List.not_mem_nil⟩
  idle := ⟨rfl, rfl, rfl⟩
  events := rfl
  order := List.Pairwise.nil

theorem replays_in_order_sample : ReplaysInOrder sampleProcess :=
  replays_in_order sampleProcess_starts

end Gescom.Mobile
