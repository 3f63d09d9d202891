import Gescom.Mobile.Process

/-!
# The work list of the queue

What `listPendingMutations` returns, by id and `retryCount`, is a list that grows at its end and is
worked on at its head: what a call of `processQueue` still holds is a beginning of it
(`Process.Ordered`), whatever is enqueued meanwhile. `step_effect` says what each step does to
that list and to the call.
-/

namespace Gescom.Mobile

open Transition

def workOf (rows : List QueuedMutation) : List (Nat × Nat) :=
  (rows.filter fun m => m.status != .failed).map fun m => (m.id, m.retryCount)

def Phone.work (phone : Phone) : List (Nat × Nat) := workOf phone.queue.rows

def Run.work (r : Run) : List (Nat × Nat) := r.held.map fun m => (m.id, m.retryCount)

variable {rows : List QueuedMutation} {phone phone' : Phone} {m row : QueuedMutation} {id c : Nat}
  {tail : List (Nat × Nat)}

@[simp] theorem workOf_append (xs ys : List QueuedMutation) :
    workOf (xs ++ ys) = workOf xs ++ workOf ys := by
  simp [workOf]

theorem workOf_eq_nil (h : ∀ m ∈ rows, ¬ (m.status != .failed) = true) : workOf rows = [] := by
  simpa [workOf] using h

theorem workOf_live (h : m.status ≠ .failed) : workOf [m] = [(m.id, m.retryCount)] := by
  simp [workOf, h]

theorem workOf_failed (h : m.status = .failed) : workOf [m] = [] := by
  simp [workOf, h]

theorem mem_work : (id, c) ∈ phone.work ↔
    ∃ m ∈ phone.queue.rows, m.status ≠ .failed ∧ m.id = id ∧ m.retryCount = c := by
  simp [Phone.work, workOf, and_assoc]

theorem mem_work_ids : id ∈ phone.work.map Prod.fst ↔
    ∃ m ∈ phone.queue.rows, m.status ≠ .failed ∧ m.id = id := by
  simp [Phone.work, workOf, and_assoc]

/-- The row at the head of the work list, and the rows around it. -/
theorem work_split (h : workOf rows = (id, c) :: tail) : ∃ xs row ys, rows = xs ++ row :: ys ∧
    row.status ≠ .failed ∧ row.id = id ∧ row.retryCount = c ∧ workOf xs = [] ∧
      workOf ys = tail := by
  obtain ⟨row, fs, hfilter, hrow, htail⟩ := List.map_eq_cons_iff.1 h
  obtain ⟨xs, ys, hrows, hxs, hlive, hys⟩ := List.filter_eq_cons_iff.1 hfilter
  refine ⟨xs, row, ys, hrows, by simpa using hlive, ?_, ?_, workOf_eq_nil hxs, ?_⟩
  · exact congrArg Prod.fst hrow
  · exact congrArg Prod.snd hrow
  · rw [← htail, ← hys]
    rfl

/-- The row at the head is rewritten, or taken away. -/
theorem work_head (hnodup : (rows.map QueuedMutation.id).Nodup)
    (h : workOf rows = (id, c) :: tail) : ∃ row, row.status ≠ .failed ∧ row.id = id ∧
      row.retryCount = c ∧
      (∀ f : QueuedMutation → QueuedMutation,
        workOf (rows.map fun row => if row.id == id then f row else row) = workOf [f row] ++ tail) ∧
      workOf (rows.filter fun row => !(row.id == id)) = tail := by
  obtain ⟨xs, row, ys, rfl, hlive, hid, hcount, hxs, hys⟩ := work_split h
  have hother : ∀ x ∈ xs ++ ys, x.id ≠ id := by
    intro x hx hxid
    rw [List.map_append, List.map_cons, List.nodup_middle, List.nodup_cons] at hnodup
    refine hnodup.1 ?_
    rw [← List.map_append, hid, ← hxid]
    exact List.mem_map_of_mem hx
  have hleft : ∀ x ∈ xs, x.id ≠ id := fun x hx => hother x (List.mem_append_left _ hx)
  have hright : ∀ x ∈ ys, x.id ≠ id := fun x hx => hother x (List.mem_append_right _ hx)
  refine ⟨row, hlive, hid, hcount, fun f => ?_, ?_⟩
  · have hkeep : ∀ zs : List QueuedMutation, (∀ x ∈ zs, x.id ≠ id) →
        (zs.map fun row => if row.id == id then f row else row) = zs := by
      intro zs hzs
      refine (List.map_congr_left fun x hx => ?_).trans (List.map_id zs)
      simp [hzs x hx]
    rw [List.map_append, List.map_cons, hkeep xs hleft, hkeep ys hright, workOf_append, hxs,
      ← List.singleton_append, workOf_append, hys]
    simp [hid]
  · have hkeep : ∀ zs : List QueuedMutation, (∀ x ∈ zs, x.id ≠ id) →
        (zs.filter fun row => !(row.id == id)) = zs := by
      intro zs hzs
      refine List.filter_eq_self.2 fun x hx => ?_
      simp [hzs x hx]
    rw [List.filter_append, List.filter_cons, hkeep xs hleft, hkeep ys hright, workOf_append, hxs]
    simp [hid, hys]

/-! ## Writes at the head -/

section
variable (h : phone.work = (id, c) :: tail)
include h

/-- `markMutationProcessing` and `markMutationPending`. -/
theorem work_mark {f : QueuedMutation → QueuedMutation} {hf : ∀ m, (f m).id = m.id}
    (hlive : ∀ m, (f m).status ≠ .failed) (hcount : ∀ m, (f m).retryCount = m.retryCount) :
    (phone.updateMutation id f hf).work = phone.work := by
  obtain ⟨row, -, hid, hc, hupdate, -⟩ := work_head phone.queue.nodup h
  have hwork : (phone.updateMutation id f hf).work = workOf [f row] ++ tail := hupdate f
  rw [hwork, workOf_live (hlive row), hf, hcount, hid, hc, h]
  rfl

theorem work_failed {error : String} : (phone.markMutationFailed id error).work = tail := by
  obtain ⟨row, -, -, -, hupdate, -⟩ := work_head phone.queue.nodup h
  have hwork := hupdate fun m => { m with status := .failed, lastError := some error }
  rwa [workOf_failed rfl] at hwork

theorem work_done : (phone.markMutationDone id).work = tail := by
  obtain ⟨-, -, -, -, -, hdelete⟩ := work_head phone.queue.nodup h
  exact hdelete

theorem work_retry {error : String} : (phone.incrementRetry id error).work = (id, c + 1) :: tail := by
  obtain ⟨row, hlive, rfl, rfl, hupdate, -⟩ := work_head phone.queue.nodup h
  have hwork := hupdate fun m => { m with retryCount := m.retryCount + 1, lastError := some error }
  rwa [workOf_live (by exact hlive)] at hwork

end

/-- A new row is the last. -/
theorem work_insert (hids : ∀ m ∈ phone.queue.rows, m.id < phone.nextId) (hid : m.id = phone.nextId)
    (hlive : m.status ≠ .failed) (hqueue : phone'.queue = phone.queue.insert m) :
    phone'.work = phone.work ++ [(m.id, m.retryCount)] := by
  have hnew : phone.queue.find? (Keyed.key m) = none := by
    refine List.find?_eq_none.2 fun row hrow => ?_
    have hlt := hids row hrow
    simp only [Keyed.key, hid, beq_iff_eq]
    omega
  unfold Phone.work
  rw [hqueue, Table.rows_insert hnew, workOf_append, workOf_live hlive]

/-! ## What a step does -/

/-- The answers that are tried again. -/
def Response.transient (r : Response) : Bool := 500 ≤ r.status || r.status == 429

/-- `none`: `fetch` throws. -/
def transientReply (reply : Option Response) : Bool := reply.any Response.transient

/-- The answers after which `processOne` may stop. -/
def stopReply (reply : Option Response) : Bool := reply.all fun r => r.status == 401 || r.transient

def Process.work (s : Process) : List (Nat × Nat) := s.device.phone.work

/-- The call of `processQueue` by a screen hook, the sync engine or a timer. -/
def QueueAction.isTrigger : QueueAction → Bool
  | .hook _ | .syncEngine | .timer _ => true
  | _ => false

/-- Why a call ends: its snapshot is used up, there is no token, or its last write is done. -/
def Process.Over (s : Process) (a : QueueAction) (c : QueueCall) : Prop :=
  c.run = .next [] ∨
    (∃ m rest, c.run = .next (m :: rest) ∧
      (a = .noToken 0 ∨ c.deps.getAccessToken (s.running c) = none)) ∨
    ∃ scheduleRetry, c.run = .stopping scheduleRetry

/-- What an action does to the work list, the calls and the events. -/
inductive Process.Effect (s : Process) : ProcessAction → Process → Prop
  | idle {a : DeviceAction} {s' : Process} (work : s'.work = s.work) (calls : s'.calls = s.calls)
      (events : s'.events = s.events) : Effect s (.device a) s'
  | enqueued {input : EnqueueMutationInput} {key : String} {isOnline : Bool} {s' : Process}
      (valid : validMutationPath input.path = true)
      (work : s'.work = s.work ++ [(s.device.phone.nextId, 0)]) (calls : s'.calls = s.calls)
      (events : s'.events = s.events) :
      Effect s (.device (.app (.enqueueMutation input key isOnline))) s'
  | killed {s' : Process} (work : s'.work = s.work) (calls : s'.calls = [])
      (events : s'.events = .killed (s.calls.filterMap QueueCall.unhandled) :: s.events) :
      Effect s (.device .kill) s'
  /-- `isProcessing` is set. -/
  | dropped {a : QueueAction} {s' : Process} (busy : s.calls ≠ []) (work : s'.work = s.work)
      (calls : s'.calls = s.calls) (events : s'.events = s.events) : Effect s (.queue a) s'
  | started {a : QueueAction} {s' : Process} {c' : QueueCall} (idle : s.calls = [])
      (work : s'.work = s.work) (calls : s'.calls = [c'])
      (run : c'.run = .next s.device.phone.listPendingMutations) (answer : c'.answer = none)
      (events : s'.events = s.events) : Effect s (.queue a) s'
  | marked {s' : Process} {c c' : QueueCall} {m : QueuedMutation} {rest : List QueuedMutation}
      {accessToken : AccessToken} (call : s.calls = [c]) (run : c.run = .next (m :: rest))
      (work : s'.work = s.work) (calls : s'.calls = [c'])
      (run' : c'.run = .marking m accessToken rest) (answer : c'.answer = none)
      (events : s'.events = s.events) : Effect s (.queue (.proceed 0)) s'
  | sent {s' : Process} {c c' : QueueCall} {m : QueuedMutation} {rest : List QueuedMutation}
      {accessToken : AccessToken} (call : s.calls = [c]) (run : c.run = .marking m accessToken rest)
      (work : s'.work = s.work) (calls : s'.calls = [c']) (run' : c'.run = .waiting m rest)
      (answer : c'.answer = none) (events : s'.events = .sent m.id :: s.events) :
      Effect s (.queue (.proceed 0)) s'
  | settled {s' : Process} {c : QueueCall} {m : QueuedMutation} {rest : List QueuedMutation}
      {reply : Option Response} (call : s.calls = [c]) (run : c.run = .waiting m rest)
      (answer : c.answer = none) (work : s'.work = s.work)
      (calls : s'.calls = [{ c with answer := some reply }])
      (events : s'.events = .answered m.id reply :: s.events) :
      Effect s (.queue (.settle 0 reply)) s'
  /-- The body of a response that is final is read. -/
  | refused {s' : Process} {c c' : QueueCall} {m : QueuedMutation} {rest : List QueuedMutation}
      {r : Response} (call : s.calls = [c]) (run : c.run = .waiting m rest)
      (answer : c.answer = some (some r)) (final : r.transient = false) (work : s'.work = s.work)
      (calls : s'.calls = [c']) (run' : c'.run = .rejected m r rest) (answer' : c'.answer = none)
      (events : s'.events = s.events) : Effect s (.queue (.receive 0)) s'
  /-- The mutation at the head is failed or deleted. -/
  | served {a : QueueAction} {s' : Process} {c c' : QueueCall} {m : QueuedMutation}
      {rest : List QueuedMutation} (segment : a.isTrigger = false) (call : s.calls = [c])
      (held : c.run.held = m :: rest)
      (work : s.work = (m.id, m.retryCount) :: s'.work) (calls : s'.calls = [c'])
      (run' : c'.run = .next rest) (answer : c'.answer = none) (events : s'.events = s.events) :
      Effect s (.queue a) s'
  /-- The mutation at the head stays there, with one more attempt counted if it is transient. -/
  | stopped {s' : Process} {c c' : QueueCall} {m : QueuedMutation} {rest : List QueuedMutation}
      {reply : Option Response} {scheduleRetry : Bool} {tail : List (Nat × Nat)}
      (call : s.calls = [c]) (run : c.run = .waiting m rest) (answer : c.answer = some reply)
      (stop : stopReply reply = true) (work : s.work = (m.id, m.retryCount) :: tail)
      (work' : transientReply reply = false ∧ s'.work = s.work ∨
        transientReply reply = true ∧ m.retryCount + 1 < maxTransientRetries ∧
          s'.work = (m.id, m.retryCount + 1) :: tail)
      (calls : s'.calls = [c']) (run' : c'.run = .stopping scheduleRetry)
      (answer' : c'.answer = none) (events : s'.events = s.events) :
      Effect s (.queue (.receive 0)) s'
  | ended {a : QueueAction} {s' : Process} {c : QueueCall} (segment : a.isTrigger = false)
      (call : s.calls = [c]) (hover : s.Over a c) (work : s'.work = s.work) (calls : s'.calls = [])
      (events : s'.events = s.events) : Effect s (.queue a) s'

variable {s s' s₀ : Process} {d : Device} {call : QueueCall}

/-- A call holds a beginning of the work list. -/
structure Process.Ordered (s : Process) : Prop where
  sorted : (s.work.map Prod.fst).Pairwise (· < ·)
  held : ∀ c ∈ s.calls, c.run.work <+: s.work

/-- The purge of a logout and the one of a start. -/
def NoPurge (s : Process) : ProcessAction → Prop
  | .device (.app .purgeOfflineStore) => False
  | .device .storage => ∀ cause, s.device.restore ≠ some (.purging cause)
  | _ => True

/-- The head of what the call holds is the head of the work list. -/
theorem Process.Ordered.head (h : s.Ordered) (hcall : s.calls = [call]) {rest : List QueuedMutation}
    (hheld : call.run.held = m :: rest) : ∃ tail, s.work = (m.id, m.retryCount) :: tail ∧
      rest.map (fun m => (m.id, m.retryCount)) <+: tail := by
  have hprefix := h.held call (by simp [hcall])
  unfold Run.work at hprefix
  rw [hheld, List.map_cons] at hprefix
  obtain ⟨tail, htail⟩ := hprefix
  exact ⟨_, htail.symm, tail, rfl⟩

/-- A segment of call `i` leaves the calls `cs`. -/
def Process.Resumes (i : Nat) (phone : Phone) (cs : List QueueCall) (s : Process) : Prop :=
  (s.resume i phone).calls = cs ∧ (s.resume i phone).work = phone.work ∧
    (s.resume i phone).events = s.events

theorem resume_go {i : Nat} {deps : ProcessQueueDeps} {r : Run} (hcalls : s.calls = [call])
    (hi : i = 0) (hrun : phone.processing = some (deps, r)) :
    s.Resumes i phone [⟨deps, r, none⟩] := by
  subst hi
  unfold Process.Resumes Process.resume
  rw [hrun]
  exact ⟨by rw [hcalls]; rfl, rfl, rfl⟩

theorem resume_end {i : Nat} (hcalls : s.calls = [call]) (hi : i = 0)
    (hrun : phone.processing = none) : s.Resumes i phone [] := by
  subst hi
  unfold Process.Resumes Process.resume
  rw [hrun]
  exact ⟨by rw [hcalls]; rfl, rfl, rfl⟩

theorem proceed_effect (h : s.Ordered) (hcalls : s.calls = [call])
    (hphone : (s.running call).proceed = some phone) :
    s.Effect (.queue (.proceed 0)) { s.resume 0 phone with events := call.sends ++ s.events } := by
  obtain ⟨deps, run, answer⟩ := call
  have hgo : ∀ deps r, phone.processing = some (deps, r) → s.Resumes 0 phone [⟨deps, r, none⟩] :=
    fun _ _ hrun => resume_go hcalls rfl hrun
  have hend : phone.processing = none → s.Resumes 0 phone [] := resume_end hcalls rfl
  cases run with
  | next rest =>
    cases rest with
    | nil =>
      cases hphone
      obtain ⟨hcall, hwork, -⟩ := hend rfl
      exact .ended rfl hcalls (.inl rfl) hwork hcall rfl
    | cons m rest =>
      obtain ⟨tail, hhead, -⟩ := h.head hcalls rfl
      cases htoken : deps.getAccessToken (s.running ⟨deps, .next (m :: rest), answer⟩) with
      | none =>
        simp only [Phone.proceed, Process.running] at hphone htoken
        rw [htoken] at hphone
        cases hphone
        obtain ⟨hcall, hwork, -⟩ := hend rfl
        exact .ended rfl hcalls (.inr (.inl ⟨m, rest, rfl, .inr htoken⟩)) hwork hcall rfl
      | some accessToken =>
        simp only [Phone.proceed, Process.running] at hphone htoken
        rw [htoken] at hphone
        cases hphone
        obtain ⟨hcall, hwork, -⟩ := hgo _ _ rfl
        have hmark : (s.device.phone.markMutationProcessing m.id).work = s.work :=
          work_mark hhead (fun _ h => by cases h) fun _ => rfl
        exact .marked hcalls rfl (hwork.trans hmark) hcall rfl rfl rfl
  | marking m accessToken rest =>
    cases hphone
    obtain ⟨hcall, hwork, -⟩ := hgo _ _ rfl
    exact .sent hcalls rfl hwork hcall rfl rfl rfl
  | waiting m rest => cases hphone
  | rejected m r rest =>
    cases hphone
    obtain ⟨tail, hhead, -⟩ := h.head hcalls rfl
    obtain ⟨hcall, hwork, -⟩ := hgo _ _ rfl
    refine .served rfl hcalls rfl (hhead.trans ?_) hcall rfl rfl rfl
    exact congrArg _ ((work_failed hhead).symm.trans hwork.symm)
  | stopping scheduleRetry =>
    cases hphone
    obtain ⟨hcall, hwork, -⟩ := hend rfl
    exact .ended rfl hcalls (.inr (.inr ⟨_, rfl⟩)) hwork hcall rfl

theorem receive_effect (h : s.Ordered) (hcalls : s.calls = [call]) {reply : Option Response}
    (hanswer : call.answer = some reply)
    (hphone : (s.running call).receive reply = some phone) :
    s.Effect (.queue (.receive 0)) (s.resume 0 phone) := by
  obtain ⟨deps, run, answer⟩ := call
  have hgo : ∀ deps r, phone.processing = some (deps, r) → s.Resumes 0 phone [⟨deps, r, none⟩] :=
    fun _ _ hrun => resume_go hcalls rfl hrun
  cases run with
  | next | marking | rejected | stopping => cases hphone
  | waiting m rest =>
    obtain ⟨tail, hhead, -⟩ := h.head hcalls rfl
    have hmark : (s.device.phone.markMutationPending m.id).work = s.work :=
      work_mark hhead (fun _ h => by cases h) fun _ => rfl
    cases reply with
    | none =>
      cases hphone
      obtain ⟨hcall, hwork, hevents⟩ := hgo _ _ rfl
      exact .stopped hcalls rfl hanswer rfl hhead
        (.inl ⟨rfl, hwork.trans hmark⟩) hcall rfl rfl hevents
    | some r =>
      simp only [Phone.receive, Process.running] at hphone
      split_ifs at hphone with hok h401 htransient hlast <;> cases hphone <;>
        obtain ⟨hcall, hwork, hevents⟩ := hgo _ _ rfl
      · refine .served rfl hcalls rfl (hhead.trans ?_) hcall rfl rfl hevents
        exact congrArg _ ((work_done hhead).symm.trans hwork.symm)
      · refine .stopped hcalls rfl hanswer ?_ hhead (.inl ⟨?_, hwork.trans hmark⟩) hcall rfl rfl
          hevents
        · simp [stopReply, h401]
        · simp [transientReply, Response.transient, h401]
      · refine .served rfl hcalls rfl (hhead.trans ?_) hcall rfl rfl hevents
        exact congrArg _ ((work_failed hhead).symm.trans hwork.symm)
      · have hreply : r.transient = true := by simpa [Response.transient] using htransient
        refine .stopped hcalls rfl hanswer ?_ hhead (.inr ⟨hreply, by omega, hwork.trans ?_⟩) hcall
          rfl rfl hevents
        · simp [stopReply, hreply]
        · exact work_retry hhead
      · have hreply : r.transient = false := by simpa [Response.transient] using htransient
        exact .refused hcalls rfl hanswer hreply hwork hcall rfl rfl hevents

theorem trigger_effect {a : QueueAction} {deps : ProcessQueueDeps} (h : s.Single)
    (hqueue : s'.device.phone.queue = s.device.phone.queue) (hcalls : s'.calls = s.calls)
    (hflag : s'.isProcessing = s.isProcessing) (hevents : s'.events = s.events) :
    s.Effect (.queue a) (s'.processQueue deps) := by
  have hwork : s'.work = s.work := congrArg (fun t : Table QueuedMutation => workOf t.rows) hqueue
  have hpending : s'.device.phone.listPendingMutations = s.device.phone.listPendingMutations := by
    unfold Phone.listPendingMutations
    rw [hqueue]
  unfold Process.processQueue
  rcases h.calls with ⟨hidle, hfree⟩ | ⟨c, hbusy, hset⟩
  · rw [hflag, hfree]
    rw [hpending, hcalls, hidle]
    exact .started hidle hwork rfl rfl rfl hevents
  · rw [hflag, hset]
    refine .dropped ?_ hwork hcalls hevents
    rw [hbusy]
    exact List.cons_ne_nil _ _

theorem queueStep_effect {a : QueueAction} (hs : s.Single) (h : s.Ordered)
    (hst : s.queueStep a = some s') : s.Effect (.queue a) s' := by
  cases a with
  | hook i =>
    obtain ⟨t, -, rfl⟩ := Option.map_eq_some_iff.1 hst
    exact trigger_effect hs rfl rfl rfl rfl
  | syncEngine =>
    simp only [Process.queueStep] at hst
    split at hst <;> cases hst
    exact trigger_effect hs rfl rfl rfl rfl
  | timer i =>
    obtain ⟨deps, -, rfl⟩ := Option.map_eq_some_iff.1 hst
    exact trigger_effect hs rfl rfl rfl rfl
  | proceed i =>
    obtain ⟨c, hc, hsegment⟩ := Option.bind_eq_some_iff.1 hst
    obtain ⟨phone, hphone, rfl⟩ := Option.map_eq_some_iff.1 hsegment
    obtain ⟨hcalls, rfl⟩ := hs.only hc
    exact proceed_effect h hcalls hphone
  | noToken i =>
    obtain ⟨c, hc, hend⟩ := Option.bind_eq_some_iff.1 hst
    obtain ⟨hcalls, rfl⟩ := hs.only hc
    split at hend <;> cases hend
    rename_i m rest hrun
    obtain ⟨hcall, hwork, hevents⟩ := resume_end hcalls rfl hs.processing
    exact .ended rfl hcalls (.inr (.inl ⟨m, rest, hrun, .inl rfl⟩)) hwork hcall hevents
  | settle i reply =>
    obtain ⟨c, hc, hsettle⟩ := Option.bind_eq_some_iff.1 hst
    obtain ⟨hcalls, rfl⟩ := hs.only hc
    split at hsettle <;> cases hsettle
    rename_i hrun hanswer
    refine .settled hcalls hrun hanswer rfl ?_ rfl
    rw [hcalls]
    rfl
  | receive i =>
    obtain ⟨c, hc, hanswer⟩ := Option.bind_eq_some_iff.1 hst
    obtain ⟨reply, hreply, hsegment⟩ := Option.bind_eq_some_iff.1 hanswer
    obtain ⟨phone, hphone, rfl⟩ := Option.map_eq_some_iff.1 hsegment
    obtain ⟨hcalls, rfl⟩ := hs.only hc
    exact receive_effect h hcalls hreply hphone

/-- The steps beside the queue write no row but the one of an `enqueueMutation`. -/
theorem device_rows {a : DeviceAction} (ha : a.outside = true)
    (hK : NoPurge s (.device a)) (hst : s.device.step a = some d) :
    (d.phone.queue = s.device.phone.queue ∧ d.phone.nextId = s.device.phone.nextId) ∨
      ∃ input key isOnline m, a = .app (.enqueueMutation input key isOnline) ∧
        validMutationPath input.path = true ∧ m.id = s.device.phone.nextId ∧ m.retryCount = 0 ∧
          m.status ≠ .failed ∧ d.phone.queue = s.device.phone.queue.insert m ∧
          d.phone.nextId = s.device.phone.nextId + 1 := by
  cases a with
  | app a =>
    simp only [Device.step] at hst
    split at hst
    · obtain ⟨phone, hphone, rfl⟩ := Option.map_eq_some_iff.1 hst
      cases a with
      | hook | syncEngine | timer | proceed | respond => cases ha
      | purgeOfflineStore => exact hK.elim
      | enqueueMutation input key isOnline =>
        obtain ⟨t, -, rfl⟩ := Option.map_eq_some_iff.1 hphone
        unfold Phone.enqueueMutation
        split
        · rename_i hvalid
          refine .inr ⟨input, key, isOnline, _, rfl, hvalid, rfl, rfl, ?_, rfl, rfl⟩
          intro hfailed
          cases hfailed
        · exact .inl ⟨rfl, rfl⟩
      | login | establishSession | logout | setUnauthenticated =>
        simp only [Phone.step] at hphone
        split at hphone <;> cases hphone
        exact .inl ⟨rfl, rfl⟩
      | render =>
        cases hphone
        exact .inl ⟨rfl, rfl⟩
    · cases hst
  | storage =>
    simp only [Device.step, Device.storage] at hst
    split at hst
    · split at hst <;> cases hst <;> exact .inl ⟨rfl, rfl⟩
    · cases hst
      exact .inl ⟨rfl, rfl⟩
    · rename_i cause hpurging
      exact absurd hpurging (hK cause)
    · cases hst
      exact .inl ⟨rfl, rfl⟩
    · cases hst
  | refreshAnswered reply refreshToken =>
    simp only [Device.step] at hst
    split at hst <;> cases hst
    rw [refreshAnswered_phone]
    exact .inl ⟨rfl, rfl⟩
  | meAnswered reply session =>
    simp only [Device.step] at hst
    split at hst <;> cases hst
    obtain ⟨hqueue, hnext, -, -⟩ := meAnswered_queue (d := s.device) reply session
    exact .inl ⟨hqueue, hnext⟩
  | start | kill | storeRefreshToken | loginFailed =>
    simp only [Device.step] at hst
    split at hst <;> cases hst
    exact .inl ⟨rfl, rfl⟩

theorem device_effect {a : DeviceAction} (hids : ∀ m ∈ s.device.phone.queue.rows,
    m.id < s.device.phone.nextId) (ha : a.outside = true) (hK : NoPurge s (.device a))
    (hst : s.device.step a = some d) : s.Effect (.device a) (s.follow a d) := by
  rcases device_rows ha hK hst with ⟨hqueue, -⟩ |
    ⟨input, key, isOnline, m, rfl, hvalid, hid, hcount, hlive, hqueue, -⟩
  · have hwork : d.phone.work = s.work :=
      congrArg (fun t : Table QueuedMutation => workOf t.rows) hqueue
    by_cases hkill : a = .kill
    · subst hkill
      exact .killed hwork rfl rfl
    · obtain ⟨hcalls, -, hdevice, hevents⟩ := follow_calls (s := s) (d := d) hkill
      refine .idle ?_ hcalls hevents
      exact (congrArg (fun d : Device => d.phone.work) hdevice).trans hwork
  · have hwork := work_insert hids hid hlive hqueue
    rw [hid, hcount] at hwork
    exact .enqueued hvalid hwork rfl rfl

theorem step_effect {a : ProcessAction} (hs : s.Single) (h : s.Ordered)
    (hq : QueueOk s.asDevice.phone) (hK : NoPurge s a) (hst : s.step a = some s') :
    s.Effect a s' := by
  cases a with
  | device a =>
    simp only [Process.step] at hst
    split at hst
    · rename_i ha
      obtain ⟨d, hd, rfl⟩ := Option.map_eq_some_iff.1 hst
      exact device_effect hq.ids ha hK hd
    · cases hst
  | queue a =>
    simp only [Process.step] at hst
    split at hst
    · exact queueStep_effect hs h hst
    · cases hst

/-! ## The order of the work list -/

theorem QueueOk.work_lt (hq : QueueOk s.asDevice.phone) :
    ∀ x ∈ s.work, x.1 < s.device.phone.nextId := by
  rintro ⟨id, c⟩ hx
  obtain ⟨m, hm, -, rfl, -⟩ := mem_work.1 hx
  exact hq.ids m hm

theorem Process.Effect.ordered {a : ProcessAction} (he : s.Effect a s')
    (hq : QueueOk s.asDevice.phone) (h : s.Ordered) : s'.Ordered := by
  have hone : ∀ {c : QueueCall}, s'.calls = [c] → c.run.work <+: s'.work →
      ∀ c ∈ s'.calls, c.run.work <+: s'.work := by
    intro c hcalls hheld c' hc'
    rw [hcalls, List.mem_singleton] at hc'
    rwa [hc']
  have hnone : s'.calls = [] → ∀ c ∈ s'.calls, c.run.work <+: s'.work := by
    intro hcalls c hc
    rw [hcalls] at hc
    cases hc
  have hbefore : ∀ {c : QueueCall}, s.calls = [c] → c.run.work <+: s.work :=
    fun hcall => h.held _ (by simp [hcall])
  cases he with
  | idle work calls _ | dropped _ work calls _ =>
    refine ⟨work ▸ h.sorted, fun c hc => ?_⟩
    rw [work]
    exact h.held c (calls ▸ hc)
  | enqueued _ work calls _ =>
    refine ⟨?_, fun c hc => ?_⟩
    · rw [work, List.map_append, List.pairwise_append]
      refine ⟨h.sorted, List.pairwise_singleton _ _, fun i hi j hj => ?_⟩
      obtain ⟨x, hx, rfl⟩ := List.mem_map.1 hi
      obtain rfl := List.mem_singleton.1 hj
      exact hq.work_lt x hx
    · rw [work]
      exact (h.held c (calls ▸ hc)).trans (List.prefix_append _ _)
  | killed work calls _ => exact ⟨work ▸ h.sorted, hnone calls⟩
  | ended _ _ _ work calls _ => exact ⟨work ▸ h.sorted, hnone calls⟩
  | started _ work calls run _ _ =>
    refine ⟨work ▸ h.sorted, hone calls ?_⟩
    rw [work, run]
    exact List.prefix_refl _
  | marked call run work calls run' _ _ | sent call run work calls run' _ _
  | refused call run _ _ work calls run' _ _ =>
    refine ⟨work ▸ h.sorted, hone calls ?_⟩
    have hheld := hbefore call
    rw [run] at hheld
    rw [work, run']
    exact hheld
  | settled call run _ work calls _ =>
    refine ⟨work ▸ h.sorted, hone calls ?_⟩
    have hheld := hbefore call
    rw [work]
    exact hheld
  | served _ call held work calls run' _ _ =>
    refine ⟨?_, hone calls ?_⟩
    · have hsorted := h.sorted
      rw [work, List.map_cons, List.pairwise_cons] at hsorted
      exact hsorted.2
    · have hheld := hbefore call
      rw [work] at hheld
      unfold Run.work at hheld
      rw [held, List.map_cons, List.cons_prefix_cons] at hheld
      rw [run']
      exact hheld.2
  | stopped call run _ _ work work' calls run' _ _ =>
    refine ⟨?_, hone calls ?_⟩
    · rcases work' with ⟨-, hsame⟩ | ⟨-, -, hcount⟩
      · exact hsame ▸ h.sorted
      · have hsorted := h.sorted
        rw [work] at hsorted
        rw [hcount]
        exact hsorted
    · rw [run']
      exact List.nil_prefix

/-- One call at most, on the beginning of the work list. -/
structure Process.Replaying (s : Process) : Prop where
  single : s.Single
  ordered : s.Ordered
  queue : QueueOk s.asDevice.phone

theorem Process.Replaying.effect {a : ProcessAction} (h : s.Replaying) (hK : NoPurge s a)
    (hst : s.step a = some s') : s.Effect a s' :=
  step_effect h.single h.ordered h.queue hK hst

theorem Process.Replaying.step {a : ProcessAction} (h : s.Replaying) (hK : NoPurge s a)
    (hst : s.step a = some s') : s'.Replaying :=
  ⟨(step_device h.single hst).1, (h.effect hK hst).ordered h.queue h.ordered,
    queueOk_step h.single h.queue hst⟩

theorem Process.Replaying.reach (h : s₀.Replaying) (hr : Reach process NoPurge s₀ s) :
    s.Replaying :=
  hr.inv Process.Replaying h fun _ _ _ _ ih hK hst => ih.step hK hst

/-- No call runs, and the rows are in the order of their ids. -/
theorem replaying_of_idle (hsingle : s.Single) (hcalls : s.calls = [])
    (hids : ∀ m ∈ s.device.phone.queue.rows, m.id < s.device.phone.nextId)
    (horder : (s.device.phone.queue.rows.map QueuedMutation.id).Pairwise (· < ·)) :
    s.Replaying := by
  refine ⟨hsingle, ⟨?_, fun c hc => ?_⟩, ⟨hids, fun deps r hr => ?_⟩⟩
  · have hwork : s.work.map Prod.fst =
        (s.device.phone.queue.rows.filter fun m => m.status != .failed).map QueuedMutation.id := by
      simp [Process.work, Phone.work, workOf]
    rw [hwork]
    exact horder.sublist (List.filter_sublist.map _)
  · rw [hcalls] at hc
    cases hc
  · rw [Process.asDevice, hcalls] at hr
    cases hr

end Gescom.Mobile
