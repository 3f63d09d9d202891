import Gescom.Mobile.Device

/-!
# Overlapping calls of `processQueue` (`mutation-queue.ts:79`)

Screens, the sync engine and timers all call `processQueue`, and `isProcessing` lets one call
through. Here the flag and the calls that are past its test are two fields, and an answer arrives
before the segment that handles it runs. The calls are one at most (`reach_single`), and a run of
a process in which no token is missing is a run of a `Device` (`process_device`).
-/

namespace Gescom.Mobile

open Transition

/-- A call of `processQueue` that has set `isProcessing`. -/
structure QueueCall where
  deps : ProcessQueueDeps
  run : Run
  /-- What `apiFetch` has settled with, until its segment runs; the inner `none`: it throws. -/
  answer : Option (Option Response) := none

inductive QueueEvent where
  | sent (id : Nat)
  | answered (id : Nat) (reply : Option Response)
  /-- With the answers that no segment has handled. -/
  | killed (unhandled : List (Nat × Option Response))

structure Process where
  /-- Its phone has no run: `calls` has them. -/
  device : Device
  isProcessing : Bool := false
  calls : List QueueCall := []
  /-- In no variable of the source: the rows of the hooks in `device.phone.hooks`. -/
  hookRows : List Nat := []
  /-- In no variable of the source: what has happened, the latest first. -/
  events : List QueueEvent := []

inductive QueueAction where
  | hook (i : Nat)
  | syncEngine
  | timer (i : Nat)
  | proceed (i : Nat)
  /-- `getAccessToken` returns `null`, whatever the session. -/
  | noToken (i : Nat)
  /-- `apiFetch` settles; `none`: it throws. -/
  | settle (i : Nat) (reply : Option Response)
  /-- The segment after `apiFetch`. -/
  | receive (i : Nat)

inductive ProcessAction where
  | device (a : DeviceAction)
  | queue (a : QueueAction)

/-! ## Steps -/

/-- Not one of the steps that `QueueAction` has. -/
def DeviceAction.outside : DeviceAction → Bool
  | .app (.hook _) | .app .syncEngine | .app (.timer _) | .app .proceed | .app (.respond _) => false
  | _ => true

def QueueCall.unhandled (c : QueueCall) : Option (Nat × Option Response) :=
  match c.run with
  | .waiting m _ => c.answer.map fun reply => (m.id, reply)
  | _ => none

/-- What the segment that `proceed` runs sends. -/
def QueueCall.sends (c : QueueCall) : List QueueEvent :=
  match c.run with
  | .marking m _ _ => [.sent m.id]
  | _ => []

def Process.withPhone (phone : Phone) (s : Process) : Process :=
  { s with device := { s.device with phone } }

/-- The variables of a killed process are lost. -/
def Process.follow (a : DeviceAction) (s : Process) (d : Device) : Process :=
  match a with
  | .kill => { device := d, events := .killed (s.calls.filterMap QueueCall.unhandled) :: s.events }
  | .app (.enqueueMutation input _ isOnline) =>
    { s with
      device := d
      hookRows :=
        if isOnline && validMutationPath input.path then s.hookRows ++ [s.device.phone.nextId]
        else s.hookRows }
  | _ => { s with device := d }

def Process.processQueue (deps : ProcessQueueDeps) (s : Process) : Process :=
  if s.isProcessing then s
  else
    { s with
      isProcessing := true
      calls := s.calls ++ [{ deps, run := .next s.device.phone.listPendingMutations }] }

/-- The phone as the segments of a call see it. -/
def Process.running (c : QueueCall) (s : Process) : Phone :=
  { s.device.phone with processing := some (c.deps, c.run) }

/-- Call `i` has run a segment. -/
def Process.resume (i : Nat) (s : Process) (phone : Phone) : Process :=
  let s' := s.withPhone { phone with processing := none }
  match phone.processing with
  | some (deps, run) => { s' with calls := s.calls.set i { deps, run } }
  -- the `finally` of `processQueue`
  | none => { s' with isProcessing := false, calls := s.calls.eraseIdx i }

def Process.queueStep (s : Process) : QueueAction → Option Process
  | .hook i =>
    s.device.phone.hooks[i]?.map fun accessToken =>
      { s.withPhone { s.device.phone with hooks := s.device.phone.hooks.eraseIdx i } with
        hookRows := s.hookRows.eraseIdx i }.processQueue (.closed accessToken)
  | .syncEngine =>
    if s.device.phone.rendered = .unauthenticated then none else some (s.processQueue .ref)
  | .timer i =>
    s.device.phone.timers[i]?.map fun deps =>
      (s.withPhone
        { s.device.phone with timers := s.device.phone.timers.eraseIdx i }).processQueue deps
  | .proceed i =>
    s.calls[i]?.bind fun c => (s.running c).proceed.map fun phone =>
      { s.resume i phone with events := c.sends ++ s.events }
  | .noToken i =>
    s.calls[i]?.bind fun c =>
      match c.run with
      | .next (_ :: _) => some (s.resume i s.device.phone)
      | _ => none
  | .settle i reply =>
    s.calls[i]?.bind fun c =>
      match c.run, c.answer with
      | .waiting m _, none =>
        some { s with
          calls := s.calls.set i { c with answer := some reply }
          events := .answered m.id reply :: s.events }
      | _, _ => none
  | .receive i =>
    s.calls[i]?.bind fun c => c.answer.bind fun reply =>
      ((s.running c).receive reply).map (s.resume i)

def Process.step (s : Process) : ProcessAction → Option Process
  | .device a => if a.outside then (s.device.step a).map (s.follow a) else none
  | .queue a => if s.device.restore = some .over then s.queueStep a else none

def process : System Process ProcessAction := ⟨Process.step⟩

/-- The application does not run. -/
structure ProcessStarts (s : Process) : Prop where
  device : DeviceStarts s.device
  idle : s.isProcessing = false ∧ s.calls = [] ∧ s.hookRows = []
  events : s.events = []

/-! ## One call at most -/

structure Process.Single (s : Process) : Prop where
  processing : s.device.phone.processing = none
  calls : s.calls = [] ∧ s.isProcessing = false ∨ ∃ c, s.calls = [c] ∧ s.isProcessing = true

/-- The device that runs the calls of `s` as its run. -/
def Process.asDevice (s : Process) : Device :=
  { s.device with
    phone := { s.device.phone with processing := s.calls.head?.map fun c => (c.deps, c.run) } }

variable {s s' s₀ : Process} {c : QueueCall} {d d' : Device}

theorem ProcessStarts.single (h : ProcessStarts s) : s.Single :=
  ⟨h.device.processing, .inl ⟨h.idle.2.1, h.idle.1⟩⟩

theorem Process.Single.asDevice_of_call (h : s.calls = [c]) :
    s.asDevice = { s.device with phone := s.running c } := by
  simp [Process.asDevice, Process.running, h]

theorem Process.Single.asDevice_of_idle (h : s.Single) (hcalls : s.calls = []) :
    s.asDevice = s.device := by
  have hnone := h.processing
  simp only [Process.asDevice, hcalls, List.head?_nil, Option.map_none]
  rw [← hnone]

/-! ### Steps beside the queue -/

def Device.withRun (p : Option (ProcessQueueDeps × Run)) (d : Device) : Device :=
  { d with phone := { d.phone with processing := p } }

theorem storage_withRun (p : Option (ProcessQueueDeps × Run)) :
    (d.withRun p).storage = d.storage.map (Device.withRun p) := by
  obtain ⟨phone, refreshToken, restore⟩ := d
  rcases restore with _ | restore
  · rfl
  · cases restore with
    | reading => cases refreshToken <;> rfl
    | _ => rfl

theorem refreshAnswered_withRun (p : Option (ProcessQueueDeps × Run)) (reply : Option Response)
    (refreshToken : Option String) : (d.withRun p).refreshAnswered reply refreshToken =
      (d.refreshAnswered reply refreshToken).withRun p := by
  unfold Device.refreshAnswered
  repeat' split
  all_goals rfl

theorem meAnswered_withRun (p : Option (ProcessQueueDeps × Run)) (reply : Option Response)
    (session : Option AccessToken) :
    (d.withRun p).meAnswered reply session = (d.meAnswered reply session).withRun p := by
  unfold Device.meAnswered
  repeat' split
  all_goals rfl

/-- The step neither reads nor writes the run. -/
def Device.Beside (d : Device) (a : DeviceAction) (d' : Device) : Prop :=
  ∀ p, (d.withRun p).step a = some (d'.withRun p)

theorem app_beside {a : Action} (ha : (DeviceAction.app a).outside = true)
    (hst : d.app a = some d') (hover : d.restore = some .over) : d.Beside (.app a) d' := by
  obtain ⟨phone, hphone, rfl⟩ := Option.map_eq_some_iff.1 hst
  intro p
  have hstep : (d.withRun p).step (.app a) = (d.withRun p).app a := if_pos hover
  rw [hstep]
  cases a with
  | hook | syncEngine | timer | proceed | respond => cases ha
  | login | establishSession | logout | purgeOfflineStore | setUnauthenticated =>
    simp only [Phone.step] at hphone
    split at hphone <;> cases hphone
    rename_i hguard
    simp only [Device.app, Phone.step, Device.withRun, hguard]
    rfl
  | render =>
    cases hphone
    rfl
  | enqueueMutation input key isOnline =>
    obtain ⟨t, ht, rfl⟩ := Option.map_eq_some_iff.1 hphone
    simp only [Device.app, Phone.step, Device.withRun, ht, Option.map_some,
      Phone.enqueueMutation]
    split <;> rfl

theorem outside_step {a : DeviceAction} (ha : a.outside = true) (hst : d.step a = some d') :
    (a = .kill ∧ d' = { d with phone := d.phone.kill, restore := none }) ∨
      (a ≠ .kill ∧ d.Beside a d') := by
  cases a with
  | kill =>
    simp only [Device.step] at hst
    split at hst <;> cases hst
    exact .inl ⟨rfl, rfl⟩
  | app a =>
    simp only [Device.step] at hst
    split at hst
    · rename_i hover
      exact .inr ⟨by simp, app_beside ha hst hover⟩
    · cases hst
  | storage =>
    have hstorage : d.storage = some d' := hst
    exact .inr ⟨by simp, fun p => (storage_withRun p).trans (congrArg _ hstorage)⟩
  | refreshAnswered reply refreshToken =>
    simp only [Device.step] at hst
    split at hst <;> cases hst
    rename_i hrestore
    refine .inr ⟨by simp, fun p => ?_⟩
    rw [← refreshAnswered_withRun]
    exact if_pos hrestore
  | meAnswered reply session =>
    simp only [Device.step] at hst
    split at hst <;> cases hst
    rename_i hrestore
    refine .inr ⟨by simp, fun p => ?_⟩
    rw [← meAnswered_withRun]
    exact if_pos hrestore
  | start | storeRefreshToken | loginFailed =>
    simp only [Device.step] at hst
    split at hst <;> cases hst
    rename_i hguard
    exact .inr ⟨by simp, fun p => if_pos hguard⟩

/-- It keeps the run, then. -/
theorem Device.Beside.processing {a : DeviceAction} (h : d.Beside a d')
    (hst : d.step a = some d') : d'.phone.processing = d.phone.processing := by
  have hself : d.step a = some (d'.withRun d.phone.processing) := h d.phone.processing
  have heq : d' = d'.withRun d.phone.processing := Option.some.inj (hst.symm.trans hself)
  exact congrArg (fun d => d.phone.processing) heq

/-! ### The device of a process -/

theorem follow_calls {a : DeviceAction} (ha : a ≠ .kill) :
    (s.follow a d).calls = s.calls ∧ (s.follow a d).isProcessing = s.isProcessing ∧
      (s.follow a d).device = d ∧ (s.follow a d).events = s.events := by
  unfold Process.follow
  split
  · exact absurd rfl ha
  · exact ⟨rfl, rfl, rfl, rfl⟩
  · exact ⟨rfl, rfl, rfl, rfl⟩

theorem processQueue_single (h : s.Single) (deps : ProcessQueueDeps) :
    (s.processQueue deps).Single ∧
      (s.processQueue deps).asDevice =
        { s.asDevice with phone := s.asDevice.phone.processQueue deps } := by
  rcases h.calls with ⟨hcalls, hflag⟩ | ⟨c, hcalls, hflag⟩
  · have hrun : s.processQueue deps =
        { s with
          isProcessing := true
          calls := [{ deps, run := .next s.device.phone.listPendingMutations }] } := by
      simp [Process.processQueue, hflag, hcalls]
    rw [hrun]
    refine ⟨⟨h.processing, .inr ⟨_, rfl, rfl⟩⟩, ?_⟩
    simp [Process.asDevice, Phone.processQueue, hcalls, Phone.listPendingMutations]
  · have hrun : s.processQueue deps = s := by simp [Process.processQueue, hflag]
    rw [hrun]
    refine ⟨h, ?_⟩
    simp [Process.asDevice, Phone.processQueue, hcalls]

theorem resume_single (h : s.Single) (hcalls : s.calls = [c]) (phone : Phone) :
    (s.resume 0 phone).Single ∧
      (s.resume 0 phone).asDevice = { s.asDevice with phone } := by
  have hflag : s.isProcessing = true := by
    rcases h.calls with ⟨hnone, -⟩ | ⟨_, -, hflag⟩
    · rw [hnone] at hcalls
      cases hcalls
    · exact hflag
  unfold Process.resume
  cases hrun : phone.processing with
  | none =>
    refine ⟨⟨rfl, .inl ⟨by simp [hcalls], rfl⟩⟩, ?_⟩
    simp [Process.asDevice, Process.withPhone, hcalls]
    rw [← hrun]
  | some p =>
    have hset : s.calls.set 0 ({ deps := p.1, run := p.2 } : QueueCall) =
        [{ deps := p.1, run := p.2 }] := by rw [hcalls, List.set_cons_zero]
    refine ⟨⟨rfl, .inr ⟨_, hset, hflag⟩⟩, ?_⟩
    simp [Process.asDevice, Process.withPhone, hcalls]
    rw [← hrun]

theorem Process.asDevice_eq : s.asDevice =
    s.device.withRun (s.calls.head?.map fun c => (c.deps, c.run)) := rfl

/-- The call that takes a step is the only one. -/
theorem Process.Single.only {i : Nat} (h : s.Single) (hc : s.calls[i]? = some c) :
    s.calls = [c] ∧ i = 0 := by
  rcases h.calls with ⟨hnone, -⟩ | ⟨c', hone, -⟩
  · simp [hnone] at hc
  · rw [hone] at hc ⊢
    cases i with
    | zero => simpa using hc
    | succ i => simp at hc

theorem follow_device {a : DeviceAction} (h : s.Single) (ha : a.outside = true)
    (hst : s.device.step a = some d) : (s.follow a d).Single ∧
      s.asDevice.step a = some (s.follow a d).asDevice := by
  rcases outside_step ha hst with ⟨rfl, rfl⟩ | ⟨hkill, hbeside⟩
  · refine ⟨⟨rfl, .inl ⟨rfl, rfl⟩⟩, ?_⟩
    simp only [Device.step] at hst ⊢
    split at hst
    · cases hst
    · rename_i hrestore
      exact if_neg hrestore
  · obtain ⟨hcalls, hflag, hdevice, -⟩ := follow_calls (s := s) (d := d) hkill
    refine ⟨⟨?_, ?_⟩, ?_⟩
    · rw [hdevice, hbeside.processing hst]
      exact h.processing
    · rw [hcalls, hflag]
      exact h.calls
    · rw [Process.asDevice_eq, Process.asDevice_eq, hcalls, hdevice]
      exact hbeside _

theorem queueStep_device {a : QueueAction} (h : s.Single) (hover : s.device.restore = some .over)
    (hst : s.queueStep a = some s') : s'.Single ∧
      (s'.asDevice = s.asDevice ∨ (∃ b, s.asDevice.step b = some s'.asDevice) ∨
        (∃ i, a = .noToken i) ∧ s'.asDevice = s.asDevice.withRun none) := by
  have hstep : ∀ a, s.asDevice.step (.app a) = s.asDevice.app a := fun a => if_pos hover
  cases a with
  | hook i =>
    obtain ⟨t, ht, rfl⟩ := Option.map_eq_some_iff.1 hst
    obtain ⟨hsingle, hdevice⟩ := processQueue_single (s := { s.withPhone { s.device.phone with
      hooks := s.device.phone.hooks.eraseIdx i } with hookRows := s.hookRows.eraseIdx i })
      ⟨h.processing, h.calls⟩ (.closed t)
    refine ⟨hsingle, .inr (.inl ⟨.app (.hook i), ?_⟩)⟩
    rw [hdevice, hstep]
    simp [Device.app, Phone.step, Process.asDevice, Process.withPhone, ht]
  | syncEngine =>
    simp only [Process.queueStep] at hst
    split at hst <;> cases hst
    rename_i hrendered
    obtain ⟨hsingle, hdevice⟩ := processQueue_single h .ref
    refine ⟨hsingle, .inr (.inl ⟨.app .syncEngine, ?_⟩)⟩
    rw [hdevice, hstep]
    simp [Device.app, Phone.step, Process.asDevice, hrendered]
  | timer i =>
    obtain ⟨deps, hdeps, rfl⟩ := Option.map_eq_some_iff.1 hst
    obtain ⟨hsingle, hdevice⟩ := processQueue_single (s := s.withPhone { s.device.phone with
      timers := s.device.phone.timers.eraseIdx i }) ⟨h.processing, h.calls⟩ deps
    refine ⟨hsingle, .inr (.inl ⟨.app (.timer i), ?_⟩)⟩
    rw [hdevice, hstep]
    simp [Device.app, Phone.step, Process.asDevice, Process.withPhone, hdeps]
  | proceed i =>
    obtain ⟨c, hc, hsegment⟩ := Option.bind_eq_some_iff.1 hst
    obtain ⟨phone, hphone, rfl⟩ := Option.map_eq_some_iff.1 hsegment
    obtain ⟨hcalls, rfl⟩ := h.only hc
    obtain ⟨hsingle, hdevice⟩ := resume_single h hcalls phone
    refine ⟨⟨hsingle.processing, hsingle.calls⟩, .inr (.inl ⟨.app .proceed, ?_⟩)⟩
    rw [hstep, Process.Single.asDevice_of_call hcalls]
    refine Option.map_eq_some_iff.2 ⟨phone, hphone, ?_⟩
    exact ((Process.Single.asDevice_of_call hcalls) ▸ hdevice).symm
  | noToken i =>
    obtain ⟨c, hc, hend⟩ := Option.bind_eq_some_iff.1 hst
    obtain ⟨hcalls, rfl⟩ := h.only hc
    split at hend <;> cases hend
    obtain ⟨hsingle, hdevice⟩ := resume_single h hcalls s.device.phone
    refine ⟨hsingle, .inr (.inr ⟨⟨0, rfl⟩, hdevice.trans ?_⟩)⟩
    rw [Process.asDevice_eq]
    simp only [Device.withRun, ← h.processing]
  | settle i reply =>
    obtain ⟨c, hc, hsettle⟩ := Option.bind_eq_some_iff.1 hst
    obtain ⟨hcalls, rfl⟩ := h.only hc
    have hflag : s.isProcessing = true := by
      rcases h.calls with ⟨hnone, -⟩ | ⟨_, -, hflag⟩
      · rw [hnone] at hcalls
        cases hcalls
      · exact hflag
    split at hsettle <;> cases hsettle
    have hset : s.calls.set 0 { c with answer := some reply } = [{ c with answer := some reply }] := by
      rw [hcalls, List.set_cons_zero]
    refine ⟨⟨h.processing, .inr ⟨_, hset, hflag⟩⟩, .inl ?_⟩
    simp [Process.asDevice, hcalls]
  | receive i =>
    obtain ⟨c, hc, hanswer⟩ := Option.bind_eq_some_iff.1 hst
    obtain ⟨reply, -, hsegment⟩ := Option.bind_eq_some_iff.1 hanswer
    obtain ⟨phone, hphone, rfl⟩ := Option.map_eq_some_iff.1 hsegment
    obtain ⟨hcalls, rfl⟩ := h.only hc
    obtain ⟨hsingle, hdevice⟩ := resume_single h hcalls phone
    refine ⟨hsingle, .inr (.inl ⟨.app (.respond reply), ?_⟩)⟩
    rw [hstep, Process.Single.asDevice_of_call hcalls]
    refine Option.map_eq_some_iff.2 ⟨phone, hphone, ?_⟩
    exact ((Process.Single.asDevice_of_call hcalls) ▸ hdevice).symm

theorem step_device {a : ProcessAction} (h : s.Single) (hst : s.step a = some s') : s'.Single ∧
    (s'.asDevice = s.asDevice ∨ (∃ b, s.asDevice.step b = some s'.asDevice) ∨
      (∃ i, a = .queue (.noToken i)) ∧ s'.asDevice = s.asDevice.withRun none) := by
  cases a with
  | device a =>
    simp only [Process.step] at hst
    split at hst
    · rename_i ha
      obtain ⟨d, hd, rfl⟩ := Option.map_eq_some_iff.1 hst
      obtain ⟨hsingle, hdevice⟩ := follow_device h ha hd
      exact ⟨hsingle, .inr (.inl ⟨a, hdevice⟩)⟩
    · cases hst
  | queue a =>
    simp only [Process.step] at hst
    split at hst
    · rename_i hover
      obtain ⟨hsingle, hdevice⟩ := queueStep_device h hover hst
      refine ⟨hsingle, hdevice.imp id (Or.imp id fun hnone => ⟨?_, hnone.2⟩)⟩
      obtain ⟨i, rfl⟩ := hnone.1
      exact ⟨i, rfl⟩
    · cases hst

theorem reach_single {C : Process → ProcessAction → Prop} (h0 : ProcessStarts s₀)
    (h : Reach process C s₀ s) : s.Single :=
  h.inv Process.Single h0.single fun _ _ _ _ ih _ hst => (step_device ih hst).1

/-- A run of a process in which no token is missing is a run of a device. -/
theorem process_device {C : Process → ProcessAction → Prop}
    (hC : ∀ s i, ¬ C s (.queue (.noToken i))) (h0 : ProcessStarts s₀)
    (h : Reach process C s₀ s) : Reach device Always s₀.device s.asDevice := by
  refine h.inv (fun s => Reach device Always s₀.device s.asDevice) ?_ ?_
  · rw [h0.single.asDevice_of_idle h0.idle.2.1]
    exact .init
  · intro s a s' hr ih hK hst
    rcases (step_device (reach_single h0 hr) hst).2 with hsame | ⟨b, hb⟩ | ⟨⟨i, rfl⟩, -⟩
    · exact hsame ▸ ih
    · exact ih.step trivial hb
    · exact absurd hK (hC s i)

/-- An id that is taken is not given again. -/
theorem queueOk_step {a : ProcessAction} (hs : s.Single) (h : QueueOk s.asDevice.phone)
    (hst : s.step a = some s') : QueueOk s'.asDevice.phone := by
  rcases (step_device hs hst).2 with hsame | ⟨b, hb⟩ | ⟨-, hend⟩
  · exact hsame ▸ h
  · exact h.step hb
  · rw [hend]
    refine ⟨h.ids, fun deps r hr => ?_⟩
    cases hr

end Gescom.Mobile
