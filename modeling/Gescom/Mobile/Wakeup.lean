import Gescom.Mobile.Replay

/-!
# Mutations that are enqueued during a run

A screen hook enqueues its mutation and calls `processQueue`, so that the row does not stay pending
until the next change of connectivity (`use-products.ts:79`). A call that finds `isProcessing` set
returns, and the run that has set it works on the snapshot it took at its start: `lost_wakeup` is a
run where the row of a hook is in no snapshot, and the hook resolves. `none_stranded` shows that
such a call is the only way to strand a row.
-/

namespace Gescom.Mobile

open Transition

/-- The promise of the hook is rejected with the message. -/
def Phone.assertMutationSucceeded (mutationId : Nat) (phone : Phone) : Except String Unit :=
  match phone.queue.find? mutationId with
  | some m =>
    if m.status = .failed then
      .error (m.lastError.getD "La modification a été refusée par le serveur")
    else .ok ()
  | none => .ok ()

/-! ## What must hold -/

def ProcessAction.online : ProcessAction → Bool
  | .device (.app (.enqueueMutation _ _ isOnline)) => isOnline
  | .device (.app .render) => true
  | .device _ => false
  | .queue (.noToken _) => false
  | .queue _ => true

/-- Online and authenticated throughout. -/
def Online (_ : Process) (a : ProcessAction) : Prop := a.online = true

def Process.Attempted (s : Process) (id : Nat) : Prop := .sent id ∈ s.events

/-- The last attempt of the row `id` ended in a stop. -/
def stoppedIn (id : Nat) : List QueueEvent → Bool
  | [] => false
  | .sent id' :: es => if id' = id then false else stoppedIn id es
  | .answered id' reply :: es => if id' = id then stopReply reply else stoppedIn id es
  | .killed _ :: es => stoppedIn id es

/-- While no call runs, a row that still waits has been attempted or is behind one whose last attempt
ended in a stop; or its hook has yet to call `processQueue`. -/
def Process.NoneStranded (s : Process) : Prop :=
  s.calls = [] → ∀ m ∈ s.device.phone.listPendingMutations,
    m.id ∈ s.hookRows ∨ s.Attempted m.id ∨
      ∃ b ∈ s.device.phone.listPendingMutations, b.id < m.id ∧ stoppedIn b.id s.events = true

def NeverStrands (K : Process → ProcessAction → Prop) (s₀ : Process) : Prop :=
  ∀ s, Reach process K s₀ s → s.NoneStranded

/-- A hook calls `processQueue` while no run is under way, or while the run holds the row of the hook
(or is at its last write, or done with the row). -/
def Heard (s : Process) : ProcessAction → Prop
  | .queue (.hook i) => ∀ c ∈ s.calls, (∃ b, c.run = .stopping b) ∨
      ∀ m ∈ s.device.phone.listPendingMutations, s.hookRows[i]? = some m.id →
        m.id ∈ c.run.held.map QueuedMutation.id
  | _ => True

/-- The application runs with a session; no call of `processQueue` does, and no hook waits. -/
structure OnlineStarts (s : Process) : Prop where
  session : s.device.phone.session ≠ .unauthenticated
  rendered : s.device.phone.rendered ≠ .unauthenticated
  processing : s.device.phone.processing = none
  idle : s.isProcessing = false ∧ s.calls = []
  ids : ∀ m ∈ s.device.phone.queue.rows, m.id < s.device.phone.nextId
  order : (s.device.phone.queue.rows.map QueuedMutation.id).Pairwise (· < ·)
  noneStranded : s.NoneStranded

variable {s s' s₀ : Process} {a : ProcessAction} {c : QueueCall} {m : QueuedMutation} {id : Nat}

/-! ## What the steps leave alone -/

def QueueAction.hookRows (rows : List Nat) : QueueAction → List Nat
  | .hook i => rows.eraseIdx i
  | _ => rows

theorem proceed_session {phone phone' : Phone} (h : phone.proceed = some phone') :
    phone'.session = phone.session ∧ phone'.rendered = phone.rendered := by
  unfold Phone.proceed at h
  split at h
  · cases h
  · cases h
    exact ⟨rfl, rfl⟩
  · split at h <;> cases h <;> exact ⟨rfl, rfl⟩
  · cases h
    exact ⟨rfl, rfl⟩
  · cases h
  · cases h
    exact ⟨rfl, rfl⟩
  · cases h
    exact ⟨rfl, rfl⟩

theorem receive_session {phone phone' : Phone} {reply : Option Response}
    (h : phone.receive reply = some phone') :
    phone'.session = phone.session ∧ phone'.rendered = phone.rendered := by
  unfold Phone.receive at h
  split at h
  · cases reply with
    | none =>
      cases h
      exact ⟨rfl, rfl⟩
    | some r =>
      simp only at h
      split_ifs at h <;> cases h <;> exact ⟨rfl, rfl⟩
  · cases h

theorem processQueue_beside (deps : ProcessQueueDeps) (s : Process) :
    (s.processQueue deps).hookRows = s.hookRows ∧ (s.processQueue deps).device = s.device := by
  unfold Process.processQueue
  split <;> exact ⟨rfl, rfl⟩

theorem resume_frame (i : Nat) (s : Process) (phone : Phone) :
    (s.resume i phone).hookRows = s.hookRows ∧
      (s.resume i phone).device.phone.session = phone.session ∧
      (s.resume i phone).device.phone.rendered = phone.rendered := by
  unfold Process.resume
  split <;> exact ⟨rfl, rfl, rfl⟩

theorem queueStep_frame {a : QueueAction} (hst : s.queueStep a = some s') :
    s'.hookRows = a.hookRows s.hookRows ∧
      s'.device.phone.session = s.device.phone.session ∧
      s'.device.phone.rendered = s.device.phone.rendered := by
  cases a with
  | hook i =>
    obtain ⟨t, -, rfl⟩ := Option.map_eq_some_iff.1 hst
    obtain ⟨hrows, hdevice⟩ := processQueue_beside (.closed t)
      { s.withPhone { s.device.phone with hooks := s.device.phone.hooks.eraseIdx i } with
        hookRows := s.hookRows.eraseIdx i }
    rw [hrows, hdevice]
    exact ⟨rfl, rfl, rfl⟩
  | syncEngine =>
    simp only [Process.queueStep] at hst
    split at hst <;> cases hst
    obtain ⟨hrows, hdevice⟩ := processQueue_beside .ref s
    rw [hrows, hdevice]
    exact ⟨rfl, rfl, rfl⟩
  | timer i =>
    obtain ⟨deps, -, rfl⟩ := Option.map_eq_some_iff.1 hst
    obtain ⟨hrows, hdevice⟩ := processQueue_beside deps
      (s.withPhone { s.device.phone with timers := s.device.phone.timers.eraseIdx i })
    rw [hrows, hdevice]
    exact ⟨rfl, rfl, rfl⟩
  | proceed i =>
    obtain ⟨c, -, hsegment⟩ := Option.bind_eq_some_iff.1 hst
    obtain ⟨phone, hphone, rfl⟩ := Option.map_eq_some_iff.1 hsegment
    obtain ⟨hrows, hsession, hrendered⟩ := resume_frame i s phone
    obtain ⟨hkept, hshown⟩ := proceed_session hphone
    exact ⟨hrows, hsession.trans hkept, hrendered.trans hshown⟩
  | noToken i =>
    obtain ⟨c, -, hend⟩ := Option.bind_eq_some_iff.1 hst
    split at hend <;> cases hend
    exact resume_frame i s s.device.phone
  | settle i reply =>
    obtain ⟨c, -, hsettle⟩ := Option.bind_eq_some_iff.1 hst
    split at hsettle <;> cases hsettle
    exact ⟨rfl, rfl, rfl⟩
  | receive i =>
    obtain ⟨c, -, hanswer⟩ := Option.bind_eq_some_iff.1 hst
    obtain ⟨reply, -, hsegment⟩ := Option.bind_eq_some_iff.1 hanswer
    obtain ⟨phone, hphone, rfl⟩ := Option.map_eq_some_iff.1 hsegment
    obtain ⟨hrows, hsession, hrendered⟩ := resume_frame i s phone
    obtain ⟨hkept, hshown⟩ := receive_session hphone
    exact ⟨hrows, hsession.trans hkept, hrendered.trans hshown⟩

/-- Online, the row that a hook enqueues is one of `hookRows`. -/
structure Process.Goes (s s' : Process) (a : DeviceAction) : Prop where
  session : s'.device.phone.session ≠ .unauthenticated
  rendered : s'.device.phone.rendered ≠ .unauthenticated
  hookRows : ∀ id ∈ s.hookRows, id ∈ s'.hookRows
  enqueued : ∀ input key isOnline, a = .app (.enqueueMutation input key isOnline) →
    validMutationPath input.path = true → s.device.phone.nextId ∈ s'.hookRows

theorem deviceStep_frame {a : DeviceAction} (hO : Online s (.device a))
    (hst : s.step (.device a) = some s') (hsession : s.device.phone.session ≠ .unauthenticated)
    (hrendered : s.device.phone.rendered ≠ .unauthenticated) : s.Goes s' a := by
  simp only [Process.step] at hst
  split at hst
  · obtain ⟨d, hd, rfl⟩ := Option.map_eq_some_iff.1 hst
    cases a with
    | app a =>
      simp only [Device.step] at hd
      split at hd
      · obtain ⟨phone, hphone, rfl⟩ := Option.map_eq_some_iff.1 hd
        cases a with
        | render =>
          cases hphone
          exact ⟨hsession, hsession, fun id hid => hid, fun _ _ _ h => by cases h⟩
        | enqueueMutation input key isOnline =>
          obtain rfl : isOnline = true := hO
          obtain ⟨t, -, rfl⟩ := Option.map_eq_some_iff.1 hphone
          refine ⟨?_, ?_, fun id hid => ?_, ?_⟩
          · unfold Phone.enqueueMutation
            split <;> exact hsession
          · unfold Phone.enqueueMutation
            split <;> exact hrendered
          · simp only [Process.follow]
            split
            · exact List.mem_append_left _ hid
            · exact hid
          · rintro input' _ _ ⟨⟩ hvalid
            simp only [Process.follow, hvalid, Bool.and_self, if_true]
            exact List.mem_append_right _ (List.mem_singleton.2 rfl)
        | _ => exact absurd hO Bool.false_ne_true
      · cases hd
    | _ => exact absurd hO Bool.false_ne_true
  · cases hst

/-! ## The invariant -/

/-- What `NoneStranded` says of a row. -/
def Process.Safe (s : Process) (id : Nat) : Prop :=
  id ∈ s.hookRows ∨ s.Attempted id ∨
    ∃ b ∈ s.work.map Prod.fst, b < id ∧ stoppedIn b s.events = true

/-- The call holds every row whose hook has called `processQueue`. -/
def Process.Covered (s : Process) (c : QueueCall) : Prop :=
  ∀ id ∈ s.work.map Prod.fst, id ∈ c.run.held.map QueuedMutation.id ∨ id ∈ s.hookRows

/-- The last attempt of the row at the head of the work list ended in a stop. -/
def Process.Blocked (s : Process) : Prop :=
  ∃ id n tail, s.work = (id, n) :: tail ∧ s.Attempted id ∧ stoppedIn id s.events = true

structure Process.Awaits (s : Process) (c : QueueCall) : Prop where
  covered : (∃ b, c.run = .stopping b) ∨ s.Covered c
  blocked : ∀ b, c.run = .stopping b → s.Blocked
  attempted : ∀ m rest, c.run = .waiting m rest → s.Attempted m.id ∧
    ∀ reply, c.answer = some reply → stoppedIn m.id s.events = stopReply reply

structure Process.Awake (s : Process) : Prop where
  session : s.device.phone.session ≠ .unauthenticated
  rendered : s.device.phone.rendered ≠ .unauthenticated
  idle : s.calls = [] → ∀ id ∈ s.work.map Prod.fst, s.Safe id
  awaits : ∀ c ∈ s.calls, s.Awaits c

theorem mem_ids : id ∈ s.work.map Prod.fst ↔ ∃ m ∈ s.device.phone.listPendingMutations, m.id = id := by
  rw [Process.work, mem_work_ids]
  constructor
  · rintro ⟨m, hm, hlive, hid⟩
    exact ⟨m, mem_pending.2 ⟨hm, hlive⟩, hid⟩
  · rintro ⟨m, hm, hid⟩
    obtain ⟨hrow, hlive⟩ := mem_pending.1 hm
    exact ⟨m, hrow, hlive, hid⟩

theorem safe_iff : s.Safe id ↔ id ∈ s.hookRows ∨ s.Attempted id ∨
    ∃ b ∈ s.device.phone.listPendingMutations, b.id < id ∧ stoppedIn b.id s.events = true := by
  refine or_congr Iff.rfl (or_congr Iff.rfl ?_)
  constructor
  · rintro ⟨_, hb, hlt, hstop⟩
    obtain ⟨m, hm, rfl⟩ := mem_ids.1 hb
    exact ⟨m, hm, hlt, hstop⟩
  · rintro ⟨m, hm, hlt, hstop⟩
    exact ⟨m.id, mem_ids.2 ⟨m, hm, rfl⟩, hlt, hstop⟩

theorem Process.Awake.noneStranded (h : s.Awake) : s.NoneStranded := fun hidle m hm =>
  safe_iff.1 (h.idle hidle m.id (mem_ids.2 ⟨m, hm, rfl⟩))

theorem OnlineStarts.awake (h : OnlineStarts s) : s.Awake := by
  refine ⟨h.session, h.rendered, fun hidle id hid => ?_, fun c hc => ?_⟩
  · obtain ⟨m, hm, rfl⟩ := mem_ids.1 hid
    exact safe_iff.2 (h.noneStranded hidle m hm)
  · rw [h.idle.2] at hc
    cases hc

theorem OnlineStarts.replaying (h : OnlineStarts s) : s.Replaying :=
  replaying_of_idle ⟨h.processing, .inl ⟨h.idle.2, h.idle.1⟩⟩ h.idle.2 h.ids h.order

/-- The head of the work list keeps the rows behind it safe. -/
theorem Process.Blocked.safe (h : s.Blocked) (ho : s.Ordered) :
    ∀ id ∈ s.work.map Prod.fst, s.Safe id := by
  intro id hid
  obtain ⟨b, n, tail, hwork, hattempted, hstop⟩ := h
  have hsorted := ho.sorted
  rw [hwork, List.map_cons] at hid hsorted
  rcases List.mem_cons.1 hid with rfl | htail
  · exact .inr (.inl hattempted)
  · refine .inr (.inr ⟨b, ?_, (List.pairwise_cons.1 hsorted).1 id htail, hstop⟩)
    rw [hwork]
    exact List.mem_cons_self

theorem Online.noPurge (h : Online s a) : NoPurge s a := by
  cases a with
  | device a =>
    cases a with
    | app a =>
      cases a with
      | purgeOfflineStore => exact absurd h Bool.false_ne_true
      | _ => trivial
    | storage => exact absurd h Bool.false_ne_true
    | _ => trivial
  | queue a => trivial

/-! ## The steps -/

theorem attempted_of_events (hevents : s'.events = s.events) (h : s.Attempted id) :
    s'.Attempted id := by
  unfold Process.Attempted
  rw [hevents]
  exact h

theorem Process.Awaits.covers (h : s.Awaits c) (hrun : ∀ b, c.run ≠ .stopping b) : s.Covered c := by
  rcases h.covered with ⟨b, hb⟩ | hcovered
  · exact absurd hb (hrun b)
  · exact hcovered

/-- A call that neither waits nor stops. -/
theorem awaits_of_covered (hcovered : s.Covered c) (hstop : ∀ b, c.run ≠ .stopping b)
    (hwait : ∀ m rest, c.run ≠ .waiting m rest) : s.Awaits c :=
  ⟨.inr hcovered, fun b hb => absurd hb (hstop b), fun m rest hrun => absurd hrun (hwait m rest)⟩

/-- A call that goes on holds what it held. -/
theorem covered_of_same {c' : QueueCall} (h : s.Covered c) (hwork : s'.work = s.work)
    (hrows : ∀ id ∈ s.hookRows, id ∈ s'.hookRows) (hheld : c'.run.held = c.run.held) :
    s'.Covered c' := by
  intro id hid
  rw [hheld]
  exact (h id (hwork ▸ hid)).imp (fun hheld => hheld) (hrows id)

theorem Process.Blocked.mono (h : s.Blocked) (hwork : s.work <+: s'.work)
    (hevents : s'.events = s.events) : s'.Blocked := by
  obtain ⟨id, n, tail, hhead, hattempted, hstop⟩ := h
  obtain ⟨more, hmore⟩ := hwork
  refine ⟨id, n, tail ++ more, ?_, attempted_of_events hevents hattempted, hevents ▸ hstop⟩
  rw [← hmore, hhead]
  rfl

theorem Process.Awaits.answered (h : s.Awaits c) (hevents : s'.events = s.events) :
    ∀ m rest, c.run = .waiting m rest → s'.Attempted m.id ∧
      ∀ reply, c.answer = some reply → stoppedIn m.id s'.events = stopReply reply := by
  intro m rest hrun
  obtain ⟨hattempted, hanswer⟩ := h.attempted m rest hrun
  refine ⟨attempted_of_events hevents hattempted, fun reply hreply => ?_⟩
  rw [hevents]
  exact hanswer reply hreply

/-- Nothing but the rows of hooks has changed, and there are more of these. -/
theorem Process.Awaits.mono (h : s.Awaits c) (hwork : s.work <+: s'.work)
    (hrows : ∀ id ∈ s'.work.map Prod.fst, id ∈ s.work.map Prod.fst ∨ id ∈ s'.hookRows)
    (hold : ∀ id ∈ s.hookRows, id ∈ s'.hookRows) (hevents : s'.events = s.events) :
    s'.Awaits c := by
  refine ⟨h.covered.imp id fun hcovered id hid => ?_,
    fun b hb => (h.blocked b hb).mono hwork hevents, h.answered hevents⟩
  rcases hrows id hid with hin | hnew
  · exact (hcovered id hin).imp (fun hheld => hheld) (hold id)
  · exact .inr hnew

theorem Process.Safe.mono (h : s.Safe id) (hwork : s.work <+: s'.work)
    (hold : ∀ id ∈ s.hookRows, id ∈ s'.hookRows) (hevents : s'.events = s.events) : s'.Safe id := by
  rcases h with hhook | hattempted | ⟨b, hb, hlt, hstop⟩
  · exact .inl (hold id hhook)
  · exact .inr (.inl (attempted_of_events hevents hattempted))
  · obtain ⟨more, hmore⟩ := hwork
    refine .inr (.inr ⟨b, ?_, hlt, hevents ▸ hstop⟩)
    rw [← hmore, List.map_append]
    exact List.mem_append_left _ hb

/-- A step beside the queue, and the rows it enqueues. -/
theorem awake_device {a : DeviceAction} (h : s.Awake) (hgoes : s.Goes s' a)
    (hwork : s.work <+: s'.work)
    (hrows : ∀ id ∈ s'.work.map Prod.fst, id ∈ s.work.map Prod.fst ∨ id ∈ s'.hookRows)
    (hcalls : s'.calls = s.calls) (hevents : s'.events = s.events) : s'.Awake := by
  refine ⟨hgoes.session, hgoes.rendered, fun hidle id hid => ?_, fun c hc => ?_⟩
  · rcases hrows id hid with hin | hnew
    · exact (h.idle (hcalls ▸ hidle) id hin).mono hwork hgoes.hookRows hevents
    · exact .inl hnew
  · exact (h.awaits c (hcalls ▸ hc)).mono hwork hrows hgoes.hookRows hevents

theorem mem_hookRows {a : QueueAction} {rows : List Nat} (h : id ∈ rows) :
    id ∈ a.hookRows rows ∨ ∃ i, a = .hook i ∧ rows[i]? = some id := by
  cases a with
  | hook i =>
    obtain ⟨j, hj, rfl⟩ := List.mem_iff_getElem.1 h
    by_cases hij : j = i
    · subst hij
      exact .inr ⟨j, rfl, List.getElem?_eq_getElem hj⟩
    · exact .inl (List.mem_eraseIdx_iff_getElem.2 ⟨j, hj, hij, rfl⟩)
  | _ => exact .inl h

/-- A trigger that finds a call under way. -/
theorem awaits_dropped {a : QueueAction} (h : s.Awaits c) (hc : c ∈ s.calls)
    (hK : Heard s (.queue a)) (hwork : s'.work = s.work) (hevents : s'.events = s.events)
    (hrows : s'.hookRows = a.hookRows s.hookRows) : s'.Awaits c := by
  refine ⟨?_, fun b hb => (h.blocked b hb).mono (hwork ▸ List.prefix_refl _) hevents,
    h.answered hevents⟩
  by_cases hstop : ∃ b, c.run = .stopping b
  · exact .inl hstop
  · refine .inr fun id hid => ?_
    rw [hwork] at hid
    rcases h.covers (fun b hb => hstop ⟨b, hb⟩) id hid with hheld | hhook
    · exact .inl hheld
    · rw [hrows]
      rcases mem_hookRows (a := a) hhook with hkept | ⟨i, rfl, hi⟩
      · exact .inr hkept
      · -- the hook that calls now
        obtain ⟨m, hm, rfl⟩ := mem_ids.1 hid
        rcases hK c hc with hstopping | hheard
        · exact absurd hstopping hstop
        · exact .inl (hheard m hm hi)

theorem awake_one {c' : QueueCall} (hsession : s'.device.phone.session ≠ .unauthenticated)
    (hrendered : s'.device.phone.rendered ≠ .unauthenticated) (calls : s'.calls = [c'])
    (h : s'.Awaits c') : s'.Awake := by
  refine ⟨hsession, hrendered, fun hidle => ?_, fun c hc => ?_⟩
  · rw [calls] at hidle
    cases hidle
  · rw [calls, List.mem_singleton] at hc
    exact hc ▸ h

theorem hookRows_of_segment {q : QueueAction} {rows : List Nat} (h : q.isTrigger = false) :
    q.hookRows rows = rows := by
  cases q with
  | hook => cases h
  | _ => rfl

/-- The snapshot a call takes has every row. -/
theorem covered_of_snapshot (hrun : c.run = .next s.device.phone.listPendingMutations)
    (hwork : s'.work = s.work) : s'.Covered c := by
  intro id hid
  obtain ⟨m, hm, rfl⟩ := mem_ids.1 (hwork ▸ hid)
  rw [hrun]
  exact .inl (List.mem_map_of_mem hm)

theorem covered_of_served {c' : QueueCall} {rest : List QueuedMutation} (h : s.Covered c)
    (ho : s.Ordered) (held : c.run.held = m :: rest)
    (work : s.work = (m.id, m.retryCount) :: s'.work) (held' : c'.run.held = rest)
    (hrows : s'.hookRows = s.hookRows) : s'.Covered c' := by
  intro id hid
  have hsorted := ho.sorted
  rw [work, List.map_cons, List.pairwise_cons] at hsorted
  have hlt : m.id < id := hsorted.1 id hid
  have hmem : id ∈ s.work.map Prod.fst := by
    rw [work]
    exact List.mem_cons_of_mem _ hid
  rw [held', hrows]
  rcases h id hmem with hin | hhook
  · rw [held, List.map_cons] at hin
    rcases List.mem_cons.1 hin with heq | hrest
    · omega
    · exact .inl hrest
  · exact .inr hhook

theorem stoppedIn_answered (id : Nat) (reply : Option Response) (es : List QueueEvent) :
    stoppedIn id (.answered id reply :: es) = stopReply reply := if_pos rfl

/-- A call that ends leaves no row behind. -/
theorem safe_of_over {q : QueueAction} (h : s.Awake) (ho : s.Ordered) (hc : c ∈ s.calls)
    (hover : s.Over q c) (hq : q ≠ .noToken 0) : ∀ id ∈ s.work.map Prod.fst, s.Safe id := by
  have hawaits := h.awaits c hc
  rcases hover with hnil | ⟨m, rest, hrun, hnone | htoken⟩ | ⟨b, hstop⟩
  · intro id hid
    have hcovered := hawaits.covers (by simp [hnil])
    rcases hcovered id hid with hheld | hhook
    · rw [hnil] at hheld
      cases hheld
    · exact .inl hhook
  · exact absurd hnone hq
  · cases hdeps : c.deps with
    | closed accessToken =>
      rw [hdeps] at htoken
      cases htoken
    | ref =>
      rw [hdeps] at htoken
      have hrendered : s.device.phone.rendered.accessToken = none := htoken
      cases hsession : s.device.phone.rendered with
      | unauthenticated => exact absurd hsession h.rendered
      | authenticated accessToken =>
        rw [hsession] at hrendered
        cases hrendered
  · exact (hawaits.blocked b hstop).safe ho

/-- The request is sent. -/
theorem awaits_sent {c' : QueueCall} {rest : List QueuedMutation} (h : s.Covered c)
    (hwork : s'.work = s.work) (hrows : ∀ id ∈ s.hookRows, id ∈ s'.hookRows)
    (hheld : c'.run.held = c.run.held) (run' : c'.run = .waiting m rest)
    (answer : c'.answer = none) (events : s'.events = .sent m.id :: s.events) : s'.Awaits c' := by
  refine ⟨.inr (covered_of_same h hwork hrows hheld), by simp [run'], ?_⟩
  intro m' rest' hrun'
  cases run'.symm.trans hrun'
  refine ⟨?_, fun reply hreply => ?_⟩
  · unfold Process.Attempted
    rw [events]
    exact List.mem_cons_self
  · rw [answer] at hreply
    cases hreply

/-- `apiFetch` settles. -/
theorem Process.Awaits.settled {rest : List QueuedMutation} {reply : Option Response}
    (h : s.Awaits c) (run : c.run = .waiting m rest) (hwork : s'.work = s.work)
    (hrows : ∀ id ∈ s.hookRows, id ∈ s'.hookRows)
    (events : s'.events = .answered m.id reply :: s.events) :
    s'.Awaits { c with answer := some reply } := by
  have hcovered := h.covers (by simp [run])
  refine ⟨.inr (covered_of_same hcovered hwork hrows rfl), by simp [run], ?_⟩
  intro m' rest' hrun'
  cases run.symm.trans hrun'
  refine ⟨?_, ?_⟩
  · unfold Process.Attempted
    rw [events]
    exact List.mem_cons_of_mem _ (h.attempted _ _ run).1
  · rintro reply' ⟨⟩
    rw [events]
    exact stoppedIn_answered _ _ _

/-- The row whose answer stops the run is the head of the work list. -/
theorem Process.Awaits.stopped {rest : List QueuedMutation} {reply : Option Response} {n : Nat}
    {tail : List (Nat × Nat)} (h : s.Awaits c) (run : c.run = .waiting m rest)
    (answer : c.answer = some reply) (stop : stopReply reply = true)
    (work' : s'.work = (m.id, n) :: tail) (events : s'.events = s.events) : s'.Blocked := by
  obtain ⟨hattempted, hanswer⟩ := h.attempted _ _ run
  refine ⟨m.id, n, tail, work', attempted_of_events events hattempted, ?_⟩
  rw [events]
  exact (hanswer _ answer).trans stop

/-- A segment of the queue, a trigger, or the end of a request. -/
theorem awake_queue {q : QueueAction} (h : s.Awake) (hr : s.Replaying) (hO : Online s (.queue q))
    (hK : Heard s (.queue q)) (hrows : s'.hookRows = q.hookRows s.hookRows)
    (hsession : s'.device.phone.session ≠ .unauthenticated)
    (hrendered : s'.device.phone.rendered ≠ .unauthenticated) (he : s.Effect (.queue q) s') :
    s'.Awake := by
  have one : ∀ {c c' : QueueCall}, s.calls = [c] → s'.calls = [c'] →
      (s.Awaits c → s'.Awaits c') → s'.Awake := fun call calls hnext =>
    awake_one hsession hrendered calls (hnext (h.awaits _ (call ▸ List.mem_cons_self)))
  have hkept : q.isTrigger = false → s'.hookRows = s.hookRows := fun segment =>
    hrows.trans (hookRows_of_segment segment)
  cases he with
  | dropped busy work calls events =>
    refine ⟨hsession, hrendered, fun hidle => absurd (calls ▸ hidle) busy, fun c hc => ?_⟩
    have hmem : c ∈ s.calls := calls ▸ hc
    exact awaits_dropped (h.awaits c hmem) hmem hK work events hrows
  | started idle work calls run answer events =>
    exact awake_one hsession hrendered calls
      (awaits_of_covered (covered_of_snapshot run work) (by simp [run]) (by simp [run]))
  | marked call run work calls run' answer events | refused call run _ _ work calls run' _ events =>
    refine one call calls fun hawaits => ?_
    have hcovered := hawaits.covers (by simp [run])
    refine awaits_of_covered (covered_of_same hcovered work (fun id hid => hrows ▸ hid) ?_)
      (by simp [run']) (by simp [run'])
    rw [run, run']
    rfl
  | sent call run work calls run' answer events =>
    refine one call calls fun hawaits => ?_
    refine awaits_sent (hawaits.covers (by simp [run])) work (fun id hid => hrows ▸ hid) ?_ run'
      answer events
    rw [run, run']
    rfl
  | settled call run answer work calls events =>
    exact one call calls fun hawaits =>
      hawaits.settled run work (fun id hid => hrows ▸ hid) events
  | served segment call held work calls run' answer events =>
    refine one call calls fun hawaits => ?_
    have hcovered := hawaits.covers fun b hb => by
      rw [hb] at held
      cases held
    exact awaits_of_covered
      (covered_of_served hcovered hr.ordered held work (by rw [run']; rfl) (hkept segment))
      (by simp [run']) (by simp [run'])
  | stopped call run answer stop work work' calls run' answer' events =>
    refine one call calls fun hawaits => ⟨.inl ⟨_, run'⟩, fun b _ => ?_, by simp [run']⟩
    rcases work' with ⟨-, hsame⟩ | ⟨-, -, hcount⟩
    · exact hawaits.stopped run answer stop (hsame.trans work) events
    · exact hawaits.stopped run answer stop hcount events
  | ended segment call hover work calls events =>
    have hsafe := safe_of_over h hr.ordered (call ▸ List.mem_cons_self) hover fun hq => by
      subst hq
      exact absurd hO Bool.false_ne_true
    refine ⟨hsession, hrendered, fun _ id hid => ?_, fun c hc => ?_⟩
    · exact (hsafe id (work ▸ hid)).mono (work ▸ List.prefix_refl _)
        (fun id hid => hkept segment ▸ hid) events
    · rw [calls] at hc
      cases hc

theorem awake_step (h : s.Awake) (hr : s.Replaying) (hO : Online s a) (hK : Heard s a)
    (hst : s.step a = some s') : s'.Awake := by
  have heffect := hr.effect hO.noPurge hst
  cases a with
  | queue q =>
    simp only [Process.step] at hst
    split at hst
    · obtain ⟨hrows, hsession, hrendered⟩ := queueStep_frame hst
      exact awake_queue h hr hO hK hrows (hsession ▸ h.session) (hrendered ▸ h.rendered) heffect
    · cases hst
  | device b =>
    cases heffect with
    | idle work calls events =>
      have hgoes := deviceStep_frame hO hst h.session h.rendered
      exact awake_device h hgoes (work ▸ List.prefix_refl _) (fun id hid => .inl (work ▸ hid)) calls
        events
    | enqueued valid work calls events =>
      have hgoes := deviceStep_frame hO hst h.session h.rendered
      refine awake_device h hgoes (work ▸ List.prefix_append _ _) (fun id hid => ?_) calls events
      rw [work, List.map_append] at hid
      rcases List.mem_append.1 hid with hold | hnew
      · exact .inl hold
      · obtain rfl := List.mem_singleton.1 hnew
        exact .inr (hgoes.enqueued _ _ _ rfl valid)
    | killed => exact absurd hO Bool.false_ne_true

/-! ## The result -/

/-- No row is stranded in the runs where every hook is heard. -/
theorem none_stranded (h0 : OnlineStarts s₀) :
    NeverStrands (fun s a => Online s a ∧ Heard s a) s₀ := by
  intro s hr
  have hboth : s.Replaying ∧ s.Awake := by
    refine hr.inv (fun s => s.Replaying ∧ s.Awake) ⟨h0.replaying, h0.awake⟩ ?_
    intro s a s' _ ih hK hst
    exact ⟨ih.1.step hK.1.noPurge hst, awake_step ih.2 ih.1 hK.1 hK.2 hst⟩
  exact hboth.2.noneStranded

/-- A screen is shown to a user who is logged in; nothing is queued. -/
def onlineProcess : Process where
  device :=
    { phone :=
        { samplePhone with
          session := .authenticated ⟨0, some 1⟩
          rendered := .authenticated ⟨0, some 1⟩ }
      refreshToken := some "r"
      restore := some .over }

theorem onlineProcess_starts : OnlineStarts onlineProcess where
  session := nofun
  rendered := nofun
  processing := rfl
  idle := ⟨rfl, rfl⟩
  ids _ hm := absurd hm List.not_mem_nil
  order := List.Pairwise.nil
  noneStranded _ _ hm := absurd hm List.not_mem_nil

theorem none_stranded_sample : NeverStrands (fun s a => Online s a ∧ Heard s a) onlineProcess :=
  none_stranded onlineProcess_starts

/-- The row of the second hook is inserted after the snapshot of the first one's call, and its own
call is dropped: no run, hook or timer is left, and the hook resolves. -/
theorem lost_wakeup : OnlineStarts onlineProcess ∧ ¬ NeverStrands Online onlineProcess ∧
    ∃ s, Reach process Online onlineProcess s ∧ s.calls = [] ∧ s.device.phone.hooks = [] ∧
      s.device.phone.timers = [] ∧ ¬ s.Attempted 2 ∧
        s.device.phone.listPendingMutations.map QueuedMutation.id = [2] ∧
          s.device.phone.assertMutationSucceeded 2 = .ok () := by
  let save (key : String) : ProcessAction :=
    .device (.app (.enqueueMutation ⟨.post, "/products", some "{}", none⟩ key true))
  have hrun : ((exec process (fun _ a => a.online) onlineProcess
      ([save "a", .queue (.hook 0), save "b"] ++ [.proceed 0, .proceed 0, .hook 0,
        .settle 0 (some ⟨201, none⟩), .receive 0, .proceed 0].map ProcessAction.queue)).map fun s =>
      (s.calls.isEmpty && s.device.phone.hooks.isEmpty && s.device.phone.timers.isEmpty &&
        s.hookRows.isEmpty && !s.events.any (QueueEvent.sends 2) &&
        (s.device.phone.assertMutationSucceeded 2).isOk,
        s.device.phone.listPendingMutations.map QueuedMutation.id)) =
      some (true, [2]) := by decide +kernel
  obtain ⟨s, hs, hend⟩ := Option.map_eq_some_iff.1 hrun
  have hreach : Reach process Online onlineProcess s :=
    Reach.of_exec _ (fun _ _ honline => honline) _ hs
  simp only [Prod.mk.injEq, Bool.and_eq_true, List.isEmpty_iff, Bool.not_eq_true'] at hend
  obtain ⟨⟨⟨⟨⟨⟨hcalls, hhooks⟩, htimers⟩, hrows⟩, hsent⟩, hok⟩, hpending⟩ := hend
  have hnever : ¬ s.Attempted 2 := by
    intro hattempted
    have hany : s.events.any (QueueEvent.sends 2) = true := List.any_eq_true.2 ⟨_, hattempted, rfl⟩
    rw [hsent] at hany
    cases hany
  have hresolves : s.device.phone.assertMutationSucceeded 2 = .ok () := by
    cases hresult : s.device.phone.assertMutationSucceeded 2 with
    | error message =>
      rw [hresult] at hok
      cases hok
    | ok => rfl
  refine ⟨onlineProcess_starts, fun hnone => ?_,
    s, hreach, hcalls, hhooks, htimers, hnever, hpending, hresolves⟩
  have hids : ∀ m ∈ s.device.phone.listPendingMutations, m.id = 2 := by
    intro m hm
    have hmem := List.mem_map_of_mem (f := QueuedMutation.id) hm
    rw [hpending] at hmem
    exact List.mem_singleton.1 hmem
  have hrow : 2 ∈ s.device.phone.listPendingMutations.map QueuedMutation.id := by
    rw [hpending]
    exact List.mem_singleton.2 rfl
  obtain ⟨m, hm, hid⟩ := List.mem_map.1 hrow
  rcases hnone s hreach hcalls m hm with hhook | hattempted | ⟨b, hb, hlt, -⟩
  · rw [hrows] at hhook
    cases hhook
  · exact hnever (hid ▸ hattempted)
  · have hbid := hids b hb
    omega

end Gescom.Mobile
