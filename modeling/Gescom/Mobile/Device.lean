import Gescom.Mobile.Sessions

/-!
# A device: cold starts and kills (`auth-context.tsx`)

SQLite and SecureStore survive a kill of the application, the rest of a `Phone` does not. At a start
`AuthProvider` runs `restoreSession`, and the screens wait for it.

| here | there |
| --- | --- |
| `Restore`, `Device.storage` | `restoreSession` (`auth-context.tsx:67`) between two requests |
| `Device.refreshAnswered` | the answer to `/auth/refresh`, `postAuth` (`:26`) |
| `Device.meAnswered` | the answer to `/auth/me`, `establishSession` (`:49`) |
-/

namespace Gescom.Mobile

open Transition

/-- What `restoreSession` purges the store after. -/
inductive PurgeCause where
  /-- No refresh token is stored. -/
  | noToken
  /-- The answer to `/auth/refresh` is not 2xx. -/
  | refresh (status : Nat)
  /-- The `catch`: something has thrown. -/
  | thrown
  deriving DecidableEq, Repr

/-- Where `restoreSession` waits. -/
inductive Restore where
  | reading
  /-- On the answer to `/auth/refresh`. -/
  | refreshing
  | storing (refreshToken : String)
  /-- On the answer to `/auth/me`. -/
  | fetching
  | purging (cause : PurgeCause)
  | clearing
  | over
  deriving DecidableEq, Repr

structure Device where
  phone : Phone
  /-- In SecureStore. -/
  refreshToken : Option String
  /-- `none`: the application does not run. -/
  restore : Option Restore

inductive DeviceAction where
  | start
  | kill
  | app (a : Action)
  /-- A login or an MFA challenge is answered 2xx: `establishSession` stores the token. -/
  | storeRefreshToken (refreshToken : String)
  /-- A login or an MFA challenge throws. -/
  | loginFailed
  /-- `restoreSession` goes on. -/
  | storage
  /-- `none`: `fetch` throws. The token is in the body, if that is JSON. -/
  | refreshAnswered (reply : Option Response) (refreshToken : Option String)
  /-- The session takes its user from the body, if that is JSON. -/
  | meAnswered (reply : Option Response) (session : Option AccessToken)

/-- What is left of the application in memory. -/
def Phone.kill (phone : Phone) : Phone :=
  { phone with
    processing := none
    hooks := []
    timers := []
    session := .unauthenticated
    rendered := .unauthenticated
    loggingIn := 0
    loggingOut := 0
    purged := 0 }

/-- `clearStoredRefreshToken` and `setSession` are the end of a `logout`. -/
def Device.app (d : Device) (a : Action) : Option Device :=
  (d.phone.step a).map fun phone =>
    { d with
      phone
      refreshToken := match a with
        | .setUnauthenticated => none
        | _ => d.refreshToken }

def Device.storage (d : Device) : Option Device :=
  match d.restore with
  | some .reading =>
    match d.refreshToken with
    | none => some { d with restore := some (.purging .noToken) }
    | some _ => some { d with restore := some .refreshing }
  | some (.storing refreshToken) =>
    some { d with refreshToken := some refreshToken, restore := some .fetching }
  | some (.purging cause) =>
    some { d with
      phone := d.phone.purgeTenantScoped
      restore := some (if cause = .noToken then .over else .clearing) }
  | some .clearing => some { d with refreshToken := none, restore := some .over }
  | _ => none

def Device.refreshAnswered (reply : Option Response) (refreshToken : Option String) (d : Device) :
    Device :=
  match reply with
  | none => { d with restore := some (.purging .thrown) }
  | some r =>
    if r.ok then
      match refreshToken with
      | none => { d with restore := some (.purging .thrown) }
      | some refreshToken => { d with restore := some (.storing refreshToken) }
    else { d with restore := some (.purging (.refresh r.status)) }

def Device.meAnswered (reply : Option Response) (session : Option AccessToken) (d : Device) :
    Device :=
  match reply with
  | none => { d with restore := some (.purging .thrown) }
  | some r =>
    if r.ok then
      match session with
      | none => { d with restore := some (.purging .thrown) }
      | some accessToken =>
        { d with
          phone := { d.phone with session := .authenticated accessToken }
          restore := some .over }
    else { d with restore := some (.purging .thrown) }

def Device.step (d : Device) : DeviceAction → Option Device
  | .start => if d.restore = none then some { d with restore := some .reading } else none
  | .kill => if d.restore = none then none else some { d with phone := d.phone.kill, restore := none }
  -- a spinner stands for the screens until the session is known
  | .app a => if d.restore = some .over then d.app a else none
  | .storeRefreshToken refreshToken =>
    if d.restore = some .over ∧ 0 < d.phone.loggingIn then
      some { d with refreshToken := some refreshToken }
    else none
  | .loginFailed =>
    if d.restore = some .over ∧ 0 < d.phone.loggingIn then
      some { d with phone := { d.phone with loggingIn := d.phone.loggingIn - 1 } }
    else none
  | .storage => d.storage
  | .refreshAnswered reply refreshToken =>
    if d.restore = some .refreshing then some (d.refreshAnswered reply refreshToken) else none
  | .meAnswered reply session =>
    if d.restore = some .fetching then some (d.meAnswered reply session) else none

def device : System Device DeviceAction := ⟨Device.step⟩

/-- The application does not run; whatever is queued and stored. -/
structure DeviceStarts (d : Device) : Prop where
  restore : d.restore = none
  processing : d.phone.processing = none
  ids : ∀ m ∈ d.phone.queue.rows, m.id < d.phone.nextId

/-! ## What a step does to the queue -/

/-- `a` is sent as `b` is. -/
def SameMutation (a b : QueuedMutation) : Prop := a.id = b.id ∧ ∀ t, a.request t = b.request t

theorem SameMutation.refl (m : QueuedMutation) : SameMutation m m := ⟨rfl, fun _ => rfl⟩

variable {phone phone' : Phone} {deps : ProcessQueueDeps} {r : Run} {m : QueuedMutation}
  {rest : List QueuedMutation} {d d' : Device}

/-- A run holds what it held, or rows. -/
def Phone.HoldsOn (phone phone' : Phone) : Prop :=
  ∀ deps r', phone'.processing = some (deps, r') → ∀ m ∈ r'.held,
    m ∈ phone.queue.rows ∨ ∃ deps r, phone.processing = some (deps, r) ∧ m ∈ r.held

/-- Rows are rewritten or deleted. -/
structure Phone.Carries (phone phone' : Phone) : Prop where
  nextId : phone'.nextId = phone.nextId
  rows : ∀ row' ∈ phone'.queue.rows, ∃ row ∈ phone.queue.rows, SameMutation row row'
  run : phone.HoldsOn phone'

/-- A step takes no row away, or one for a reason. -/
inductive Phone.Change (phone : Phone) : Action → Phone → Prop
  | kept {a : Action} {phone' : Phone} (carries : phone.Carries phone')
      (rows : ∀ row ∈ phone.queue.rows, ∃ row' ∈ phone'.queue.rows, row'.id = row.id) :
      Change phone a phone'
  | inserted {input : EnqueueMutationInput} {isOnline : Bool} {phone' : Phone}
      (m : QueuedMutation) (id : m.id = phone.nextId)
      (nextId : phone'.nextId = phone.nextId + 1) (queue : phone'.queue = phone.queue.insert m)
      (run : phone'.processing = phone.processing) :
      Change phone (.enqueueMutation input m.idempotencyKey isOnline) phone'
  | done {deps : ProcessQueueDeps} {m : QueuedMutation} {rest : List QueuedMutation} (r : Response)
      (run : phone.processing = some (deps, .waiting m rest)) (ok : r.ok = true) :
      Change phone (.respond (some r))
        { phone.markMutationDone m.id with processing := some (deps, .next rest) }
  | purged (called : 0 < phone.loggingOut) : Change phone .purgeOfflineStore phone.purge

theorem change_rewrite {a : Action} {id : Nat} {f : QueuedMutation → QueuedMutation}
    (hqueue : phone'.queue.rows = phone.queue.rows.map fun row => if row.id == id then f row else row)
    (hnext : phone'.nextId = phone.nextId) (hf : ∀ m, SameMutation m (f m))
    (hrun : phone.HoldsOn phone') : phone.Change a phone' := by
  refine .kept ⟨hnext, fun row' hrow' => ?_, hrun⟩ fun row hrow => ?_
  · rcases mem_rewritten (hqueue ▸ hrow') with hold | ⟨row, hrow, -, rfl⟩
    · exact ⟨row', hold, .refl row'⟩
    · exact ⟨row, hrow, hf row⟩
  · refine ⟨_, hqueue ▸ List.mem_map_of_mem hrow, ?_⟩
    split
    · exact (hf row).1.symm
    · rfl

theorem change_none {a : Action} (hqueue : phone'.queue = phone.queue)
    (hnext : phone'.nextId = phone.nextId)
    (hrun : ∀ deps r', phone'.processing = some (deps, r') → ∀ m ∈ r'.held,
      m ∈ phone.queue.rows ∨ ∃ deps r, phone.processing = some (deps, r) ∧ m ∈ r.held) :
    phone.Change a phone' := by
  refine .kept ⟨hnext, fun row hrow => ⟨row, hqueue ▸ hrow, .refl row⟩, hrun⟩ fun row hrow => ?_
  exact ⟨row, hqueue ▸ hrow, rfl⟩

theorem processQueue_change {a : Action} (hqueue : phone'.queue = phone.queue)
    (hnext : phone'.nextId = phone.nextId) (hrun : phone'.processing = phone.processing) :
    phone.Change a (phone'.processQueue deps) := by
  unfold Phone.processQueue
  split
  · refine change_none hqueue hnext fun deps r hr m hm => .inr ⟨deps, r, hrun ▸ hr, hm⟩
  · refine change_none hqueue hnext ?_
    rintro _ _ ⟨⟩ m hm
    exact .inl (hqueue ▸ (mem_pending.1 hm).1)

/-- A run that goes on holds a part of what it held. -/
theorem held_of_sublist (r' : Run) (hrun : phone.processing = some (deps, r))
    (hsub : r'.held ⊆ r.held) (hrun' : phone'.processing = some (deps, r')) :
    phone.HoldsOn phone' := by
  intro deps₁ r₁ hr₁ m hm
  cases hrun'.symm.trans hr₁
  exact .inr ⟨deps, r, hrun, hsub hm⟩

theorem held_of_end (hrun' : phone'.processing = none) : phone.HoldsOn phone' := by
  intro deps r hr
  cases hrun'.symm.trans hr

theorem proceed_change (hst : phone.proceed = some phone') : phone.Change .proceed phone' := by
  unfold Phone.proceed at hst
  split at hst
  · cases hst
  · cases hst
    exact change_none rfl rfl (held_of_end rfl)
  · rename_i m rest hrun
    split at hst
    · cases hst
      exact change_none rfl rfl (held_of_end rfl)
    · rename_i t ht
      cases hst
      exact change_rewrite rfl rfl (fun _ => ⟨rfl, fun _ => rfl⟩)
        (held_of_sublist (.marking m t rest) hrun (List.Subset.refl _) rfl)
  · rename_i m t rest hrun
    cases hst
    exact change_none rfl rfl (held_of_sublist (.waiting m rest) hrun (List.Subset.refl _) rfl)
  · cases hst
  · rename_i m r rest hrun
    cases hst
    exact change_rewrite rfl rfl (fun _ => ⟨rfl, fun _ => rfl⟩)
      (held_of_sublist (.next rest) hrun (List.subset_cons_self ..) rfl)
  · cases hst
    exact change_none rfl rfl (held_of_end rfl)

theorem receive_change {reply : Option Response} (hst : phone.receive reply = some phone') :
    phone.Change (.respond reply) phone' := by
  unfold Phone.receive at hst
  split at hst
  · rename_i deps m rest hrun
    cases reply with
    | none =>
      cases hst
      exact change_rewrite rfl rfl (fun _ => ⟨rfl, fun _ => rfl⟩)
        (held_of_sublist (.stopping false) hrun (List.nil_subset _) rfl)
    | some r =>
      simp only at hst
      split_ifs at hst with hok <;> cases hst
      · exact .done r hrun hok
      · exact change_rewrite rfl rfl (fun _ => ⟨rfl, fun _ => rfl⟩)
          (held_of_sublist (.stopping false) hrun (List.nil_subset _) rfl)
      · exact change_rewrite rfl rfl (fun _ => ⟨rfl, fun _ => rfl⟩)
          (held_of_sublist (.next rest) hrun (List.subset_cons_self ..) rfl)
      · exact change_rewrite rfl rfl (fun _ => ⟨rfl, fun _ => rfl⟩)
          (held_of_sublist (.stopping true) hrun (List.nil_subset _) rfl)
      · exact change_none rfl rfl
          (held_of_sublist (.rejected m r rest) hrun (List.Subset.refl _) rfl)
  · cases hst

theorem step_change {a : Action} (hst : phone.step a = some phone') : phone.Change a phone' := by
  have hsame : ∀ deps r, phone.processing = some (deps, r) → ∀ m ∈ r.held,
      m ∈ phone.queue.rows ∨ ∃ deps r, phone.processing = some (deps, r) ∧ m ∈ r.held :=
    fun deps r hr m hm => .inr ⟨deps, r, hr, hm⟩
  cases a with
  | proceed => exact proceed_change hst
  | respond reply => exact receive_change hst
  | enqueueMutation input key isOnline =>
    obtain ⟨t, -, rfl⟩ := Option.map_eq_some_iff.1 hst
    unfold Phone.enqueueMutation
    split
    · exact .inserted
        { id := phone.nextId, method := input.method, path := input.path, body := input.body,
          scope := input.scope.getD .tenant, idempotencyKey := key, author := t } rfl rfl rfl rfl
    · exact change_none rfl rfl hsame
  | purgeOfflineStore =>
    simp only [Phone.step] at hst
    split at hst <;> cases hst
    rename_i hcalled
    exact .purged hcalled
  | hook i =>
    obtain ⟨t, -, rfl⟩ := Option.map_eq_some_iff.1 hst
    exact processQueue_change rfl rfl rfl
  | timer i =>
    obtain ⟨t, -, rfl⟩ := Option.map_eq_some_iff.1 hst
    exact processQueue_change rfl rfl rfl
  | syncEngine =>
    simp only [Phone.step] at hst
    split at hst <;> cases hst
    exact processQueue_change rfl rfl rfl
  | login | establishSession | logout | setUnauthenticated | render =>
    simp only [Phone.step] at hst
    first
      | cases hst; exact change_none rfl rfl hsame
      | split at hst <;> cases hst; exact change_none rfl rfl hsame

/-- The run waits for a response. -/
def Run.waits : Run → Bool
  | waiting .. => true
  | _ => false

/-- A run that waits has waited before. -/
def Phone.WaitsOn (phone phone' : Phone) : Prop :=
  ∀ deps m rest, phone'.processing = some (deps, .waiting m rest) →
    phone.processing = some (deps, .waiting m rest)

theorem waitsOn_of_run (r : Run) (hrun : phone'.processing = some (deps, r))
    (hr : r.waits = false) : phone.WaitsOn phone' := by
  intro deps' m rest hwaiting
  cases hrun.symm.trans hwaiting
  cases hr

theorem waitsOn_of_end (hrun : phone'.processing = none) : phone.WaitsOn phone' := by
  intro deps m rest hwaiting
  cases hrun.symm.trans hwaiting

theorem processQueue_frame (deps : ProcessQueueDeps) (phone : Phone) :
    (phone.processQueue deps).requests = phone.requests ∧
      phone.WaitsOn (phone.processQueue deps) := by
  unfold Phone.processQueue
  split
  · exact ⟨rfl, fun _ _ _ h => h⟩
  · exact ⟨rfl, waitsOn_of_run (.next _) rfl rfl⟩

theorem enqueueMutation_frame (input : EnqueueMutationInput) (key : String) (t : AccessToken)
    (phone : Phone) : (phone.enqueueMutation input key t).requests = phone.requests ∧
      (phone.enqueueMutation input key t).processing = phone.processing := by
  unfold Phone.enqueueMutation
  split <;> exact ⟨rfl, rfl⟩

theorem receive_requests {reply : Option Response} (hst : phone.receive reply = some phone') :
    phone'.requests = phone.requests ∧ phone.WaitsOn phone' := by
  unfold Phone.receive at hst
  split at hst
  · rename_i deps m rest hrun
    cases reply with
    | none =>
      cases hst
      exact ⟨rfl, waitsOn_of_run _ rfl rfl⟩
    | some r =>
      simp only at hst
      split_ifs at hst <;> cases hst
      · exact ⟨rfl, waitsOn_of_run _ rfl rfl⟩
      · exact ⟨rfl, waitsOn_of_run _ rfl rfl⟩
      · exact ⟨rfl, waitsOn_of_run _ rfl rfl⟩
      · exact ⟨rfl, waitsOn_of_run _ rfl rfl⟩
      · exact ⟨rfl, waitsOn_of_run _ rfl rfl⟩
  · cases hst

/-- A request is sent where `marking` becomes `waiting`, and nowhere else. -/
theorem step_requests {a : Action} (hst : phone.step a = some phone') :
    (phone'.requests = phone.requests ∧ phone.WaitsOn phone') ∨
      ∃ deps m t rest, phone.processing = some (deps, .marking m t rest) ∧
        phone'.requests = phone.requests ++ [m.request t] ∧
        phone'.processing = some (deps, .waiting m rest) := by
  cases a with
  | proceed =>
    simp only [Phone.step, Phone.proceed] at hst
    split at hst
    · cases hst
    · cases hst
      exact .inl ⟨rfl, waitsOn_of_end rfl⟩
    · split at hst <;> cases hst
      · exact .inl ⟨rfl, waitsOn_of_end rfl⟩
      · exact .inl ⟨rfl, waitsOn_of_run _ rfl rfl⟩
    · rename_i deps m t rest hrun
      cases hst
      exact .inr ⟨deps, m, t, rest, hrun, rfl, rfl⟩
    · cases hst
    · cases hst
      exact .inl ⟨rfl, waitsOn_of_run _ rfl rfl⟩
    · cases hst
      exact .inl ⟨rfl, waitsOn_of_end rfl⟩
  | respond reply => exact .inl (receive_requests hst)
  | hook i =>
    obtain ⟨t, -, rfl⟩ := Option.map_eq_some_iff.1 hst
    exact .inl (processQueue_frame _ { phone with hooks := phone.hooks.eraseIdx i })
  | timer i =>
    obtain ⟨t, -, rfl⟩ := Option.map_eq_some_iff.1 hst
    exact .inl (processQueue_frame _ { phone with timers := phone.timers.eraseIdx i })
  | syncEngine =>
    simp only [Phone.step] at hst
    split at hst <;> cases hst
    exact .inl (processQueue_frame _ phone)
  | enqueueMutation input key isOnline =>
    obtain ⟨t, -, rfl⟩ := Option.map_eq_some_iff.1 hst
    obtain ⟨hrequests, hrun⟩ := enqueueMutation_frame input key t phone
    exact .inl ⟨hrequests, fun _ _ _ h => hrun ▸ h⟩
  | login | establishSession | logout | purgeOfflineStore | setUnauthenticated | render =>
    simp only [Phone.step] at hst
    first
      | cases hst; exact .inl ⟨rfl, fun _ _ _ h => h⟩
      | split at hst <;> cases hst; exact .inl ⟨rfl, fun _ _ _ h => h⟩

/-! ## Rows and snapshots -/

/-- Identifiers are not used again, and what a run holds of a row is the row. -/
structure QueueOk (phone : Phone) : Prop where
  ids : ∀ m ∈ phone.queue.rows, m.id < phone.nextId
  held : ∀ deps r, phone.processing = some (deps, r) → ∀ m ∈ r.held, m.id < phone.nextId ∧
    ∀ row ∈ phone.queue.rows, row.id = m.id → SameMutation row m

theorem DeviceStarts.queueOk (h : DeviceStarts d) : QueueOk d.phone := by
  refine ⟨h.ids, fun deps r hr => ?_⟩
  rw [h.processing] at hr
  cases hr

theorem QueueOk.carries (h : QueueOk phone) (hc : phone.Carries phone') : QueueOk phone' where
  ids row' hrow' := by
    obtain ⟨row, hrow, hid, -⟩ := hc.rows row' hrow'
    rw [hc.nextId, ← hid]
    exact h.ids row hrow
  held deps r' hr' m hm := by
    have hheld : m.id < phone.nextId ∧
        ∀ row ∈ phone.queue.rows, row.id = m.id → SameMutation row m := by
      rcases hc.run deps r' hr' m hm with hrow | ⟨deps, r, hr, hold⟩
      · refine ⟨h.ids m hrow, fun row hmem hid => ?_⟩
        rw [List.inj_on_of_nodup_map phone.queue.nodup hmem hrow hid]
        exact .refl m
      · exact h.held deps r hr m hold
    refine ⟨by rw [hc.nextId]; exact hheld.1, fun row' hrow' hid => ?_⟩
    obtain ⟨row, hrow, hsame, hrequest⟩ := hc.rows row' hrow'
    obtain ⟨-, hheldRequest⟩ := hheld.2 row hrow (hsame.trans hid)
    exact ⟨hid, fun t => (hrequest t).symm.trans (hheldRequest t)⟩

theorem carries_delete {p : QueuedMutation → Bool}
    (hqueue : phone'.queue = phone.queue.deleteWhere p) (hnext : phone'.nextId = phone.nextId)
    (hrun : ∀ deps r', phone'.processing = some (deps, r') → ∀ m ∈ r'.held,
      m ∈ phone.queue.rows ∨ ∃ deps r, phone.processing = some (deps, r) ∧ m ∈ r.held) :
    phone.Carries phone' := by
  refine ⟨hnext, fun row hrow => ?_, hrun⟩
  rw [hqueue] at hrow
  exact ⟨row, List.mem_of_mem_filter hrow, .refl row⟩

/-- A step of the application inserts a row or none. -/
theorem Phone.Change.inserts {a : Action} (hc : phone.Change a phone') : phone.Carries phone' ∨
    ∃ m input isOnline, a = .enqueueMutation input m.idempotencyKey isOnline ∧
      m.id = phone.nextId ∧ phone'.nextId = phone.nextId + 1 ∧
      phone'.queue = phone.queue.insert m ∧ phone'.processing = phone.processing := by
  cases hc with
  | kept hcarries _ => exact .inl hcarries
  | inserted m hid hnext hqueue hrun => exact .inr ⟨m, _, _, rfl, hid, hnext, hqueue, hrun⟩
  | done r hrun hok =>
    exact .inl (carries_delete rfl rfl
      (held_of_sublist (.next _) hrun (List.subset_cons_self ..) rfl))
  | purged hcalled => exact .inl (carries_delete rfl rfl fun deps r hr m hm => .inr ⟨deps, r, hr, hm⟩)

theorem QueueOk.change {a : Action} (h : QueueOk phone) (hc : phone.Change a phone') :
    QueueOk phone' := by
  rcases hc.inserts with hcarries | ⟨m, -, -, -, hid, hnext, hqueue, hrun⟩
  · exact h.carries hcarries
  · refine ⟨fun row hrow => ?_, fun deps r hr x hx => ?_⟩
    · rw [hnext]
      rcases Table.mem_insert (hqueue ▸ hrow) with hold | rfl
      · have hlt := h.ids row hold
        omega
      · omega
    · obtain ⟨hlt, hsame⟩ := h.held deps r (hrun ▸ hr) x hx
      refine ⟨by omega, fun row hrow hrowId => ?_⟩
      rcases Table.mem_insert (hqueue ▸ hrow) with hold | rfl
      · exact hsame row hold hrowId
      · omega

/-! ## Steps of a device -/

/-- Steps that leave rows and runs alone, or end the run. -/
theorem carries_frame (hqueue : phone'.queue = phone.queue) (hnext : phone'.nextId = phone.nextId)
    (hrun : phone'.processing = phone.processing ∨ phone'.processing = none) :
    phone.Carries phone' := by
  refine ⟨hnext, fun row hrow => ⟨row, hqueue ▸ hrow, .refl row⟩, fun deps r hr m hm => ?_⟩
  rcases hrun with hsame | hnone
  · exact .inr ⟨deps, r, hsame ▸ hr, hm⟩
  · cases hnone.symm.trans hr

theorem Device.app_eq_some {a : Action} (hst : d.app a = some d') :
    d.phone.step a = some d'.phone ∧ d'.restore = d.restore := by
  obtain ⟨phone, hphone, rfl⟩ := Option.map_eq_some_iff.1 hst
  exact ⟨hphone, rfl⟩

theorem refreshAnswered_phone (reply : Option Response) (refreshToken : Option String) :
    (d.refreshAnswered reply refreshToken).phone = d.phone := by
  unfold Device.refreshAnswered
  repeat' split
  all_goals rfl

theorem meAnswered_queue (reply : Option Response) (session : Option AccessToken) :
    (d.meAnswered reply session).phone.queue = d.phone.queue ∧
      (d.meAnswered reply session).phone.nextId = d.phone.nextId ∧
      (d.meAnswered reply session).phone.processing = d.phone.processing ∧
      (d.meAnswered reply session).phone.requests = d.phone.requests := by
  unfold Device.meAnswered
  repeat' split
  all_goals exact ⟨rfl, rfl, rfl, rfl⟩

/-- A step of the application, or one that leaves rows and runs alone, purges, or ends the run. -/
theorem step_phone {a : DeviceAction} (hst : d.step a = some d') :
    (∃ b, a = .app b ∧ d.phone.step b = some d'.phone) ∨
      (d.phone.Carries d'.phone ∧ d'.phone.requests = d.phone.requests ∧
        (d'.phone.processing = d.phone.processing ∨ d'.phone.processing = none)) := by
  have hsame : d'.phone = d.phone → d.phone.Carries d'.phone ∧
      d'.phone.requests = d.phone.requests ∧
        (d'.phone.processing = d.phone.processing ∨ d'.phone.processing = none) := by
    intro h
    rw [h]
    exact ⟨carries_frame rfl rfl (.inl rfl), rfl, .inl rfl⟩
  cases a with
  | app b =>
    simp only [Device.step] at hst
    split at hst
    · exact .inl ⟨b, rfl, (Device.app_eq_some hst).1⟩
    · cases hst
  | storage =>
    simp only [Device.step, Device.storage] at hst
    split at hst
    · split at hst <;> cases hst <;> exact .inr (hsame rfl)
    · cases hst
      exact .inr (hsame rfl)
    · cases hst
      refine .inr ⟨carries_delete rfl rfl fun deps r hr m hm => .inr ⟨deps, r, hr, hm⟩, rfl, .inl rfl⟩
    · cases hst
      exact .inr (hsame rfl)
    · cases hst
  | kill =>
    simp only [Device.step] at hst
    split at hst <;> cases hst
    exact .inr ⟨carries_frame rfl rfl (.inr rfl), rfl, .inr rfl⟩
  | loginFailed =>
    simp only [Device.step] at hst
    split at hst <;> cases hst
    exact .inr ⟨carries_frame rfl rfl (.inl rfl), rfl, .inl rfl⟩
  | refreshAnswered reply refreshToken =>
    simp only [Device.step] at hst
    split at hst <;> cases hst
    exact .inr (hsame (refreshAnswered_phone reply refreshToken))
  | meAnswered reply session =>
    simp only [Device.step] at hst
    split at hst <;> cases hst
    obtain ⟨hqueue, hnext, hrun, hrequests⟩ := meAnswered_queue (d := d) reply session
    exact .inr ⟨carries_frame hqueue hnext (.inl hrun), hrequests, .inl hrun⟩
  | start | storeRefreshToken =>
    simp only [Device.step] at hst
    split at hst <;> cases hst
    exact .inr (hsame rfl)

theorem QueueOk.step {a : DeviceAction} (h : QueueOk d.phone) (hst : d.step a = some d') :
    QueueOk d'.phone := by
  rcases step_phone hst with ⟨b, -, hphone⟩ | ⟨hcarries, -, -⟩
  · exact h.change (step_change hphone)
  · exact h.carries hcarries

end Gescom.Mobile
