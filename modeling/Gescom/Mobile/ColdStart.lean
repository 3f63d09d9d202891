import Gescom.Mobile.Device

/-!
# Queued mutations and cold starts

`restoreSession` purges the store on every way out but one: whatever the answer to `/auth/refresh`,
unless it is 2xx, and in its `catch`, where a network that is down ends too. `queue_survives` gives
the runs that lose no mutation silently: those in which no start with a stored token goes unanswered
while mutations wait. `offline_start` is one of the others.
-/

namespace Gescom.Mobile

open Transition

/-! ## What must hold -/

/-- The server refuses the session. -/
def Refusal (status : Nat) : Prop := 400 ≤ status ∧ status < 500 ∧ status ≠ 429

instance (status : Nat) : Decidable (Refusal status) :=
  inferInstanceAs (Decidable (400 ≤ status ∧ status < 500 ∧ status ≠ 429))

/-- Why row `m` may leave the table. -/
inductive Leaves (d : Device) (m : QueuedMutation) : DeviceAction → Prop
  /-- Its own request is answered 2xx. -/
  | sent {deps : ProcessQueueDeps} {m' : QueuedMutation} {rest : List QueuedMutation} {r : Response}
      (run : d.phone.processing = some (deps, .waiting m' rest)) (own : SameMutation m m')
      (ok : r.ok = true) : Leaves d m (.app (.respond (some r)))
  /-- The user has called `logout`. -/
  | loggedOut (called : 0 < d.phone.loggingOut) : Leaves d m (.app .purgeOfflineStore)
  | refused {status : Nat} (restore : d.restore = some (.purging (.refresh status)))
      (refusal : Refusal status) : Leaves d m .storage
  /-- No refresh token was stored at the start. -/
  | noToken (restore : d.restore = some (.purging .noToken)) : Leaves d m .storage

/-- In the runs whose steps meet `K` a row only leaves the table for these reasons. -/
def NoSilentLoss (K : Device → DeviceAction → Prop) (d₀ : Device) : Prop :=
  ∀ d a d' m, Reach device K d₀ d → K d a → d.step a = some d' → m ∈ d.phone.queue.rows →
    (∀ m' ∈ d'.phone.queue.rows, m'.id ≠ m.id) → Leaves d m a

/-- No mutation of a tenant waits. -/
def Device.NoneQueued (d : Device) : Prop := ∀ m ∈ d.phone.queue.rows, m.scope = .auth

/-- While mutations wait, `/auth/refresh` answers 2xx or refuses, and `/auth/me` answers 2xx, each
with a body that can be read. -/
def Answered (d : Device) : DeviceAction → Prop
  | .refreshAnswered reply refreshToken => d.NoneQueued ∨
      ∃ r, reply = some r ∧ (r.ok = true ∧ refreshToken.isSome = true ∨ Refusal r.status)
  | .meAnswered reply session => d.NoneQueued ∨
      ∃ r, reply = some r ∧ r.ok = true ∧ session.isSome = true
  | _ => True

/-- `lost`: an answer outside the condition is followed by the loss of a mutation. -/
structure QueueSurvives (d₀ : Device) : Prop where
  kept : NoSilentLoss Answered d₀
  lost : ∀ d a d', Reach device Always d₀ d → ¬ Answered d a → d.step a = some d' →
    ∃ d'' m, d'.step .storage = some d'' ∧ m ∈ d'.phone.queue.rows ∧
      (∀ m' ∈ d''.phone.queue.rows, m'.id ≠ m.id) ∧ ¬ Leaves d' m .storage

/-! ## The invariant -/

/-- The purges a row may leave for. -/
def PurgeCause.Allowed : PurgeCause → Prop
  | noToken => True
  | refresh status => Refusal status
  | thrown => False

/-- What holds after every step that meets the condition. -/
structure DeviceOk (d : Device) : Prop where
  queue : QueueOk d.phone
  purging : ∀ cause, d.restore = some (.purging cause) → cause.Allowed ∨ d.NoneQueued

variable {d d' d₀ : Device} {m : QueuedMutation} {phone phone' : Phone}

theorem DeviceStarts.ok (h : DeviceStarts d) : DeviceOk d where
  queue := h.queueOk
  purging cause hcause := by
    rw [h.restore] at hcause
    cases hcause

theorem refreshAnswered_purging {reply : Option Response} {refreshToken : Option String}
    {cause : PurgeCause}
    (h : (d.refreshAnswered reply refreshToken).restore = some (.purging cause)) :
    cause = .thrown ∧ (∀ r, reply = some r → r.ok = true ∧ refreshToken = none) ∨
      ∃ r, reply = some r ∧ r.ok = false ∧ cause = .refresh r.status := by
  unfold Device.refreshAnswered at h
  split at h
  · cases h
    exact .inl ⟨rfl, nofun⟩
  · rename_i r
    split at h
    · rename_i hok
      split at h
      · cases h
        refine .inl ⟨rfl, ?_⟩
        rintro r' ⟨⟩
        exact ⟨hok, rfl⟩
      · cases h
    · rename_i hok
      cases h
      exact .inr ⟨r, rfl, by simpa using hok, rfl⟩

theorem meAnswered_purging {reply : Option Response} {session : Option AccessToken}
    {cause : PurgeCause} (h : (d.meAnswered reply session).restore = some (.purging cause)) :
    cause = .thrown ∧ ∀ r, reply = some r → r.ok = true → session = none := by
  unfold Device.meAnswered at h
  split at h
  · cases h
    exact ⟨rfl, nofun⟩
  · rename_i r
    split at h
    · split at h
      · cases h
        exact ⟨rfl, fun _ _ _ => rfl⟩
      · cases h
    · rename_i hok
      cases h
      refine ⟨rfl, ?_⟩
      rintro r' ⟨⟩ hok'
      exact absurd hok' hok

/-- A refusal is not an answer 2xx. -/
theorem ok_eq_false_of_refusal {r : Response} (h : Refusal r.status) : r.ok = false := by
  obtain ⟨hlow, -, -⟩ := h
  simp only [Response.ok, Bool.and_eq_false_iff, decide_eq_false_iff_not]
  omega

theorem refreshAnswered_noneQueued (reply : Option Response) (refreshToken : Option String) :
    (d.refreshAnswered reply refreshToken).NoneQueued ↔ d.NoneQueued := by
  unfold Device.NoneQueued
  rw [refreshAnswered_phone]

theorem meAnswered_noneQueued (reply : Option Response) (session : Option AccessToken) :
    (d.meAnswered reply session).NoneQueued ↔ d.NoneQueued := by
  unfold Device.NoneQueued
  rw [(meAnswered_queue reply session).1]

theorem refreshAnswered_allowed {reply : Option Response} {refreshToken : Option String}
    (hK : Answered d (.refreshAnswered reply refreshToken)) {cause : PurgeCause}
    (hcause : (d.refreshAnswered reply refreshToken).restore = some (.purging cause)) :
    cause.Allowed ∨ (d.refreshAnswered reply refreshToken).NoneQueued := by
  rcases hK with hnone | ⟨r, rfl, hanswer⟩
  · exact .inr ((refreshAnswered_noneQueued ..).2 hnone)
  · rcases refreshAnswered_purging hcause with ⟨rfl, hthrown⟩ | ⟨r', hr', hnot, rfl⟩
    · obtain ⟨hok, rfl⟩ := hthrown r rfl
      rcases hanswer with ⟨-, hsome⟩ | hrefusal
      · cases hsome
      · rw [ok_eq_false_of_refusal hrefusal] at hok
        cases hok
    · cases hr'
      rcases hanswer with ⟨hok, -⟩ | hrefusal
      · rw [hnot] at hok
        cases hok
      · exact .inl hrefusal

theorem meAnswered_allowed {reply : Option Response} {session : Option AccessToken}
    (hK : Answered d (.meAnswered reply session)) {cause : PurgeCause}
    (hcause : (d.meAnswered reply session).restore = some (.purging cause)) :
    cause.Allowed ∨ (d.meAnswered reply session).NoneQueued := by
  obtain ⟨-, hthrown⟩ := meAnswered_purging hcause
  rcases hK with hnone | ⟨r, rfl, hok, hsome⟩
  · exact .inr ((meAnswered_noneQueued ..).2 hnone)
  · rw [hthrown r rfl hok] at hsome
    cases hsome

/-- A purge is entered for a reason, or with nothing to lose. -/
theorem purging_step {a : DeviceAction} (h : DeviceOk d) (hK : Answered d a)
    (hst : d.step a = some d') {cause : PurgeCause} (hcause : d'.restore = some (.purging cause)) :
    cause.Allowed ∨ d'.NoneQueued := by
  cases a with
  | start | kill =>
    simp only [Device.step] at hst
    split at hst <;> cases hst
    cases hcause
  | app a =>
    simp only [Device.step] at hst
    split at hst
    · rename_i hover
      rw [(Device.app_eq_some hst).2, hover] at hcause
      cases hcause
    · cases hst
  | storeRefreshToken refreshToken | loginFailed =>
    simp only [Device.step] at hst
    split at hst <;> cases hst
    exact h.purging cause hcause
  | storage =>
    simp only [Device.step, Device.storage] at hst
    split at hst
    · split at hst <;> cases hst <;> cases hcause
      exact .inl trivial
    · cases hst
      cases hcause
    · cases hst
      simp only at hcause
      split at hcause <;> cases hcause
    · cases hst
      cases hcause
    · cases hst
  | refreshAnswered reply refreshToken =>
    simp only [Device.step] at hst
    split at hst <;> cases hst
    exact refreshAnswered_allowed hK hcause
  | meAnswered reply session =>
    simp only [Device.step] at hst
    split at hst <;> cases hst
    exact meAnswered_allowed hK hcause

theorem step_ok {a : DeviceAction} (h : DeviceOk d) (hK : Answered d a)
    (hst : d.step a = some d') : DeviceOk d' where
  queue := h.queue.step hst
  purging _ hcause := purging_step h hK hst hcause

/-! ## What leaves -/

theorem purgeTenantScoped_rows :
    (phone.purgeTenantScoped).queue.rows = phone.queue.rows.filter fun m => !(m.scope != .auth) :=
  rfl

/-- A row that a purge takes is of a tenant. -/
theorem scope_of_purged (hm : m ∈ phone.queue.rows)
    (hgone : ∀ m' ∈ phone.purgeTenantScoped.queue.rows, m'.id ≠ m.id) : m.scope ≠ .auth := by
  intro hscope
  refine hgone m ?_ rfl
  rw [purgeTenantScoped_rows, List.mem_filter]
  exact ⟨hm, by simp [hscope]⟩

/-- One step of an application takes a row away after its own 2xx, or for a `logout`. -/
theorem app_leaves {a : Action} (hq : QueueOk d.phone) (hst : d.phone.step a = some phone')
    (hm : m ∈ d.phone.queue.rows) (hgone : ∀ m' ∈ phone'.queue.rows, m'.id ≠ m.id) :
    Leaves d m (.app a) := by
  cases step_change hst with
  | kept _ hrows =>
    obtain ⟨m', hm', hid⟩ := hrows m hm
    exact absurd hid (hgone m' hm')
  | inserted x hid hnext hqueue _ =>
    have hkept : m ∈ phone'.queue.rows := by
      have hfound := Table.find?_insert_of_some (r := x) (Table.find?_of_mem hm)
      rw [hqueue]
      exact Table.mem_of_find? hfound
    exact absurd rfl (hgone m hkept)
  | done r hrun hok =>
    rename_i deps m' rest
    have hid : m.id = m'.id := by
      by_contra hne
      refine hgone m (List.mem_filter.2 ⟨hm, ?_⟩) rfl
      simpa using hne
    exact .sent hrun ((hq.held _ _ hrun m' List.mem_cons_self).2 m hm hid) hok
  | purged hcalled => exact .loggedOut hcalled

theorem step_leaves {a : DeviceAction} (h : DeviceOk d) (hst : d.step a = some d')
    (hm : m ∈ d.phone.queue.rows) (hgone : ∀ m' ∈ d'.phone.queue.rows, m'.id ≠ m.id) :
    Leaves d m a := by
  have hsame : d'.phone.queue = d.phone.queue → Leaves d m a := fun hqueue =>
    absurd rfl (hgone m (hqueue ▸ hm))
  cases a with
  | app a =>
    simp only [Device.step] at hst
    split at hst
    · obtain ⟨hphone, -⟩ := Device.app_eq_some hst
      exact app_leaves h.queue hphone hm hgone
    · cases hst
  | storage =>
    simp only [Device.step, Device.storage] at hst
    split at hst
    · split at hst <;> cases hst <;> exact hsame rfl
    · cases hst
      exact hsame rfl
    · rename_i cause hrestore
      cases hst
      rcases h.purging cause hrestore with hallowed | hnone
      · cases cause with
        | noToken => exact .noToken hrestore
        | refresh status => exact .refused hrestore hallowed
        | thrown => exact hallowed.elim
      · exact absurd (hnone m hm) (scope_of_purged hm hgone)
    · cases hst
      exact hsame rfl
    · cases hst
  | refreshAnswered reply refreshToken =>
    simp only [Device.step] at hst
    split at hst <;> cases hst
    exact hsame (congrArg Phone.queue (refreshAnswered_phone reply refreshToken))
  | meAnswered reply session =>
    simp only [Device.step] at hst
    split at hst <;> cases hst
    exact hsame (meAnswered_queue reply session).1
  | start | kill | storeRefreshToken | loginFailed =>
    simp only [Device.step] at hst
    split at hst <;> cases hst
    exact hsame rfl

/-! ## The result -/

/-- A purge that nothing allows takes the mutation that waits. -/
theorem purge_loses {cause : PurgeCause} (hrestore : d.restore = some (.purging cause))
    (hcause : ¬ cause.Allowed) (hqueued : ¬ d.NoneQueued) :
    ∃ d' m, d.step .storage = some d' ∧ m ∈ d.phone.queue.rows ∧
      (∀ m' ∈ d'.phone.queue.rows, m'.id ≠ m.id) ∧ ¬ Leaves d m .storage := by
  simp only [Device.NoneQueued, not_forall] at hqueued
  obtain ⟨m, hm, hscope⟩ := hqueued
  refine ⟨_, m, by simp only [Device.step, Device.storage, hrestore]; rfl, hm, ?_, ?_⟩
  · intro m' hm' hid
    obtain ⟨hmem, hauth⟩ := List.mem_filter.1 hm'
    obtain rfl := List.inj_on_of_nodup_map d.phone.queue.nodup hmem hm hid
    simp [hscope] at hauth
  · intro hleaves
    cases hleaves with
    | refused hstatus hrefusal =>
      cases hrestore.symm.trans hstatus
      exact hcause hrefusal
    | noToken hnone =>
      cases hrestore.symm.trans hnone
      exact hcause trivial

/-- Outside the condition an answer starts such a purge. -/
theorem refreshAnswered_unallowed {reply : Option Response} {refreshToken : Option String}
    (h : ¬ Answered d (.refreshAnswered reply refreshToken)) :
    ∃ cause, (d.refreshAnswered reply refreshToken).restore = some (.purging cause) ∧
      ¬ cause.Allowed ∧ ¬ (d.refreshAnswered reply refreshToken).NoneQueued := by
  rw [refreshAnswered_noneQueued]
  simp only [Answered, not_or, not_exists, not_and] at h
  obtain ⟨hqueued, hanswer⟩ := h
  cases reply with
  | none => exact ⟨.thrown, rfl, id, hqueued⟩
  | some r =>
    obtain ⟨htoken, hrefusal⟩ := hanswer r rfl
    cases hok : r.ok with
    | false => exact ⟨.refresh r.status, by simp [Device.refreshAnswered, hok], hrefusal, hqueued⟩
    | true =>
      have hnone : refreshToken = none := by simpa using htoken hok
      exact ⟨.thrown, by simp [Device.refreshAnswered, hok, hnone], id, hqueued⟩

theorem meAnswered_unallowed {reply : Option Response} {session : Option AccessToken}
    (h : ¬ Answered d (.meAnswered reply session)) :
    ∃ cause, (d.meAnswered reply session).restore = some (.purging cause) ∧
      ¬ cause.Allowed ∧ ¬ (d.meAnswered reply session).NoneQueued := by
  rw [meAnswered_noneQueued]
  simp only [Answered, not_or, not_exists, not_and] at h
  obtain ⟨hqueued, hanswer⟩ := h
  refine ⟨.thrown, ?_, id, hqueued⟩
  cases reply with
  | none => rfl
  | some r =>
    cases hok : r.ok with
    | false => simp [Device.meAnswered, hok]
    | true =>
      have hnone : session = none := by simpa using hanswer r rfl hok
      simp [Device.meAnswered, hok, hnone]

/-- No mutation is lost silently in the runs in which every start with mutations is answered. -/
theorem queue_survives (h0 : DeviceStarts d₀) : QueueSurvives d₀ where
  kept d a d' m hr hK hst hm hgone := by
    have hok : DeviceOk d := hr.inv DeviceOk h0.ok fun _ _ _ _ h hK hst => step_ok h hK hst
    exact step_leaves hok hst hm hgone
  lost d a d' hr hK hst := by
    cases a with
    | refreshAnswered reply refreshToken =>
      simp only [Device.step] at hst
      split at hst <;> cases hst
      obtain ⟨cause, hrestore, hcause, hqueued⟩ := refreshAnswered_unallowed hK
      exact purge_loses hrestore hcause hqueued
    | meAnswered reply session =>
      simp only [Device.step] at hst
      split at hst <;> cases hst
      obtain ⟨cause, hrestore, hcause, hqueued⟩ := meAnswered_unallowed hK
      exact purge_loses hrestore hcause hqueued
    | start | kill | app | storeRefreshToken | loginFailed | storage => exact absurd trivial hK

/-- A signed-in device that was killed with a sale in its queue. -/
def sampleDevice : Device where
  phone :=
    { queue := Table.empty.insert
        { id := 1, method := .post, path := "/sales", body := some "{}", scope := .tenant
          status := .processing, idempotencyKey := "k", author := ⟨0, some 1⟩ }
      nextId := 2 }
  refreshToken := some "refresh-1"
  restore := none

theorem sampleDevice_starts : DeviceStarts sampleDevice where
  restore := rfl
  processing := rfl
  ids m hm := by
    rw [List.mem_singleton.1 hm]
    decide

theorem queue_survives_sample : QueueSurvives sampleDevice := queue_survives sampleDevice_starts

/-- The application starts offline: `/auth/refresh` gets no answer, and the sale is gone. -/
theorem offline_start :
    DeviceStarts sampleDevice ∧ ¬ NoSilentLoss Always sampleDevice := by
  refine ⟨sampleDevice_starts, fun h => ?_⟩
  have hrun : (exec device (fun _ _ => true) sampleDevice
      [.start, .storage, .refreshAnswered none none]).map
        (fun d => (d.restore, d.phone.queue.rows.map QueuedMutation.scope)) =
      some (some (.purging .thrown), [.tenant]) := by decide +kernel
  obtain ⟨d, hd, hstate⟩ := Option.map_eq_some_iff.1 hrun
  obtain ⟨hrestore, hscopes⟩ := Prod.mk.inj hstate
  have hqueued : ¬ d.NoneQueued := by
    intro hnone
    have htenant : MutationScope.tenant ∈ d.phone.queue.rows.map QueuedMutation.scope := by
      rw [hscopes]
      exact List.mem_singleton_self _
    obtain ⟨m, hm, hscope⟩ := List.mem_map.1 htenant
    rw [hnone m hm] at hscope
    cases hscope
  obtain ⟨d', m, hst, hm, hgone, hleaves⟩ := purge_loses hrestore id hqueued
  exact hleaves (h d .storage d' m (Reach.of_exec _ (fun _ _ _ => trivial) _ hd) trivial hst hm hgone)

end Gescom.Mobile
