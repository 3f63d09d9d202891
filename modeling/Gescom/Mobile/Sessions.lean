import Gescom.Lib.Transition
import Gescom.Mobile.Queue

/-!
# Mutations and login sessions

`purgeOfflineStore` empties the table at a logout, and nothing else: the snapshot of a run, the
timers of `scheduleRetry` and the closures of screen hooks live on, and a run that reads the ref
gets the token of whoever is logged in. `never_crosses` gives the runs where a mutation is only sent
with the token of the session it was enqueued in; `retry_crosses` is one of the others.
-/

namespace Gescom.Mobile

open Transition

/-! ## The system -/

inductive Action where
  | login
  | establishSession (enterpriseId : Option Uuid)
  | logout
  | purgeOfflineStore
  | setUnauthenticated
  | render
  | enqueueMutation (input : EnqueueMutationInput) (idempotencyKey : String) (isOnline : Bool)
  /-- A screen hook goes on to `processQueue`. -/
  | hook (i : Nat)
  | syncEngine
  /-- A timer of `scheduleRetry` expires. -/
  | timer (i : Nat)
  | proceed
  | respond (reply : Option Response)

def Phone.step (phone : Phone) : Action → Option Phone
  -- `LoginScreen` and `MfaVerifyScreen` are there while nobody is logged in
  | .login =>
    if phone.rendered = .unauthenticated then some { phone with loggingIn := phone.loggingIn + 1 }
    else none
  | .establishSession enterpriseId =>
    if 0 < phone.loggingIn then some (phone.establish enterpriseId) else none
  | .logout =>
    if phone.rendered = .unauthenticated then none
    else some { phone with loggingOut := phone.loggingOut + 1 }
  | .purgeOfflineStore => if 0 < phone.loggingOut then some phone.purge else none
  | .setUnauthenticated => if 0 < phone.purged then some phone.close else none
  | .render => some phone.render
  | .enqueueMutation input idempotencyKey isOnline =>
    phone.rendered.accessToken.map fun accessToken =>
      { phone.enqueueMutation input idempotencyKey accessToken with
        hooks :=
          if isOnline && validMutationPath input.path then phone.hooks ++ [accessToken]
          else phone.hooks }
  | .hook i =>
    phone.hooks[i]?.map fun accessToken =>
      { phone with hooks := phone.hooks.eraseIdx i }.processQueue (.closed accessToken)
  | .syncEngine =>
    if phone.rendered = .unauthenticated then none else some (phone.processQueue .ref)
  | .timer i =>
    phone.timers[i]?.map fun deps =>
      { phone with timers := phone.timers.eraseIdx i }.processQueue deps
  | .proceed => phone.proceed
  | .respond reply => phone.receive reply

def mobile : System Phone Action := ⟨Phone.step⟩

/-! ## What must hold -/

/-- In the runs whose steps meet `K`, every request goes out with the token of the session its
mutation was enqueued in. -/
def NeverCrosses (K : Phone → Action → Prop) (phone₀ : Phone) : Prop :=
  ∀ phone, Reach mobile K phone₀ phone → ∀ r ∈ phone.requests, r.authorization = r.author

/-- The mutations of the snapshot that the run has not read a token for. -/
def Run.left : Run → List QueuedMutation
  | next rest | marking _ _ rest | waiting _ rest | rejected _ _ rest => rest
  | stopping _ => []

/-- No mutation waits: none is pending, and a run that reads the ref has none left. -/
def Phone.Quiet (phone : Phone) : Prop :=
  (∀ m ∈ phone.listPendingMutations, False) ∧
    ∀ r, phone.processing = some (.ref, r) → r.left = []

/-- The pending mutations were enqueued with `accessToken`, or the run does not start. -/
def Phone.Owned (phone : Phone) (accessToken : AccessToken) : Prop :=
  phone.processing = none → ∀ m ∈ phone.listPendingMutations, m.author = accessToken

/-- A login is completed while no mutation waits, a screen that enqueues one is of the last login,
and a token that is closed over starts a run on mutations of its own session only. -/
def Apart (phone : Phone) : Action → Prop
  | .establishSession _ => phone.Quiet
  | .enqueueMutation .. => ∀ accessToken, phone.rendered.accessToken = some accessToken →
      phone.lastLogin = some accessToken
  | .hook i => ∀ accessToken, phone.hooks[i]? = some accessToken → phone.Owned accessToken
  | .timer i => ∀ accessToken, phone.timers[i]? = some (.closed accessToken) →
    phone.Owned accessToken
  | _ => True

/-- The application after a start without a stored refresh token. -/
structure SignedOut (phone : Phone) : Prop where
  session : phone.session = .unauthenticated
  rendered : phone.rendered = .unauthenticated
  pending : ∀ m ∈ phone.queue.rows, m.status = .failed
  processing : phone.processing = none
  requests : phone.requests = []

/-! ## The invariant -/

/-- The mutations whose rows the run may still write. -/
def Run.held : Run → List QueuedMutation
  | next rest => rest
  | marking m _ rest | waiting m rest | rejected m _ rest => m :: rest
  | stopping _ => []

/-- The token the run has read is that of the author of the mutation it goes with. -/
def Run.Authored : Run → Prop
  | marking m accessToken _ => accessToken = m.author
  | _ => True

/-- The run may send the mutation with the token its `getAccessToken` returns. -/
def ProcessQueueDeps.Owns (lastLogin : Option AccessToken) (m : QueuedMutation) :
    ProcessQueueDeps → Prop
  | closed accessToken => m.author = accessToken
  | ref => lastLogin = some m.author

structure RunOk (phone : Phone) (deps : ProcessQueueDeps) (r : Run) : Prop where
  nodup : (r.held.map QueuedMutation.id).Nodup
  /-- A row the run may still write is not `failed`. -/
  live : ∀ m ∈ r.held, ∀ row ∈ phone.queue.rows, row.id = m.id → row.status ≠ .failed
  owned : ∀ m ∈ r.left, deps.Owns phone.lastLogin m
  authored : r.Authored

structure Inv (phone : Phone) : Prop where
  pending : ∀ m ∈ phone.queue.rows, m.status ≠ .failed → phone.lastLogin = some m.author
  session : ∀ t, phone.session.accessToken = some t → phone.lastLogin = some t
  /-- A screen of an earlier login is still shown only while no mutation waits. -/
  rendered : ∀ t, phone.rendered.accessToken = some t → phone.lastLogin = some t ∨ phone.Quiet
  run : ∀ deps r, phone.processing = some (deps, r) → RunOk phone deps r
  requests : ∀ r ∈ phone.requests, r.authorization = r.author

variable {phone phone' phone₀ : Phone} {deps : ProcessQueueDeps} {r : Run} {m row : QueuedMutation}
  {rest : List QueuedMutation} {id : Nat}

theorem mem_pending :
    m ∈ phone.listPendingMutations ↔ m ∈ phone.queue.rows ∧ m.status ≠ .failed := by
  simp [Phone.listPendingMutations]

theorem SignedOut.inv (h : SignedOut phone) : Inv phone where
  pending m hm hs := absurd (h.pending m hm) hs
  session t ht := by rw [h.session] at ht; cases ht
  rendered t ht := by rw [h.rendered] at ht; cases ht
  run deps r hr := by rw [h.processing] at hr; cases hr
  requests r hr := by rw [h.requests] at hr; cases hr

/-! ## Steps that add no mutation -/

/-- Rows are only rewritten or deleted, and no `failed` row becomes pending; the run goes on or
ends. -/
structure Shrinks (phone phone' : Phone) : Prop where
  rows : ∀ row' ∈ phone'.queue.rows, ∃ row ∈ phone.queue.rows,
    row.author = row'.author ∧ (row'.status ≠ .failed → row.status ≠ .failed)
  run : ∀ deps r', phone'.processing = some (deps, r') →
    RunOk phone' deps r' ∧ ∃ r, phone.processing = some (deps, r) ∧ ∀ m ∈ r'.left, m ∈ r.left
  lastLogin : phone'.lastLogin = phone.lastLogin

theorem Shrinks.quiet (h : Shrinks phone phone') (hq : phone.Quiet) : phone'.Quiet := by
  refine ⟨fun m' hm' => ?_, fun r' hr' => ?_⟩
  · obtain ⟨hrow, hs⟩ := mem_pending.1 hm'
    obtain ⟨m, hm, -, hback⟩ := h.rows m' hrow
    exact hq.1 m (mem_pending.2 ⟨hm, hback hs⟩)
  · obtain ⟨-, r, hr, hsub⟩ := h.run _ _ hr'
    have hnil := hq.2 r hr
    refine List.eq_nil_iff_forall_not_mem.2 fun m hm => ?_
    have hmem := hsub m hm
    simp [hnil] at hmem

theorem Inv.shrinks (h : Inv phone) (hsh : Shrinks phone phone')
    (hsession : ∀ t, phone'.session.accessToken = some t → phone.session.accessToken = some t)
    (hrendered : ∀ t, phone'.rendered.accessToken = some t →
      phone.rendered.accessToken = some t ∨ phone.session.accessToken = some t)
    (hrequests : ∀ r ∈ phone'.requests, r.authorization = r.author) : Inv phone' where
  pending m' hm' hs := by
    obtain ⟨m, hm, hauthor, hback⟩ := hsh.rows m' hm'
    rw [hsh.lastLogin, ← hauthor]
    exact h.pending m hm (hback hs)
  session t ht := by
    rw [hsh.lastLogin]
    exact h.session t (hsession t ht)
  rendered t ht := by
    rw [hsh.lastLogin]
    rcases hrendered t ht with hold | hnew
    · exact (h.rendered t hold).imp id hsh.quiet
    · exact .inl (h.session t hnew)
  run deps r hr := (hsh.run deps r hr).1
  requests := hrequests

/-- Nothing the invariant speaks of changes but the session and its render. -/
theorem Inv.frame (h : Inv phone) (hqueue : phone'.queue = phone.queue)
    (hrun : phone'.processing = phone.processing) (hlast : phone'.lastLogin = phone.lastLogin)
    (hrequests : phone'.requests = phone.requests)
    (hsession : ∀ t, phone'.session.accessToken = some t → phone.session.accessToken = some t)
    (hrendered : ∀ t, phone'.rendered.accessToken = some t →
      phone.rendered.accessToken = some t ∨ phone.session.accessToken = some t) : Inv phone' := by
  refine h.shrinks
    ⟨fun row hrow => ⟨row, hqueue ▸ hrow, rfl, fun hs => hs⟩, fun deps r hr => ?_, hlast⟩
    hsession hrendered (hrequests ▸ h.requests)
  rw [hrun] at hr
  have hok := h.run deps r hr
  refine ⟨⟨hok.nodup, fun m hm row hrow => hok.live m hm row (hqueue ▸ hrow), ?_, hok.authored⟩, r,
    hr, fun m hm => hm⟩
  rw [hlast]
  exact hok.owned

/-! ## The run -/

theorem mem_rewritten {f : QueuedMutation → QueuedMutation} {rows : List QueuedMutation}
    (h : row ∈ rows.map fun row => if row.id == id then f row else row) :
    row ∈ rows ∨ ∃ row₀ ∈ rows, row₀.id = id ∧ row = f row₀ := by
  obtain ⟨row₀, hrow₀, rfl⟩ := List.mem_map.1 h
  by_cases hid : row₀.id = id
  · exact .inr ⟨row₀, hrow₀, hid, by simp [hid]⟩
  · refine .inl ?_
    simpa [hid] using hrow₀

/-- The run goes from `r` to `r'`, which holds less. -/
structure RunStep (r r' : Run) : Prop where
  held : r'.held.Sublist r.held
  left : ∀ m ∈ r'.left, m ∈ r.left
  authored : r'.Authored

/-- The run goes on and writes nothing, or deletes rows. -/
theorem Inv.run_delete (h : Inv phone) {r' : Run} (hrun : phone.processing = some (deps, r))
    (hst : RunStep r r') (hqueue : ∀ row ∈ phone'.queue.rows, row ∈ phone.queue.rows)
    (hrun' : phone'.processing = some (deps, r'))
    (hlast : phone'.lastLogin = phone.lastLogin) : Shrinks phone phone' := by
  have hok := h.run deps r hrun
  refine ⟨fun row hrow => ⟨row, hqueue row hrow, rfl, fun hs => hs⟩, fun deps₁ r₁ hr₁ => ?_, hlast⟩
  cases hrun'.symm.trans hr₁
  refine ⟨⟨hok.nodup.sublist (hst.held.map _), fun m hm row hrow => ?_, fun m hm => ?_,
    hst.authored⟩, r, hrun, hst.left⟩
  · exact hok.live m (hst.held.subset hm) row (hqueue row hrow)
  · rw [hlast]
    exact hok.owned m (hst.left m hm)

/-- The run goes on and rewrites the row of a mutation it held. -/
theorem Inv.run_update (h : Inv phone) {r' : Run} (hrun : phone.processing = some (deps, r))
    (hst : RunStep r r') {f : QueuedMutation → QueuedMutation} (hm : m ∈ r.held)
    (hqueue : phone'.queue.rows =
      phone.queue.rows.map fun row => if row.id == m.id then f row else row)
    (hrun' : phone'.processing = some (deps, r')) (hlast : phone'.lastLogin = phone.lastLogin)
    (hf : ∀ m, (f m).id = m.id ∧ (f m).author = m.author)
    (hstatus : (∀ m' ∈ r'.held, m'.id ≠ m.id) ∨ ∀ row, (f row).status ≠ .failed) :
    Shrinks phone phone' := by
  have hok := h.run deps r hrun
  refine ⟨fun row hrow => ?_, fun deps₁ r₁ hr₁ => ?_, hlast⟩
  · rcases mem_rewritten (hqueue ▸ hrow) with hold | ⟨row₀, hrow₀, hid, rfl⟩
    · exact ⟨row, hold, rfl, fun hs => hs⟩
    · exact ⟨row₀, hrow₀, (hf row₀).2.symm, fun _ => hok.live m hm row₀ hrow₀ hid⟩
  · cases hrun'.symm.trans hr₁
    refine ⟨⟨hok.nodup.sublist (hst.held.map _), fun m' hm' row hrow hid => ?_, fun m' hm' => ?_,
      hst.authored⟩, r, hrun,
      hst.left⟩
    · rcases mem_rewritten (hqueue ▸ hrow) with hold | ⟨row₀, hrow₀, hid₀, rfl⟩
      · exact hok.live m' (hst.held.subset hm') row hold hid
      · rcases hstatus with hne | hlive
        · exact absurd (hid.symm.trans ((hf row₀).1.trans hid₀)) (hne m' hm')
        · exact hlive row₀
    · rw [hlast]
      exact hok.owned m' (hst.left m' hm')

/-- The run ends. -/
theorem Inv.run_end (hqueue : phone'.queue = phone.queue) (hrun' : phone'.processing = none)
    (hlast : phone'.lastLogin = phone.lastLogin) : Shrinks phone phone' := by
  refine ⟨fun row hrow => ⟨row, hqueue ▸ hrow, rfl, fun hs => hs⟩, fun deps r hr => ?_, hlast⟩
  cases hrun'.symm.trans hr

/-- The token the run reads for a mutation is that of its author. -/
theorem Inv.token (h : Inv phone) {t : AccessToken}
    (hrun : phone.processing = some (deps, .next (m :: rest)))
    (ht : deps.getAccessToken phone = some t) : t = m.author := by
  have hm : m ∈ (Run.next (m :: rest)).left := List.mem_cons_self
  have hown := (h.run _ _ hrun).owned m hm
  cases deps with
  | closed accessToken =>
    cases ht
    exact hown.symm
  | ref =>
    rcases h.rendered t ht with hlast | hquiet
    · exact Option.some.inj (hlast.symm.trans hown)
    · have hnil := hquiet.2 _ hrun
      cases hnil

theorem head_not_held (hnodup : ((m :: rest).map QueuedMutation.id).Nodup) :
    ∀ m' ∈ rest, m'.id ≠ m.id := by
  intro m' hm' hid
  rw [List.map_cons, List.nodup_cons] at hnodup
  exact hnodup.1 (hid ▸ List.mem_map_of_mem hm')

/-- A step of the run, of the session or of its render that changes no request. -/
theorem Inv.same (h : Inv phone) (hsh : Shrinks phone phone')
    (hsession : phone'.session = phone.session)
    (hrendered : phone'.rendered = phone.rendered) (hrequests : phone'.requests = phone.requests) :
    Inv phone' :=
  h.shrinks hsh (fun _ ht => hsession ▸ ht) (fun _ ht => .inl (hrendered ▸ ht))
    (hrequests ▸ h.requests)

theorem proceed_inv (h : Inv phone) (hst : phone.proceed = some phone') : Inv phone' := by
  unfold Phone.proceed at hst
  split at hst
  · cases hst
  · cases hst
    exact h.same (Inv.run_end rfl rfl rfl) rfl rfl rfl
  · rename_i deps m rest hrun
    split at hst
    · cases hst
      exact h.same (Inv.run_end rfl rfl rfl) rfl rfl rfl
    · rename_i t ht
      cases hst
      have htoken := h.token hrun ht
      have hstep : RunStep (.next (m :: rest)) (.marking m t rest) :=
        ⟨.refl _, fun m' hm' => List.mem_cons_of_mem _ hm', htoken⟩
      exact h.same (h.run_update hrun hstep List.mem_cons_self rfl rfl rfl (fun _ => ⟨rfl, rfl⟩)
        (.inr fun _ => nofun)) rfl rfl
        rfl
  · rename_i deps m t rest hrun
    cases hst
    have hmark : t = m.author := (h.run _ _ hrun).authored
    have hstep : RunStep (.marking m t rest) (.waiting m rest) :=
      ⟨.refl _, fun _ hm' => hm', trivial⟩
    refine h.shrinks (h.run_delete hrun hstep (fun _ hrow => hrow) rfl rfl) (fun _ ht => ht)
      (fun _ ht => .inl ht) ?_
    intro r hr
    rcases List.mem_append.1 hr with hold | hnew
    · exact h.requests r hold
    · obtain rfl := List.mem_singleton.1 hnew
      exact hmark
  · cases hst
  · rename_i deps m r rest hrun
    cases hst
    have hnot := head_not_held (h.run _ _ hrun).nodup
    have hstep : RunStep (.rejected m r rest) (.next rest) :=
      ⟨List.sublist_cons_self .., fun _ hm' => hm', trivial⟩
    exact h.same (h.run_update hrun hstep List.mem_cons_self rfl rfl rfl (fun _ => ⟨rfl, rfl⟩)
      (.inl hnot)) rfl rfl rfl
  · cases hst
    exact h.same (Inv.run_end rfl rfl rfl) rfl rfl rfl

theorem receive_inv {reply : Option Response} (h : Inv phone)
    (hst : phone.receive reply = some phone') : Inv phone' := by
  unfold Phone.receive at hst
  split at hst
  · rename_i deps m rest hrun
    have hnot := head_not_held (h.run _ _ hrun).nodup
    have hnext : RunStep (.waiting m rest) (.next rest) :=
      ⟨List.sublist_cons_self .., fun _ hm' => hm', trivial⟩
    have hstop : ∀ b, RunStep (.waiting m rest) (.stopping b) := fun b =>
      ⟨List.nil_sublist _, fun m' hm' => absurd hm' List.not_mem_nil, trivial⟩
    have hempty : ∀ b, ∀ m' ∈ (Run.stopping b).held, m'.id ≠ m.id :=
      fun b m' hm' => absurd hm' List.not_mem_nil
    cases reply with
    | none =>
      cases hst
      exact h.same (h.run_update hrun (hstop false) List.mem_cons_self rfl rfl rfl
        (fun _ => ⟨rfl, rfl⟩) (.inl (hempty _)))
        rfl rfl rfl
    | some r =>
      simp only at hst
      split_ifs at hst <;> cases hst
      · refine h.same (h.run_delete hrun hnext (fun row hrow => ?_) rfl rfl) rfl rfl rfl
        exact List.mem_of_mem_filter hrow
      · exact h.same (h.run_update hrun (hstop false) List.mem_cons_self rfl rfl rfl
          (fun _ => ⟨rfl, rfl⟩) (.inl (hempty _)))
          rfl rfl rfl
      · exact h.same (h.run_update hrun hnext List.mem_cons_self rfl rfl rfl (fun _ => ⟨rfl, rfl⟩)
          (.inl hnot)) rfl rfl rfl
      · exact h.same (h.run_update hrun (hstop true) List.mem_cons_self rfl rfl rfl
          (fun _ => ⟨rfl, rfl⟩) (.inl (hempty _)))
          rfl rfl rfl
      · have hstep : RunStep (.waiting m rest) (.rejected m r rest) :=
          ⟨.refl _, fun _ hm' => hm', trivial⟩
        exact h.same (h.run_delete hrun hstep (fun _ hrow => hrow) rfl rfl) rfl rfl rfl
  · cases hst

/-! ## The other steps -/

/-- A run is started on mutations its token may go with. -/
theorem processQueue_inv (h : Inv phone)
    (hown : ∀ accessToken, deps = .closed accessToken → phone.Owned accessToken) :
    Inv (phone.processQueue deps) := by
  unfold Phone.processQueue
  split
  · exact h
  · rename_i hnone
    have hidle : phone.processing = none := by simpa using hnone
    refine ⟨h.pending, h.session, fun t ht => ?_, ?_, h.requests⟩
    · refine (h.rendered t ht).imp id fun hquiet => ⟨hquiet.1, ?_⟩
      rintro r ⟨⟩
      exact List.eq_nil_iff_forall_not_mem.2 hquiet.1
    · rintro _ _ ⟨⟩
      refine ⟨?_, fun m hm row hrow hid => ?_, fun m hm => ?_, trivial⟩
      · exact phone.queue.nodup.sublist (List.filter_sublist.map _)
      · obtain ⟨hmem, hs⟩ := mem_pending.1 hm
        have hsame : row = m := List.inj_on_of_nodup_map phone.queue.nodup hrow hmem hid
        rwa [hsame]
      · obtain ⟨hmem, hs⟩ := mem_pending.1 hm
        cases deps with
        | closed t => exact hown t rfl hidle m hm
        | ref => exact h.pending m hmem hs

theorem purge_inv (h : Inv phone) : Inv phone.purge := by
  have hsub : ∀ row ∈ phone.purge.queue.rows, row ∈ phone.queue.rows :=
    fun row hrow => List.mem_of_mem_filter hrow
  refine h.same ⟨fun row hrow => ⟨row, hsub row hrow, rfl, fun hs => hs⟩, fun deps r hr => ?_, rfl⟩
    rfl rfl rfl
  have hok := h.run deps r hr
  exact ⟨⟨hok.nodup, fun m hm row hrow => hok.live m hm row (hsub row hrow), hok.owned,
    hok.authored⟩, r, hr, fun _ hm => hm⟩

theorem establish_inv {enterpriseId : Option Uuid} (h : Inv phone) (hquiet : phone.Quiet) :
    Inv (phone.establish enterpriseId) where
  pending m hm hs := (hquiet.1 m (mem_pending.2 ⟨hm, hs⟩)).elim
  session t ht := ht
  rendered _ _ := .inr hquiet
  run deps r hr := by
    have hok := h.run deps r hr
    refine ⟨hok.nodup, hok.live, fun m hm => ?_, hok.authored⟩
    cases deps with
    | closed t => exact hok.owned m hm
    | ref =>
      have hnil := hquiet.2 r hr
      simp [hnil] at hm
  requests := h.requests

theorem enqueueMutation_inv {input : EnqueueMutationInput} {key : String} {t : AccessToken}
    (h : Inv phone) (ht : phone.rendered.accessToken = some t) (hlast : phone.lastLogin = some t) :
    Inv (phone.enqueueMutation input key t) := by
  unfold Phone.enqueueMutation
  split
  · refine ⟨fun m hm hs => ?_, h.session, fun t' ht' => ?_, fun deps r hr => ?_, h.requests⟩
    · rcases Table.mem_insert hm with hold | rfl
      · exact h.pending m hold hs
      · exact hlast
    · cases ht.symm.trans ht'
      exact .inl hlast
    · have hok := h.run deps r hr
      refine ⟨hok.nodup, fun m hm row hmem hid => ?_, hok.owned, hok.authored⟩
      rcases Table.mem_insert hmem with hold | rfl
      · exact hok.live m hm row hold hid
      · intro hrow
        cases hrow
  · exact h

theorem step_inv {a : Action} (h : Inv phone) (hK : Apart phone a)
    (hst : phone.step a = some phone') : Inv phone' := by
  have hself : ∀ t, phone.session.accessToken = some t → phone.session.accessToken = some t :=
    fun _ ht => ht
  have hshown : ∀ t, phone.rendered.accessToken = some t →
      phone.rendered.accessToken = some t ∨ phone.session.accessToken = some t :=
        fun _ ht => .inl ht
  cases a with
  | login =>
    simp only [Phone.step] at hst
    split at hst <;> cases hst
    exact h.frame rfl rfl rfl rfl hself hshown
  | establishSession enterpriseId =>
    simp only [Phone.step] at hst
    split at hst <;> cases hst
    exact establish_inv h hK
  | logout =>
    simp only [Phone.step] at hst
    split at hst <;> cases hst
    exact h.frame rfl rfl rfl rfl hself hshown
  | purgeOfflineStore =>
    simp only [Phone.step] at hst
    split at hst <;> cases hst
    exact purge_inv h
  | setUnauthenticated =>
    simp only [Phone.step] at hst
    split at hst <;> cases hst
    exact h.frame rfl rfl rfl rfl nofun hshown
  | render =>
    cases hst
    exact h.frame rfl rfl rfl rfl hself fun _ ht => .inr ht
  | enqueueMutation input key isOnline =>
    obtain ⟨t, ht, rfl⟩ := Option.map_eq_some_iff.1 hst
    have hinv : Inv (phone.enqueueMutation input key t) := enqueueMutation_inv h ht (hK t ht)
    exact hinv.frame rfl rfl rfl rfl (fun _ ht => ht) fun _ ht => .inl ht
  | hook i =>
    obtain ⟨t, ht, rfl⟩ := Option.map_eq_some_iff.1 hst
    refine processQueue_inv (h.frame rfl rfl rfl rfl hself hshown) ?_
    rintro _ ⟨⟩
    exact hK t ht
  | syncEngine =>
    simp only [Phone.step] at hst
    split at hst <;> cases hst
    exact processQueue_inv h nofun
  | timer i =>
    obtain ⟨deps, hdeps, rfl⟩ := Option.map_eq_some_iff.1 hst
    refine processQueue_inv (h.frame rfl rfl rfl rfl hself hshown) ?_
    rintro t rfl
    exact hK t hdeps
  | proceed => exact proceed_inv h hst
  | respond reply => exact receive_inv h hst

/-! ## The order of the rows -/

/-- Rows are in the order of their ids, and the next id is new. -/
def Phone.InOrder (phone : Phone) : Prop :=
  (phone.queue.rows.map QueuedMutation.id).Pairwise (· < ·) ∧
    ∀ m ∈ phone.queue.rows, m.id < phone.nextId

/-- What a step writes in the table. -/
def Phone.Writes (phone phone' : Phone) : Prop :=
  phone'.nextId = phone.nextId ∧
      (phone'.queue.rows.map QueuedMutation.id).Sublist (phone.queue.rows.map QueuedMutation.id) ∨
    ∃ m, m.id = phone.nextId ∧ phone'.nextId = phone.nextId + 1 ∧
      phone'.queue = phone.queue.insert m

theorem inOrder_writes (h : phone.InOrder) (hw : phone.Writes phone') : phone'.InOrder := by
  obtain ⟨hsorted, hnext⟩ := h
  rcases hw with ⟨hid, hsub⟩ | ⟨m, hm, hid, hinsert⟩
  · refine ⟨hsorted.sublist hsub, fun row hrow => ?_⟩
    obtain ⟨row₀, hrow₀, heq⟩ := List.mem_map.1 (hsub.subset (List.mem_map_of_mem hrow))
    rw [hid, ← heq]
    exact hnext row₀ hrow₀
  · have hnew : phone.queue.find? (Keyed.key m) = none := by
      refine List.find?_eq_none.2 fun row hrow => ?_
      have hlt := hnext row hrow
      simp only [Keyed.key, hm, beq_iff_eq]
      omega
    have hrows : phone'.queue.rows = phone.queue.rows ++ [m] := by
      rw [hinsert, Table.rows_insert hnew]
    refine ⟨?_, fun row hrow => ?_⟩
    · rw [hrows, List.map_append, List.pairwise_append]
      refine ⟨hsorted, List.pairwise_singleton _ _, fun i hi j hj => ?_⟩
      obtain ⟨row, hrow, rfl⟩ := List.mem_map.1 hi
      obtain rfl := List.mem_singleton.1 hj
      rw [hm]
      exact hnext row hrow
    · rw [hrows, List.mem_append, List.mem_singleton] at hrow
      rcases hrow with hold | rfl
      · have hlt := hnext row hold
        omega
      · omega

theorem writes_update {f : QueuedMutation → QueuedMutation} (hqueue : phone'.queue.rows =
      phone.queue.rows.map fun row => if row.id == id then f row else row)
    (hf : ∀ m, (f m).id = m.id) (hid : phone'.nextId = phone.nextId) : phone.Writes phone' := by
  refine .inl ⟨hid, ?_⟩
  have hids : phone'.queue.rows.map QueuedMutation.id = phone.queue.rows.map QueuedMutation.id := by
    rw [hqueue, List.map_map]
    refine List.map_congr_left fun row _ => ?_
    simp only [Function.comp]
    split
    · exact hf row
    · rfl
  rw [hids]

theorem writes_delete {p : QueuedMutation → Bool}
    (hqueue : phone'.queue = phone.queue.deleteWhere p)
    (hid : phone'.nextId = phone.nextId) : phone.Writes phone' := by
  refine .inl ⟨hid, ?_⟩
  rw [hqueue]
  exact List.filter_sublist.map _

theorem writes_none (hqueue : phone'.queue = phone.queue) (hid : phone'.nextId = phone.nextId) :
    phone.Writes phone' := .inl ⟨hid, by rw [hqueue]⟩

theorem step_writes {a : Action} (hst : phone.step a = some phone') : phone.Writes phone' := by
  cases a with
  | proceed =>
    simp only [Phone.step, Phone.proceed] at hst
    split at hst
    · cases hst
    · cases hst; exact writes_none rfl rfl
    · split at hst <;> cases hst
      · exact writes_none rfl rfl
      · exact writes_update rfl (fun _ => rfl) rfl
    · cases hst; exact writes_none rfl rfl
    · cases hst
    · cases hst; exact writes_update rfl (fun _ => rfl) rfl
    · cases hst; exact writes_none rfl rfl
  | respond reply =>
    simp only [Phone.step, Phone.receive] at hst
    split at hst
    · cases reply with
      | none => cases hst; exact writes_update rfl (fun _ => rfl) rfl
      | some r =>
        simp only at hst
        split_ifs at hst <;> cases hst
        · exact writes_delete rfl rfl
        · exact writes_update rfl (fun _ => rfl) rfl
        · exact writes_update rfl (fun _ => rfl) rfl
        · exact writes_update rfl (fun _ => rfl) rfl
        · exact writes_none rfl rfl
    · cases hst
  | enqueueMutation input key isOnline =>
    obtain ⟨t, -, rfl⟩ := Option.map_eq_some_iff.1 hst
    unfold Phone.enqueueMutation
    split
    · exact .inr ⟨_, rfl, rfl, rfl⟩
    · exact writes_none rfl rfl
  | purgeOfflineStore =>
    simp only [Phone.step] at hst
    split at hst <;> cases hst
    exact writes_delete rfl rfl
  | hook i =>
    obtain ⟨t, -, rfl⟩ := Option.map_eq_some_iff.1 hst
    unfold Phone.processQueue
    split <;> exact writes_none rfl rfl
  | timer i =>
    obtain ⟨t, -, rfl⟩ := Option.map_eq_some_iff.1 hst
    unfold Phone.processQueue
    split <;> exact writes_none rfl rfl
  | syncEngine =>
    simp only [Phone.step] at hst
    split at hst <;> cases hst
    unfold Phone.processQueue
    split <;> exact writes_none rfl rfl
  | login | establishSession | logout | setUnauthenticated | render =>
    simp only [Phone.step] at hst
    first
      | cases hst; exact writes_none rfl rfl
      | split at hst <;> cases hst; exact writes_none rfl rfl

/-- Every run snapshots the pending mutations in the order of their ids. -/
theorem pending_in_order (h0 : phone₀.InOrder) (h : Reach mobile Always phone₀ phone) :
    (phone.listPendingMutations.map QueuedMutation.id).Pairwise (· < ·) := by
  have horder : phone.InOrder := h.inv Phone.InOrder h0 fun _ _ _ _ h _ hst =>
    inOrder_writes h (step_writes hst)
  exact horder.1.sublist (List.filter_sublist.map _)

/-! ## The result -/

/-- Mutations keep to their session in every run where no login, screen hook or timer meets
mutations of another session. -/
theorem never_crosses (h0 : SignedOut phone₀) : NeverCrosses Apart phone₀ := by
  intro phone hr
  have hinv : Inv phone := hr.inv Inv h0.inv fun _ _ _ _ h hK hst => step_inv h hK hst
  exact hinv.requests

def samplePhone : Phone where
  queue := Table.empty
  nextId := 1

theorem samplePhone_signedOut : SignedOut samplePhone :=
  ⟨rfl, rfl, fun _ hm => absurd hm List.not_mem_nil, rfl, rfl⟩

theorem never_crosses_sample : NeverCrosses Apart samplePhone := never_crosses samplePhone_signedOut

/-- The server fails once under the first login; under the second, the timer sends the new mutation
with the token of the first. -/
theorem retry_crosses : SignedOut samplePhone ∧ ¬ NeverCrosses Always samplePhone := by
  refine ⟨samplePhone_signedOut, fun hnever => ?_⟩
  let signIn (enterpriseId : Uuid) : List Action :=
    [.login, .establishSession (some enterpriseId), .render]
  let sell (key : String) (isOnline : Bool) : Action :=
    .enqueueMutation ⟨.post, "/sales", some "{}", none⟩ key isOnline
  have hrun : ((exec mobile (fun _ _ => true) samplePhone (signIn 1 ++
      [sell "a" true, .hook 0, .proceed, .proceed, .respond (some ⟨503, none⟩), .proceed] ++
      [.logout, .purgeOfflineStore, .setUnauthenticated, .render] ++ signIn 2 ++
      [sell "b" false, .timer 0, .proceed, .proceed])).map fun phone =>
        phone.requests.map fun r => (r.authorization, r.author)) =
      some [(⟨0, some 1⟩, ⟨0, some 1⟩), (⟨0, some 1⟩, ⟨1, some 2⟩)] := by decide +kernel
  obtain ⟨phone, hphone, hsent⟩ := Option.map_eq_some_iff.1 hrun
  have hr : Reach mobile Always samplePhone phone := Reach.of_exec _ (fun _ _ _ => trivial) _ hphone
  have hmem : ((⟨0, some 1⟩, ⟨1, some 2⟩) : AccessToken × AccessToken) ∈
      phone.requests.map fun r => (r.authorization, r.author) := by
    rw [hsent]
    exact List.mem_cons_of_mem _ List.mem_cons_self
  obtain ⟨r, hmem, hpair⟩ := List.mem_map.1 hmem
  have hcross := hnever phone hr r hmem
  simp only [Prod.mk.injEq] at hpair
  rw [hpair.1, hpair.2] at hcross
  cases hcross

end Gescom.Mobile
