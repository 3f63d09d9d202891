import Gescom.Mobile.Persistence

/-!
# Purges of the offline store

Nothing that was cached before a purge may survive it. `withPersistenceSuspended` keeps one stop
function, and each purge starts a persistence when it settles: of two purges that overlap, the second
forgets the stop function of the first one's persistence. And to stop a persistence is not to stop
its restore, which may put what it has read into the cache that the purge has cleared.
`purges_interfere` has both runs; `purges_forget` is about the runs without.
-/

namespace Gescom.Mobile

open Transition

/-! ## What must hold -/

def Offline.Live (s : Offline) (i : Nat) : Prop := ∃ p, s.persistences[i]? = some p ∧ p.live = true

/-- A deletion of a purge is pending. -/
def Offline.Deleting (s : Offline) : Prop := ∃ statement ∈ s.statements, statement.purge ≠ none

def Offline.cached (s : Offline) : List CachedQuery := s.memory.rows ++ s.queryCache.getD []

structure Offline.Purged (s : Offline) : Prop where
  single : ∀ i j, s.Live i → s.Live j → i = j
  stoppable : ∀ i, ¬ s.purgeOfflineStore.Live i
  quiet : s.Deleting → ∀ i, ¬ s.Live i
  /-- No purge is under way, and the last one has done its deletions. -/
  forgotten : ∀ p older, s.purges = p :: older → (∀ q ∈ s.purges, q.outcome ≠ none) →
    p.outcome = some (.ok ()) → ∀ query ∈ s.cached, p.startedAt ≤ query.cachedAt

/-- In every run whose steps all meet `K`. -/
def PurgesForget (K : Offline → OfflineAction → Prop) (s₀ : Offline) : Prop :=
  ∀ s, Reach offline K s₀ s → s.Purged

/-- No restore in flight has read a query or may still read one. -/
structure Offline.NothingToRestore (s : Offline) : Prop where
  read : ∀ p ∈ s.persistences, ∀ client, p.phase = .read client → client = []
  reading : ∀ i, .restoreClient i ∈ s.statements → s.stored = []

/-- A purge starts while no other is under way and no restore has anything to put into the cache. -/
def Undisturbed (s : Offline) : OfflineAction → Prop
  | .purgeOfflineStore => (∀ p ∈ s.purges, p.outcome ≠ none) ∧ s.NothingToRestore
  | _ => True

/-! ## The statements -/

variable {R : Nat → Prop} {t : Nat} {s s' : Offline} {cache client : List CachedQuery}
  {statements : List Statement}

/-- Whenever `query_cache` is read, now or between the statements, all it has is of such times; what
a deletion takes away need not be. -/
def Later (R : Nat → Prop) : List CachedQuery → List Statement → Prop
  | cache, [] => Dated R cache
  | cache, .restoreClient _ :: statements => Dated R cache ∧ Later R cache statements
  | cache, .persistClient client :: statements => Later R client statements ∧ Later R cache statements
  | _, .removeClient _ :: statements => Later R [] statements
  | cache, .purgeTenantScoped _ :: statements => Later R cache statements

theorem later_append {more : List Statement} (h : Later R cache statements)
    (hmore : ∀ cache, Dated R cache → Later R cache more) : Later R cache (statements ++ more) := by
  induction statements generalizing cache with
  | nil => exact hmore cache h
  | cons statement statements ih =>
    cases statement with
    | restoreClient i => exact ⟨h.1, ih h.2⟩
    | persistClient client => exact ⟨ih h.1, ih h.2⟩
    | removeClient startedAt => exact @ih [] h
    | purgeTenantScoped startedAt => exact @ih cache h

theorem later_writes {writes : List (List CachedQuery)} (hwrites : ∀ client ∈ writes, Dated R client)
    (hcache : Dated R cache) : Later R cache (writes.map .persistClient) := by
  induction writes generalizing cache with
  | nil => exact hcache
  | cons client writes ih =>
    have hrest : ∀ client ∈ writes, Dated R client := fun c hc => hwrites c (List.mem_cons_of_mem _ hc)
    exact ⟨ih hrest (hwrites client List.mem_cons_self), ih hrest hcache⟩

/-- The deletions of a purge behind statements that read nothing. -/
theorem later_purge (startedAt : Nat)
    (h : ∀ i, .restoreClient i ∈ statements → cache ++ statements.flatMap Statement.client = []) :
    Later R cache (statements ++ [.removeClient startedAt, .purgeTenantScoped startedAt]) := by
  induction statements generalizing cache with
  | nil => exact dated_nil R
  | cons statement statements ih =>
    have hrest : ∀ i, .restoreClient i ∈ statements →
        cache = [] ∧ statement.client = [] ∧ statements.flatMap Statement.client = [] := by
      intro i hi
      have hempty := h i (List.mem_cons_of_mem _ hi)
      rwa [List.flatMap_cons, List.append_eq_nil_iff, List.append_eq_nil_iff] at hempty
    have hkeep : ∀ i, .restoreClient i ∈ statements →
        cache ++ statements.flatMap Statement.client = [] := by
      intro i hi
      obtain ⟨hcache, -, hclients⟩ := hrest i hi
      rw [hcache, hclients]
      rfl
    cases statement with
    | restoreClient j =>
      obtain ⟨rfl, -⟩ := List.append_eq_nil_iff.1 (h j List.mem_cons_self)
      exact ⟨dated_nil R, ih hkeep⟩
    | persistClient client =>
      refine ⟨ih fun i hi => ?_, ih hkeep⟩
      obtain ⟨-, hclient, hclients⟩ := hrest i hi
      rw [show client = [] from hclient, hclients]
      rfl
    | removeClient => exact @ih [] fun i hi => (hrest i hi).2.2
    | purgeTenantScoped => exact @ih cache hkeep

/-- No deletion is left. -/
theorem later_now (h : Later R cache statements)
    (hdeletes : ∀ statement ∈ statements, statement.purge = none) : Dated R cache := by
  induction statements generalizing cache with
  | nil => exact h
  | cons statement statements ih =>
    have hrest : ∀ statement ∈ statements, statement.purge = none := fun x hx =>
      hdeletes x (List.mem_cons_of_mem _ hx)
    cases statement with
    | restoreClient => exact h.1
    | persistClient => exact ih h.2 hrest
    | removeClient => cases hdeletes _ List.mem_cons_self
    | purgeTenantScoped => cases hdeletes _ List.mem_cons_self

/-! ## The invariant -/

/-- Everything that a read may find, a restore holds or the cache has is of the times `R`. -/
structure Offline.Keeps (R : Nat → Prop) (s : Offline) : Prop where
  memory : Dated R s.memory.rows
  read : ∀ p ∈ s.persistences, ∀ client, p.phase = .read client → Dated R client
  disk : Later R (s.queryCache.getD []) s.statements

/-- Of the last purge, as long as none of its deletions has failed. -/
structure Offline.Newest (s : Offline) (p : Purge) : Prop where
  begun : p.startedAt ≤ s.now
  honest : p.outcome = some (.ok ()) → p.failures = 0
  keeps : p.failures = 0 → s.Keeps (p.startedAt ≤ ·)

structure Offline.Guarded (s : Offline) : Prop where
  /-- Every persistence but the one that the variable names has been stopped. -/
  current : ∀ i p, s.persistences[i]? = some p → p.stopped = false → s.stopPersisting = some i
  suspended : ∀ p ∈ s.purges, p.outcome = none → s.stopPersisting = none
  older : ∀ p ∈ s.purges.tail, p.outcome ≠ none
  pending : ∀ statement ∈ s.statements, ∀ t, statement.purge = some t →
    ∃ p ∈ s.purges.head?, p.startedAt = t ∧ p.outcome = none
  newest : ∀ p ∈ s.purges.head?, s.Newest p

theorem stopped_of_live {p : Persistence} (h : p.live = true) : p.stopped = false := by
  unfold Persistence.live at h
  simp only [Bool.and_eq_true, Bool.not_eq_true'] at h
  exact h.2

theorem Offline.Guarded.live (h : s.Guarded) {i : Nat} (hlive : s.Live i) :
    s.stopPersisting = some i := by
  obtain ⟨p, hp, hopen⟩ := hlive
  exact h.current i p hp (stopped_of_live hopen)

/-- No purge is under way. -/
theorem Offline.Guarded.no_deletion (h : s.Guarded) (hsettled : ∀ p ∈ s.purges, p.outcome ≠ none) :
    ∀ statement ∈ s.statements, statement.purge = none := by
  intro statement hs
  cases hpurge : statement.purge with
  | none => rfl
  | some t =>
    obtain ⟨p, hp, -, hunder⟩ := h.pending statement hs t hpurge
    exact absurd hunder (hsettled p (List.mem_of_mem_head? hp))

theorem moduleLoad_guarded (d : Disk) : (moduleLoad d).Guarded where
  current i p hp _ := by
    obtain ⟨hi, -⟩ := List.getElem?_eq_some_iff.1 hp
    exact congrArg some (Nat.lt_one_iff.1 hi).symm
  suspended p hp := absurd hp List.not_mem_nil
  older p hp := absurd hp List.not_mem_nil
  pending statement hs t ht := by
    obtain rfl := List.mem_singleton.1 hs
    cases ht
  newest p hp := by cases hp

/-! ## Steps beside the purges -/

/-- A step that neither starts nor settles a purge, fails none of its deletions and stops no
persistence. -/
structure Offline.Beside (s s' : Offline) : Prop where
  persistences : ∀ (i : Nat) (p' : Persistence), s'.persistences[i]? = some p' →
    ∃ p : Persistence, s.persistences[i]? = some p ∧ p'.stopped = p.stopped
  stopPersisting : s'.stopPersisting = s.stopPersisting
  purges : s'.purges = s.purges
  now : s.now ≤ s'.now
  deletions : ∀ statement ∈ s'.statements, statement.purge ≠ none → statement ∈ s.statements
  keeps : ∀ R : Nat → Prop, R s.now → s.Keeps R → s'.Keeps R

theorem Offline.Guarded.beside (h : s.Guarded) (hb : s.Beside s') : s'.Guarded where
  current i p' hp' hopen := by
    obtain ⟨p, hp, hsame⟩ := hb.persistences i p' hp'
    rw [hb.stopPersisting]
    exact h.current i p hp (hsame ▸ hopen)
  suspended p hp hnone := by
    rw [hb.stopPersisting]
    exact h.suspended p (hb.purges ▸ hp) hnone
  older := by
    rw [hb.purges]
    exact h.older
  pending statement hs t ht := by
    rw [hb.purges]
    exact h.pending statement (hb.deletions statement hs (by simp [ht])) t ht
  newest p hp := by
    obtain ⟨hbegun, hhonest, hkeeps⟩ := h.newest p (hb.purges ▸ hp)
    exact ⟨Nat.le_trans hbegun hb.now, hhonest, fun hok => hb.keeps _ hbegun (hkeeps hok)⟩

theorem Offline.Keeps.changes (h : s.Keeps R) (hc : s.Changes R s') : s'.Keeps R := by
  obtain ⟨writes, hstatements, hwrites⟩ := hc.writes
  refine ⟨hc.memory, ?_, ?_⟩
  · rw [hc.frame]
    exact h.read
  · rw [hstatements, hc.frame]
    exact later_append h.disk fun cache hcache => later_writes hwrites hcache

/-- A change of the cache, whatever the data. -/
theorem Offline.Changes.beside (hc : s.Changes (fun _ => True) s')
    (hkeeps : ∀ R : Nat → Prop, R s.now → s.Keeps R → s.Changes R s') : s.Beside s' where
  persistences i p' hp' := by
    rw [hc.frame] at hp'
    exact ⟨p', hp', rfl⟩
  stopPersisting := by rw [hc.frame]
  purges := by rw [hc.frame]
  now := Nat.le_of_eq (congrArg Offline.now hc.frame).symm
  deletions statement hs hpurge := by
    obtain ⟨writes, hstatements, -⟩ := hc.writes
    rw [hstatements] at hs
    rcases List.mem_append.1 hs with hold | hnew
    · exact hold
    · obtain ⟨client, -, rfl⟩ := List.mem_map.1 hnew
      exact absurd rfl hpurge
  keeps R hnow h := h.changes (hkeeps R hnow h)

theorem beside_enter {i : Nat} {phase : PersistencePhase}
    (hphase : ∀ R, s.Keeps R → ∀ client, phase = .read client → Dated R client) :
    s.Beside (s.enter i phase) where
  persistences j p' hp' := by
    obtain ⟨p, hp, hstopped, -⟩ := getElem?_enter hp'
    exact ⟨p, hp, hstopped⟩
  stopPersisting := rfl
  purges := rfl
  now := Nat.le_refl _
  deletions _ hs _ := hs
  keeps R _ h := ⟨h.memory, read_enter h.read (hphase R h), h.disk⟩

theorem beside_tick : s.Beside { s with now := s.now + 1 } where
  persistences _ p' hp' := ⟨p', hp', rfl⟩
  stopPersisting := rfl
  purges := rfl
  now := Nat.le_succ _
  deletions _ hs _ := hs
  keeps _ _ h := ⟨h.memory, h.read, h.disk⟩

theorem beside_executed {statement : Statement} (hs : s.statements = statement :: statements)
    (queryCache : Option (List CachedQuery))
    (h : ∀ R, Later R (s.queryCache.getD []) (statement :: statements) →
      Later R (queryCache.getD []) statements) :
    s.Beside { s with queryCache, statements } where
  persistences _ p' hp' := ⟨p', hp', rfl⟩
  stopPersisting := rfl
  purges := rfl
  now := Nat.le_refl _
  deletions _ hold _ := hs ▸ List.mem_cons_of_mem _ hold
  keeps R _ hkeeps := ⟨hkeeps.memory, hkeeps.read, h R (hs ▸ hkeeps.disk)⟩

theorem Offline.Guarded.event (h : s.Guarded) (event : CacheEvent) :
    Offline.Guarded { s.changed (event.apply s.now s.memory) with now := s.now + 1 } := by
  have hchange : s.Beside (s.changed (event.apply s.now s.memory)) :=
    (changes_changed (dated_true _)).beside fun R hnow hkeeps =>
      changes_changed (dated_apply event hkeeps.memory hnow)
  exact (h.beside hchange).beside beside_tick

theorem Offline.Guarded.hydrate (h : s.Guarded) {i : Nat} {stopped : Bool}
    (hi : s.persistences[i]? = some ⟨.read client, stopped⟩) :
    ((s.hydrate client).enter i .restored).Guarded := by
  have hchange : s.Beside (s.hydrate client) :=
    (changes_hydrate (dated_true _) (dated_true _)).beside fun R _ hkeeps =>
      changes_hydrate hkeeps.memory (hkeeps.read _ (List.mem_of_getElem? hi) client rfl)
  exact (h.beside hchange).beside (beside_enter fun _ _ _ hphase => by cases hphase)

theorem Offline.Guarded.subscribe (h : s.Guarded) (i : Nat) (stopped : Bool) :
    (s.enter i (if stopped then .ended else .subscribed)).Guarded := by
  refine h.beside (beside_enter fun _ _ _ hphase => ?_)
  cases stopped <;> cases hphase

/-! ## Steps of the purges -/

theorem head?_map_eq_some {f : Purge → Purge} {ps : List Purge} {p' : Purge}
    (h : p' ∈ (ps.map f).head?) : ∃ p ∈ ps.head?, f p = p' := by
  rw [List.head?_map] at h
  exact Option.map_eq_some_iff.1 h

/-- A deletion that fails is one of the last purge, which is under way. -/
theorem Offline.Guarded.fail (h : s.Guarded) {statement : Statement}
    (hs : s.statements = statement :: statements) (hpurge : statement.purge = some t) :
    (Offline.fail t { s with statements }).Guarded := by
  obtain ⟨last, hlast, hstarted, hnone⟩ :=
    h.pending statement (hs ▸ List.mem_cons_self) t hpurge
  have hsame : ∀ p : Purge, (if p.startedAt = t then { p with failures := p.failures + 1 }
      else p).outcome = p.outcome := fun p => by split <;> rfl
  refine ⟨h.current, fun p' hp' hp'none => ?_, fun p' hp' => ?_, fun x hx t' ht' => ?_,
    fun p' hp' => ?_⟩
  · obtain ⟨p, hp, rfl⟩ := List.mem_map.1 hp'
    exact h.suspended p hp ((hsame p).symm.trans hp'none)
  · simp only [Offline.fail, ← List.map_tail] at hp'
    obtain ⟨p, hp, rfl⟩ := List.mem_map.1 hp'
    rw [hsame]
    exact h.older p hp
  · obtain ⟨p, hp, rfl, hpnone⟩ := h.pending x (hs ▸ List.mem_cons_of_mem _ hx) t' ht'
    refine ⟨if p.startedAt = t then { p with failures := p.failures + 1 } else p, ?_, ?_, ?_⟩
    · simp only [Offline.fail, List.head?_map]
      exact Option.mem_map_of_mem _ hp
    · split <;> rfl
    · rw [hsame, hpnone]
  · obtain ⟨p, hp, rfl⟩ := head?_map_eq_some hp'
    obtain rfl := Option.mem_unique hp hlast
    rw [if_pos hstarted]
    refine ⟨(h.newest p hp).begun, fun hok => ?_, fun hzero => ?_⟩
    · rw [show p.outcome = some (.ok ()) from hok] at hnone
      cases hnone
    · cases hzero

theorem Offline.Guarded.execute (h : s.Guarded) {statement : Statement}
    (hs : s.statements = statement :: statements) (ok : Bool) :
    (Offline.execute ok { s with statements } statement).Guarded := by
  cases statement with
  | restoreClient i =>
    have hread : s.Beside (s.enter i (.read (s.queryCache.getD []))) := by
      refine beside_enter fun R hkeeps client hphase => ?_
      cases hphase
      have hdisk := hkeeps.disk
      rw [hs] at hdisk
      exact hdisk.1
    have hdone := beside_executed (s := s.enter i (.read (s.queryCache.getD []))) hs s.queryCache
      fun _ hlater => hlater.2
    exact (h.beside hread).beside hdone
  | persistClient client =>
    cases ok with
    | true => exact h.beside (beside_executed hs (some client) fun _ hlater => hlater.1)
    | false => exact h.beside (beside_executed hs s.queryCache fun _ hlater => hlater.2)
  | removeClient startedAt =>
    cases ok with
    | true => exact h.beside (beside_executed hs none fun _ hlater => hlater)
    | false => exact h.fail hs rfl
  | purgeTenantScoped startedAt =>
    cases ok with
    | true => exact h.beside (beside_executed hs s.queryCache fun _ hlater => hlater)
    | false => exact h.fail hs rfl

theorem Offline.Guarded.stopped (h : s.Guarded) : ∀ p ∈ s.suspend.persistences, p.stopped = true := by
  intro p' hp'
  obtain ⟨i, hi⟩ := List.mem_iff_getElem?.1 hp'
  obtain ⟨p, hp, -, hopen⟩ := getElem?_suspend hi
  rw [← Bool.not_eq_false]
  intro hfalse
  obtain ⟨hstopped, hother⟩ := hopen hfalse
  exact hother (h.current i p hp hstopped)

theorem live_of_stopped {p : Persistence} (h : p.stopped = true) : p.live = false := by
  unfold Persistence.live
  rw [h, Bool.not_true, Bool.and_false]

/-- A purge up to its first `await`. -/
theorem Offline.Guarded.purgeOfflineStore_eq (h : s.Guarded) :
    s.purgeOfflineStore =
      { s.suspend with
        memory := .empty
        statements := s.statements ++ [.removeClient s.now, .purgeTenantScoped s.now]
        purges := { startedAt := s.now } :: s.purges
        now := s.now + 1 } := by
  have hclear := clear_of_quiet fun p hp => live_of_stopped (h.stopped p hp)
  simp only [Offline.purgeOfflineStore, Offline.withPersistenceSuspended, hclear]
  rfl

theorem Offline.Guarded.purge (h : s.Guarded) (hK : Undisturbed s .purgeOfflineStore) :
    s.purgeOfflineStore.Guarded := by
  obtain ⟨hsettled, hnothing⟩ := hK
  have hnone := h.no_deletion hsettled
  rw [h.purgeOfflineStore_eq]
  refine ⟨fun i p hp hopen => ?_, fun p _ _ => rfl, hsettled, fun statement hs t ht => ?_,
    fun p hp => ?_⟩
  · rw [h.stopped p (List.mem_of_getElem? hp)] at hopen
    cases hopen
  · refine ⟨{ startedAt := s.now }, rfl, ?_, rfl⟩
    rcases List.mem_append.1 hs with hold | hnew
    · rw [hnone statement hold] at ht
      cases ht
    · simp only [List.mem_cons, List.not_mem_nil, or_false] at hnew
      rcases hnew with rfl | rfl
      · exact Option.some.inj ht
      · exact Option.some.inj ht
  · cases hp
    refine ⟨Nat.le_succ s.now, fun hok => (by cases hok), fun _ => ⟨dated_nil _, ?_, ?_⟩⟩
    · intro p' hp' client hclient
      obtain ⟨i, hi⟩ := List.mem_iff_getElem?.1 hp'
      obtain ⟨p, hp, hphase, -⟩ := getElem?_suspend hi
      rw [hnothing.read p (List.mem_of_getElem? hp) client (hphase ▸ hclient)]
      exact dated_nil _
    · exact later_purge s.now hnothing.reading

/-- The purge that is under way is the last one. -/
theorem Offline.Guarded.last (h : s.Guarded) {p : Purge} (hp : p ∈ s.purges)
    (hunder : p.outcome = none) : s.purges.head? = some p := by
  cases hpurges : s.purges with
  | nil =>
    rw [hpurges] at hp
    cases hp
  | cons last older =>
    have holder := h.older
    rw [hpurges] at hp holder
    rcases List.mem_cons.1 hp with rfl | hold
    · rfl
    · exact absurd hunder (holder p hold)

theorem failures_of_result {p : Purge} (h : p.result = .ok ()) : p.failures = 0 := by
  unfold Purge.result at h
  split at h
  · cases h
  · rename_i hnone
    exact Nat.eq_zero_of_not_pos hnone

/-- The read of a persistence that starts finds what `query_cache` ends up with. -/
theorem Offline.Keeps.start (h : s.Keeps R) : s.startPersisting.Keeps R := by
  refine ⟨h.memory, fun p hp client hclient => ?_, ?_⟩
  · rcases List.mem_append.1 hp with hold | hnew
    · exact h.read p hold client hclient
    · obtain rfl := List.mem_singleton.1 hnew
      cases hclient
  · exact later_append h.disk fun _ hcache => ⟨hcache, hcache⟩

/-- A persistence starts while every other has been stopped. -/
theorem current_start
    (h : ∀ (i : Nat) (p : Persistence), s.persistences[i]? = some p → p.stopped = true) (i : Nat)
    (p : Persistence) (hp : s.startPersisting.persistences[i]? = some p) (hopen : p.stopped = false) :
    s.startPersisting.stopPersisting = some i := by
  simp only [Offline.startPersisting, List.getElem?_append] at hp
  split at hp
  · rw [h i p hp] at hopen
    cases hopen
  · obtain ⟨hi, -⟩ := List.getElem?_eq_some_iff.1 hp
    have heq : s.persistences.length = i := by
      simp only [List.length_singleton] at hi
      omega
    exact congrArg some heq

/-- No deletion is left when the purge settles. -/
theorem Offline.Guarded.settle (h : s.Guarded) {p : Purge} (hp : p ∈ s.purges)
    (hstarted : p.startedAt = t) (hunder : p.outcome = none)
    (hdone : ∀ statement ∈ s.statements, statement.purge ≠ some t) : (s.settle t).Guarded := by
  have hlast : s.purges.head? = some p := h.last hp hunder
  have hsettled : ∀ q ∈ s.purges, (if q.startedAt = t then q.settle else q).outcome ≠ none := by
    intro q hq
    split
    · exact Option.some_ne_none _
    · intro hqunder
      cases hlast.symm.trans (h.last hq hqunder)
      contradiction
  have hnone : ∀ statement ∈ s.statements, statement.purge = none := by
    intro statement hs
    cases hpurge : statement.purge with
    | none => rfl
    | some t' =>
      obtain ⟨q, hq, rfl, -⟩ := h.pending statement hs t' hpurge
      cases hlast.symm.trans hq
      exact absurd (hstarted ▸ hpurge) (hdone statement hs)
  have hstopped : ∀ (i : Nat) (q : Persistence), s.persistences[i]? = some q → q.stopped = true := by
    intro i q hq
    rw [← Bool.not_eq_false]
    intro hopen
    have hcurrent := h.current i q hq hopen
    rw [h.suspended p hp hunder] at hcurrent
    cases hcurrent
  refine ⟨current_start hstopped, fun q' hq' hunsettled => ?_, fun q' hq' => ?_,
    fun statement hs t' ht' => ?_, fun q' hq' => ?_⟩
  · obtain ⟨q, hq, rfl⟩ := List.mem_map.1 hq'
    exact absurd hunsettled (hsettled q hq)
  · obtain ⟨q, hq, rfl⟩ := List.mem_map.1 (List.mem_of_mem_tail hq')
    exact hsettled q hq
  · rcases List.mem_append.1 hs with hold | hnew
    · rw [hnone statement hold] at ht'
      cases ht'
    · obtain rfl := List.mem_singleton.1 hnew
      cases ht'
  · obtain ⟨q, hq, rfl⟩ := head?_map_eq_some hq'
    obtain rfl := Option.mem_unique hq hlast
    obtain ⟨hbegun, -, hkeeps⟩ := h.newest q hlast
    rw [if_pos hstarted]
    refine ⟨hbegun, fun hok => failures_of_result (Option.some.inj hok), fun hzero => ?_⟩
    obtain ⟨hmemory, hread, hdisk⟩ := hkeeps hzero
    exact Offline.Keeps.start ⟨hmemory, hread, hdisk⟩

theorem Offline.Guarded.step (h : s.Guarded) {a : OfflineAction} (hK : Undisturbed s a)
    (hst : s.step a = some s') : s'.Guarded := by
  cases moves_of_step hst with
  | purge => exact h.purge hK
  | sqlite ok issued => exact h.execute issued ok
  | hydrate phase => exact h.hydrate phase
  | subscribe => exact h.subscribe _ _
  | settle called underWay deleted => exact h.settle called rfl underWay deleted
  | cache event => exact h.event event

theorem Offline.Guarded.purged (h : s.Guarded) : s.Purged where
  single i j hi hj := Option.some.inj ((h.live hi).symm.trans (h.live hj))
  stoppable i hlive := by
    rw [h.purgeOfflineStore_eq] at hlive
    obtain ⟨p, hp, hopen⟩ := hlive
    rw [live_of_stopped (h.stopped p (List.mem_of_getElem? hp))] at hopen
    cases hopen
  quiet := by
    rintro ⟨statement, hs, hpurge⟩ i hlive
    obtain ⟨t, ht⟩ := Option.ne_none_iff_exists'.1 hpurge
    obtain ⟨p, hp, -, hunder⟩ := h.pending statement hs t ht
    have hnone := h.suspended p (List.mem_of_mem_head? hp) hunder
    rw [h.live hlive] at hnone
    cases hnone
  forgotten p older hpurges hsettled hok := by
    have hp : s.purges.head? = some p := by
      rw [hpurges]
      rfl
    obtain ⟨-, hhonest, hkeeps⟩ := h.newest p hp
    obtain ⟨hmemory, -, hdisk⟩ := hkeeps (hhonest hok)
    intro query hquery
    rcases List.mem_append.1 hquery with hmem | hstored
    · exact hmemory query hmem
    · exact later_now hdisk (h.no_deletion hsettled) query hstored

/-! ## The result -/

theorem purges_forget (d : Disk) : PurgesForget Undisturbed (moduleLoad d) := by
  intro s hr
  have hguarded : s.Guarded :=
    hr.inv Offline.Guarded (moduleLoad_guarded d) fun _ _ _ _ ih hK hst => ih.step hK hst
  exact hguarded.purged

/-- The list of the customers, of the day before. -/
def sampleQuery : CachedQuery := ⟨[.text "customers"], .success, 0⟩

def sampleDisk : Disk where
  queryCache := some [sampleQuery]
  now := 1
  cachedBefore query hquery := by
    obtain rfl := List.mem_singleton.1 hquery
    exact Nat.zero_lt_one

theorem live_of_map {i : Nat} (h : (s.persistences.map Persistence.live)[i]? = some true) :
    s.Live i := by
  rw [List.getElem?_map] at h
  exact Option.map_eq_some_iff.1 h

theorem reach_of_run {as : List OfflineAction} {s₀ : Offline}
    (h : exec offline (fun _ _ => true) s₀ as = some s) : Reach offline Always s₀ s :=
  Reach.of_exec _ (fun _ _ _ => trivial) as h

/-- The purges of two logouts overlap: two subscriptions are open, and the next purge stops one. -/
theorem double_logout : ∃ s, Reach offline Always (moduleLoad sampleDisk) s ∧ s.Live 1 ∧ s.Live 2 ∧
    s.purgeOfflineStore.Live 1 := by
  have hrun : ((exec offline (fun _ _ => true) (moduleLoad sampleDisk)
      [.sqlite true, .hydrate 0, .subscribe 0, .purgeOfflineStore, .purgeOfflineStore, .sqlite true,
        .sqlite true, .sqlite true, .sqlite true, .settle 1, .settle 2, .sqlite true, .sqlite true,
        .hydrate 1, .subscribe 1, .hydrate 2, .subscribe 2]).map fun s =>
      (s.persistences.map Persistence.live, s.purgeOfflineStore.persistences.map Persistence.live)) =
      some ([false, true, true], [false, true, false]) := by decide +kernel
  obtain ⟨s, hs, hend⟩ := Option.map_eq_some_iff.1 hrun
  obtain ⟨hopen, hleft⟩ := Prod.mk.inj hend
  refine ⟨s, reach_of_run hs, live_of_map ?_, live_of_map ?_, live_of_map ?_⟩
  · rw [hopen]
    rfl
  · rw [hopen]
    rfl
  · rw [hleft]
    rfl

/-- A cold start without a token purges while the restore of the module load is in flight: both caches
end up with what was cached before the purge. -/
theorem late_hydration : ∃ s, Reach offline Always (moduleLoad sampleDisk) s ∧
    s.memory.rows = [sampleQuery] ∧ s.queryCache = some [sampleQuery] ∧
      s.purges = [{ startedAt := 1, outcome := some (.ok ()) }] := by
  have hrun : ((exec offline (fun _ _ => true) (moduleLoad sampleDisk)
      [.sqlite true, .purgeOfflineStore, .sqlite true, .sqlite true, .settle 1, .hydrate 0,
        .sqlite true, .hydrate 1, .subscribe 1, .cache .updated, .sqlite true]).map fun s =>
      (s.memory.rows, s.queryCache, s.purges)) =
      some ([sampleQuery], some [sampleQuery], [{ startedAt := 1, outcome := some (.ok ()) }]) := by
    decide +kernel
  obtain ⟨s, hs, hend⟩ := Option.map_eq_some_iff.1 hrun
  obtain ⟨hmemory, hrest⟩ := Prod.mk.inj hend
  obtain ⟨hcache, hpurges⟩ := Prod.mk.inj hrest
  exact ⟨s, reach_of_run hs, hmemory, hcache, hpurges⟩

/-- Either run breaks what must hold. -/
theorem purges_interfere :
    (∃ s, Reach offline Always (moduleLoad sampleDisk) s ∧
      (∃ i j, i ≠ j ∧ s.Live i ∧ s.Live j) ∧ ∃ i, s.purgeOfflineStore.Live i) ∧
    (∃ s, Reach offline Always (moduleLoad sampleDisk) s ∧
      ∃ p, s.purges = [p] ∧ p.outcome = some (.ok ()) ∧
        ∃ query ∈ s.cached, query.cachedAt < p.startedAt) ∧
    ¬ PurgesForget Always (moduleLoad sampleDisk) := by
  obtain ⟨s, hr, hfirst, hsecond, hleft⟩ := double_logout
  obtain ⟨s', hr', hmemory, -, hpurges⟩ := late_hydration
  refine ⟨⟨s, hr, ⟨1, 2, by decide, hfirst, hsecond⟩, 1, hleft⟩,
    ⟨s', hr', _, hpurges, rfl, sampleQuery, ?_, ?_⟩, fun hforget => ?_⟩
  · exact List.mem_append_left _ (hmemory ▸ List.mem_singleton.2 rfl)
  · exact Nat.zero_lt_one
  · have hsame : 1 = 2 := (hforget s hr).single 1 2 hfirst hsecond
    cases hsame

end Gescom.Mobile
