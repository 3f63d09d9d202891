import Mathlib
import Gescom.Stock.Documents

/-!
# `runWithSerializableRetry` (`serializable-retry.ts:32`)

A transaction that fails with P2034 has committed nothing, so it is run again as a whole, after a
delay that doubles, is capped and has some jitter. Any other outcome leaves the loop at once, and so
does the last failure. The operation is arbitrary: what it does may change with each call, as the
other transactions do.
-/

namespace Gescom

/-- What an operation throws: an error of Prisma with its code, or any other. -/
inductive Thrown (ε : Type) where
  | prisma (code : PrismaCode) (error : ε)
  | other (error : ε)
  deriving Repr

def isSerializationFailure {ε : Type} : Thrown ε → Bool
  | .prisma .p2034 _ => true
  | _ => false

/-- The n-th call (from 1) of the callback, on the data it may commit to. -/
abbrev Operation (σ ε α : Type) := Nat → σ → Except (Thrown ε) α × σ

structure SerializableRetryOptions where
  maxAttempts : Option Nat := none
  baseDelayMs : Option ℚ := none

def defaultMaxAttempts : Nat := 3

def defaultBaseDelayMs : ℚ := 25

def maxDelayMs : ℚ := 100

def SerializableRetryOptions.attempts (o : SerializableRetryOptions) : Nat :=
  o.maxAttempts.getD defaultMaxAttempts

def SerializableRetryOptions.baseDelay (o : SerializableRetryOptions) : ℚ :=
  o.baseDelayMs.getD defaultBaseDelayMs

/-- What `Math.random` returns. -/
abbrev Random := { r : ℚ // 0 ≤ r ∧ r < 1 }

/-- `Math.min(baseDelayMs * 2 ** (attempt - 1), MAX_DELAY_MS)`. -/
def delay (base : ℚ) (attempt : Nat) : ℚ := min (base * 2 ^ (attempt - 1)) maxDelayMs

/-- What is given to `sleep` after the given attempt. -/
def sleepMs (base : ℚ) (random : Nat → Random) (attempt : Nat) : ℚ :=
  delay base attempt + delay base attempt * (random attempt).val * (1 / 2)

inductive RetryEvent where
  | call
  | sleep (ms : ℚ)
  deriving DecidableEq

/-- How a run ends (`lastError` is undefined until a call has failed), what it did, and the data it
leaves. -/
structure RetryRun (σ ε α : Type) where
  result : Except (Option (Thrown ε)) α
  events : List RetryEvent
  state : σ

def RetryRun.prepend {σ ε α : Type} (events : List RetryEvent) (run : RetryRun σ ε α) :
    RetryRun σ ε α :=
  { run with events := events ++ run.events }

def RetryRun.calls {σ ε α : Type} (run : RetryRun σ ε α) : Nat :=
  (run.events.filter (· == .call)).length

section
variable {σ ε α : Type} (operation : Operation σ ε α)

/-- The `for` loop, over the attempts that are left. -/
def retryLoop (maxAttempts : Nat) (base : ℚ) (random : Nat → Random) :
    List Nat → Option (Thrown ε) → σ → RetryRun σ ε α
  | [], lastError, s => ⟨.error lastError, [], s⟩
  | attempt :: rest, _, s =>
    match operation attempt s with
    | (.ok a, s') => ⟨.ok a, [.call], s'⟩
    | (.error e, s') =>
      if !isSerializationFailure e then ⟨.error (some e), [.call], s'⟩
      else if attempt < maxAttempts then
        (retryLoop maxAttempts base random rest (some e) s').prepend
          [.call, .sleep (sleepMs base random attempt)]
      else (retryLoop maxAttempts base random rest (some e) s').prepend [.call]

def runWithSerializableRetry (options : SerializableRetryOptions) (random : Nat → Random) (s : σ) :
    RetryRun σ ε α :=
  retryLoop operation options.attempts options.baseDelay random (List.range' 1 options.attempts)
    none s

/-! ## The outcomes of the calls -/

/-- The data after the first calls. -/
def stateAfter (s : σ) : Nat → σ
  | 0 => s
  | n + 1 => (operation (n + 1) (stateAfter s n)).2

/-- What the n-th call comes to, when every earlier one has been made. -/
def outcome (s : σ) (n : Nat) : Except (Thrown ε) α :=
  (operation n (stateAfter operation s (n - 1))).1

end

section
variable {σ ε α : Type} {operation : Operation σ ε α} {s : σ}

/-- The outcome of a call is a P2034 failure. -/
def Conflicts (r : Except (Thrown ε) α) : Prop :=
  ∃ e, r = .error e ∧ isSerializationFailure e = true

/-- The position, from 1, of the first outcome that is not a P2034 failure. -/
structure FirstSettled (outcome : Nat → Except (Thrown ε) α) (i : Nat) : Prop where
  one_le : 1 ≤ i
  settled : ¬ Conflicts (outcome i)
  before : ∀ n, 1 ≤ n → n < i → Conflicts (outcome n)

/-- A call, and a sleep before each further one. -/
def alternating (sleeps : List ℚ) : List RetryEvent :=
  .call :: sleeps.flatMap fun ms => [.sleep ms, .call]

theorem alternating_cons (ms : ℚ) (sleeps : List ℚ) :
    alternating (ms :: sleeps) = [.call, .sleep ms] ++ alternating sleeps := rfl

theorem calls_alternating (sleeps : List ℚ) :
    ((alternating sleeps).filter (· == .call)).length = sleeps.length + 1 := by
  induction sleeps with
  | nil => rfl
  | cons ms sleeps ih =>
    rw [alternating_cons, List.filter_append, List.length_append, ih]
    exact Nat.add_comm 1 _

/-- What is thrown or returned for the outcome of a call. -/
def settle (r : Except (Thrown ε) α) : Except (Option (Thrown ε)) α := r.mapError some

/-! ## The loop -/

/-- The run makes the calls `first` to `last`, and only the last one may settle it. -/
structure Runs (operation : Operation σ ε α) (s : σ) (maxAttempts : Nat) (base : ℚ)
    (random : Nat → Random) (first last : Nat) (run : RetryRun σ ε α) : Prop where
  first_le : first ≤ last
  last_le : last ≤ maxAttempts
  conflicts : ∀ n, first ≤ n → n < last → Conflicts (outcome operation s n)
  stops : last = maxAttempts ∨ ¬ Conflicts (outcome operation s last)
  result : run.result = settle (outcome operation s last)
  events : run.events =
    alternating ((List.range' first (last - first)).map (sleepMs base random))
  state : run.state = stateAfter operation s last

variable {maxAttempts : Nat} {base : ℚ} {random : Nat → Random}

theorem outcome_succ (s : σ) (k : Nat) :
    outcome operation s (k + 1) = (operation (k + 1) (stateAfter operation s k)).1 := rfl

/-- The run that makes one more call only. -/
def RetryRun.single (call : Except (Thrown ε) α × σ) : RetryRun σ ε α :=
  ⟨settle call.1, [.call], call.2⟩

/-- An attempt settles the run. -/
theorem retryLoop_settled {attempt : Nat} (rest : List Nat) (lastError : Option (Thrown ε))
    (h : ¬ Conflicts (operation attempt s).1) :
    retryLoop operation maxAttempts base random (attempt :: rest) lastError s =
      .single (operation attempt s) := by
  unfold retryLoop RetryRun.single
  split
  · rename_i hcall
    rw [hcall]
    rfl
  · rename_i e s' hcall
    rw [hcall] at h ⊢
    have hfailure : isSerializationFailure e = false := by
      by_contra hfailure
      exact h ⟨e, rfl, Bool.not_eq_false _ ▸ hfailure⟩
    rw [hfailure]
    rfl

/-- The last attempt fails with P2034: its error is thrown after the loop. -/
theorem retryLoop_last {attempt : Nat} (lastError : Option (Thrown ε))
    (hlast : attempt = maxAttempts) (h : Conflicts (operation attempt s).1) :
    retryLoop operation maxAttempts base random [attempt] lastError s =
      .single (operation attempt s) := by
  obtain ⟨e, hcall, hfailure⟩ := h
  unfold retryLoop RetryRun.single
  split
  · rename_i hcall'
    rw [hcall'] at hcall
    cases hcall
  · rename_i e' s' hcall'
    rw [hcall'] at hcall ⊢
    cases hcall
    rw [hfailure, if_neg (by decide), if_neg (Nat.not_lt.2 (Nat.le_of_eq hlast.symm))]
    rfl

/-- Another attempt fails with P2034: the loop sleeps, and goes on. -/
theorem retryLoop_again (base : ℚ) (random : Nat → Random) {attempt : Nat} (rest : List Nat)
    (lastError : Option (Thrown ε))
    (hlt : attempt < maxAttempts) (h : Conflicts (operation attempt s).1) :
    ∃ e, retryLoop operation maxAttempts base random (attempt :: rest) lastError s =
      (retryLoop operation maxAttempts base random rest (some e) (operation attempt s).2).prepend
        [.call, .sleep (sleepMs base random attempt)] := by
  obtain ⟨e, hcall, hfailure⟩ := h
  refine ⟨e, ?_⟩
  conv_lhs => unfold retryLoop
  split
  · rename_i hcall'
    rw [hcall'] at hcall
    cases hcall
  · rename_i e' s' hcall'
    rw [hcall'] at hcall ⊢
    cases hcall
    rw [hfailure, if_neg (by decide), if_pos hlt]

theorem Runs.single {k : Nat} (hle : k + 1 ≤ maxAttempts)
    (hstops : k + 1 = maxAttempts ∨ ¬ Conflicts (outcome operation s (k + 1))) :
    Runs operation s maxAttempts base random (k + 1) (k + 1)
      (.single (operation (k + 1) (stateAfter operation s k))) where
  first_le := Nat.le_refl _
  last_le := hle
  conflicts n hn hlt := absurd hlt (Nat.not_lt.2 hn)
  stops := hstops
  result := rfl
  events := by rw [Nat.sub_self]; rfl
  state := rfl

theorem Runs.again {k last : Nat} {run : RetryRun σ ε α}
    (h : Runs operation s maxAttempts base random (k + 1) last run)
    (hconflict : Conflicts (outcome operation s k)) :
    Runs operation s maxAttempts base random k last
      (run.prepend [.call, .sleep (sleepMs base random k)]) where
  first_le := Nat.le_of_succ_le h.first_le
  last_le := h.last_le
  conflicts n hn hlt := by
    obtain rfl | hlt' := Nat.eq_or_lt_of_le hn
    · exact hconflict
    · exact h.conflicts n hlt' hlt
  stops := h.stops
  result := h.result
  events := by
    have hlen : last - k = (last - (k + 1)) + 1 := by
      have := h.first_le
      omega
    rw [hlen, List.range'_succ, List.map_cons, alternating_cons, ← h.events]
    rfl
  state := h.state

theorem retryLoop_runs (operation : Operation σ ε α) (base : ℚ) (random : Nat → Random) (s : σ)
    (r : Nat) : ∀ (k : Nat) (lastError : Option (Thrown ε)),
    k + r + 1 = maxAttempts → ∃ last, Runs operation s maxAttempts base random (k + 1) last
      (retryLoop operation maxAttempts base random (List.range' (k + 1) (r + 1)) lastError
        (stateAfter operation s k)) := by
  induction r with
  | zero =>
    intro k lastError hk
    have hlast : k + 1 = maxAttempts := hk
    refine ⟨k + 1, ?_⟩
    by_cases h : Conflicts (operation (k + 1) (stateAfter operation s k)).1
    · rw [List.range'_one, retryLoop_last lastError hlast h]
      exact Runs.single (Nat.le_of_eq hlast) (.inl hlast)
    · rw [List.range'_one, retryLoop_settled [] lastError h]
      exact Runs.single (Nat.le_of_eq hlast) (.inl hlast)
  | succ r ih =>
    intro k lastError hk
    have hlt : k + 1 < maxAttempts := by omega
    rw [List.range'_succ]
    by_cases h : Conflicts (operation (k + 1) (stateAfter operation s k)).1
    · obtain ⟨e, heq⟩ :=
        retryLoop_again base random (List.range' (k + 1 + 1) (r + 1)) lastError hlt h
      obtain ⟨last, hruns⟩ := ih (k + 1) (some e) (by omega)
      rw [heq]
      exact ⟨last, hruns.again h⟩
    · rw [retryLoop_settled _ lastError h]
      exact ⟨k + 1, Runs.single (Nat.le_of_lt hlt) (.inr h)⟩

/-- The loop of `runWithSerializableRetry`, up to the call that settles it. -/
theorem runs_of_one_le (operation : Operation σ ε α) (random : Nat → Random) (s : σ)
    {options : SerializableRetryOptions} (h : 1 ≤ options.attempts) :
    ∃ last, Runs operation s options.attempts options.baseDelay random 1 last
      (runWithSerializableRetry operation options random s) := by
  obtain ⟨r, hr⟩ := Nat.exists_eq_add_of_le' h
  have hruns := retryLoop_runs operation options.baseDelay random s r 0 none
    ((Nat.zero_add r).symm ▸ hr.symm)
  unfold runWithSerializableRetry
  rw [hr] at hruns ⊢
  exact hruns

/-! ## The sleeps -/

/-- Up to half as long again as the delay; with a negative delay the bounds change places. -/
theorem sleepMs_mem (base : ℚ) (random : Nat → Random) (attempt : Nat) :
    sleepMs base random attempt ∈ Set.uIcc 0 (3 / 2 * delay base attempt) := by
  obtain ⟨hr, hr'⟩ := (random attempt).property
  rw [Set.mem_uIcc]
  obtain hdelay | hdelay := le_total 0 (delay base attempt)
  · have hjitter := mul_le_mul_of_nonneg_left hr'.le hdelay
    have hpos := mul_nonneg hdelay hr
    left
    constructor <;> simp only [sleepMs] <;> linarith
  · have hjitter := mul_le_mul_of_nonpos_left hr'.le hdelay
    have hneg := mul_nonpos_of_nonpos_of_nonneg hdelay hr
    right
    constructor <;> simp only [sleepMs] <;> linarith

/-! ## The result -/

/-- How often the operation is called, what comes out, and how long the run sleeps in between. -/
structure AsOftenAsNeeded (operation : Operation σ ε α) (options : SerializableRetryOptions)
    (s : σ) (run : RetryRun σ ε α) : Prop where
  calls : ∀ i, FirstSettled (outcome operation s) i → run.calls = min options.attempts i
  unsettled : (∀ n, 1 ≤ n → Conflicts (outcome operation s n)) → run.calls = options.attempts
  settled : ∀ i, FirstSettled (outcome operation s) i → i ≤ options.attempts →
    run.result = settle (outcome operation s i)
  exhausted : (∀ n, 1 ≤ n → n ≤ options.attempts → Conflicts (outcome operation s n)) →
    run.result = settle (outcome operation s options.attempts)
  sleeps : ∃ sleeps, run.events = alternating sleeps ∧ ∀ n ms, sleeps[n]? = some ms →
    ms ∈ Set.uIcc 0 (3 / 2 * delay options.baseDelay (n + 1))
  once : (∀ n d, Conflicts (operation n d).1 → (operation n d).2 = d) →
    run.state = (operation run.calls s).2

variable {run : RetryRun σ ε α} {last : Nat}

theorem Runs.calls (h : Runs operation s maxAttempts base random 1 last run) :
    run.calls = last := by
  rw [RetryRun.calls, h.events, calls_alternating, List.length_map, List.length_range']
  exact Nat.sub_add_cancel h.first_le

theorem Runs.eq_settled (h : Runs operation s maxAttempts base random 1 last run) {i : Nat}
    (hi : FirstSettled (outcome operation s) i) (hle : i ≤ maxAttempts) : last = i := by
  obtain hlt | heq | hlt := Nat.lt_trichotomy last i
  · have hlast := h.stops.resolve_right (not_not.2 (hi.before last h.first_le hlt))
    omega
  · exact heq
  · exact absurd (h.conflicts i hi.one_le hlt) hi.settled

theorem Runs.eq_maxAttempts (h : Runs operation s maxAttempts base random 1 last run)
    (hall : ∀ n, 1 ≤ n → n ≤ maxAttempts → Conflicts (outcome operation s n)) :
    last = maxAttempts :=
  h.stops.resolve_right (not_not.2 (hall last h.first_le h.last_le))

/-- When P2034 means that nothing was committed, the calls before the last have changed nothing. -/
theorem stateAfter_eq (hclean : ∀ n d, Conflicts (operation n d).1 → (operation n d).2 = d)
    (last : Nat) (hconflicts : ∀ n, 1 ≤ n → n < last → Conflicts (outcome operation s n)) :
    ∀ k, k < last → stateAfter operation s k = s := by
  intro k
  induction k with
  | zero => exact fun _ => rfl
  | succ k ih =>
    intro hk
    have hconflict := hconflicts (k + 1) (Nat.succ_pos k) hk
    rw [outcome_succ] at hconflict
    exact (hclean _ _ hconflict).trans (ih (Nat.lt_of_succ_lt hk))

theorem Runs.once (h : Runs operation s maxAttempts base random 1 last run)
    (hclean : ∀ n d, Conflicts (operation n d).1 → (operation n d).2 = d) :
    run.state = (operation last s).2 := by
  obtain ⟨k, rfl⟩ := Nat.exists_eq_add_of_le' h.first_le
  have hbefore := stateAfter_eq hclean (k + 1) h.conflicts k (Nat.lt_succ_self k)
  rw [h.state, stateAfter, hbefore]

theorem Runs.asOftenAsNeeded {options : SerializableRetryOptions}
    (h : Runs operation s options.attempts options.baseDelay random 1 last run) :
    AsOftenAsNeeded operation options s run where
  calls i hi := by
    rw [h.calls]
    obtain hlt | hle := Nat.lt_or_ge options.attempts i
    · rw [Nat.min_eq_left hlt.le]
      exact h.eq_maxAttempts fun n hn hle => hi.before n hn (Nat.lt_of_le_of_lt hle hlt)
    · rw [h.eq_settled hi hle, Nat.min_eq_right hle]
  unsettled hall := h.calls.trans (h.eq_maxAttempts fun n hn _ => hall n hn)
  settled i hi hle := by rw [h.result, h.eq_settled hi hle]
  exhausted hall := by rw [h.result, h.eq_maxAttempts hall]
  sleeps := by
    refine ⟨_, h.events, fun n ms hn => ?_⟩
    rw [List.getElem?_map, Option.map_eq_some_iff] at hn
    obtain ⟨attempt, hattempt, rfl⟩ := hn
    obtain ⟨hlen, rfl⟩ := List.getElem?_eq_some_iff.1 hattempt
    rw [List.getElem_range', Nat.one_mul, Nat.add_comm]
    exact sleepMs_mem _ _ _
  once hclean := by rw [h.calls, h.once hclean]

/-- For every operation, hence for every sequence of outcomes. -/
theorem runWithSerializableRetry_asOftenAsNeeded (operation : Operation σ ε α)
    (options : SerializableRetryOptions) (random : Nat → Random) (s : σ)
    (h : 1 ≤ options.attempts) :
    AsOftenAsNeeded operation options s (runWithSerializableRetry operation options random s) := by
  obtain ⟨last, hruns⟩ := runs_of_one_le operation random s h
  exact hruns.asOftenAsNeeded

end

/-- The n-th call has the n-th outcome of a sequence. -/
def scripted {ε α : Type} (outcomes : Nat → Except (Thrown ε) α) : Operation Unit ε α :=
  fun n _ => (outcomes n, ())

theorem outcome_scripted {ε α : Type} (outcomes : Nat → Except (Thrown ε) α) :
    outcome (scripted outcomes) () = outcomes := rfl

/-- A conflict, then a row. -/
def sampleOperation : Operation (List Nat) String Nat := fun n rows =>
  if n = 1 then (.error (.prisma .p2034 "conflict"), rows) else (.ok n, n :: rows)

def sampleRandom : Nat → Random := fun _ => ⟨1 / 2, by norm_num, by norm_num⟩

theorem sampleOperation_asOftenAsNeeded :
    1 ≤ ({} : SerializableRetryOptions).attempts ∧
      AsOftenAsNeeded sampleOperation {} [] (runWithSerializableRetry sampleOperation {}
        sampleRandom []) :=
  ⟨by decide, runWithSerializableRetry_asOftenAsNeeded sampleOperation {} sampleRandom []
    (by decide)⟩

/-! ## The confirmations -/

/-- The statement by statement model of the confirmations counts its tries as the loop does. -/
theorem afterSerializationFailure_eq (attempt : Nat) :
    Stock.afterSerializationFailure attempt =
      if attempt < ({} : SerializableRetryOptions).attempts then .starting (attempt + 1)
      else .finished (.error (.conflict "Conflit de concurrence, veuillez réessayer")) := rfl

end Gescom
