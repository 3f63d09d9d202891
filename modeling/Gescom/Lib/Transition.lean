import Mathlib.Logic.Function.Basic
import Mathlib.Logic.Relation

/-!
# Transition systems, pools of threads and proof outlines

A `System` is a partial step function on labelled actions. `Reach M C s₀ s` says that `s` is
reached from `s₀` by steps that all meet the condition `C` (a condition on the state before the
step and the action taken), so one relation serves both "every run" (`C` always true) and "every
run whose steps all meet `C`".

A `Pool` is a shared state with one local state per thread, and a `Machine` says what one atomic
step of a thread does. `Outline` is the Owicki-Gries rule in its rely-guarantee form: each step of
a thread keeps the shared invariant and the thread's own assertion and stays inside the thread's
guarantee, and every assertion is stable under the guarantees of the other threads.
-/

namespace Transition

structure System (S A : Type) where
  step : S → A → Option S

variable {S A : Type}

/-- The states reached from `s₀` by steps that all meet `C`. -/
inductive Reach (M : System S A) (C : S → A → Prop) (s₀ : S) : S → Prop
  | init : Reach M C s₀ s₀
  | step {s s' : S} {a : A} : Reach M C s₀ s → C s a → M.step s a = some s' → Reach M C s₀ s'

/-- The condition every step meets. -/
def Always : S → A → Prop := fun _ _ => True

variable {M : System S A} {C D : S → A → Prop} {s₀ s s' : S}

theorem Reach.inv (I : S → Prop) (h0 : I s₀)
    (hs : ∀ s a s', Reach M C s₀ s → I s → C s a → M.step s a = some s' → I s')
    (h : Reach M C s₀ s) : I s := by
  induction h with
  | init => exact h0
  | step hr hc hst ih => exact hs _ _ _ hr ih hc hst

theorem Reach.mono (hCD : ∀ s a, C s a → D s a) (h : Reach M C s₀ s) : Reach M D s₀ s := by
  induction h with
  | init => exact .init
  | step _ hc hst ih => exact .step ih (hCD _ _ hc) hst

/-- The steps of a run meet whatever its states allow. -/
theorem Reach.restrict (h : Reach M C s₀ s) (hD : ∀ s a, Reach M C s₀ s → C s a → D s a) :
    Reach M D s₀ s := by
  induction h with
  | init => exact .init
  | step hr hc hst ih => exact .step ih (hD _ _ hr hc) hst

theorem Reach.always (h : Reach M C s₀ s) : Reach M Always s₀ s := h.mono fun _ _ _ => trivial

theorem Reach.trans (h : Reach M C s₀ s) (h' : Reach M C s s') : Reach M C s₀ s' := by
  induction h' with
  | init => exact h
  | step _ hc hst ih => exact .step ih hc hst

/-- The first step meets the condition too. -/
theorem Reach.first (h : Reach M C s₀ s) : s = s₀ ∨ ∃ a, C s₀ a := by
  induction h with
  | init => exact .inl rfl
  | step _ hc _ ih =>
    rcases ih with rfl | hfirst
    · exact .inr ⟨_, hc⟩
    · exact .inr hfirst

/-- A state on the way from `s₀` to `s` meets `p`. -/
def Sometime (M : System S A) (C : S → A → Prop) (s₀ : S) (p : S → Prop) (s : S) : Prop :=
  ∃ s₁, Reach M C s₀ s₁ ∧ p s₁ ∧ Reach M C s₁ s

section
variable {p q : S → Prop}

theorem Sometime.now (h : Reach M C s₀ s) (hp : p s) : Sometime M C s₀ p s := ⟨s, h, hp, .init⟩

theorem Sometime.later (h : Sometime M C s₀ p s) (hr : Reach M C s s') : Sometime M C s₀ p s' := by
  obtain ⟨s₁, h₁, hp, h₂⟩ := h
  exact ⟨s₁, h₁, hp, h₂.trans hr⟩

theorem Sometime.imp (h : Sometime M C s₀ p s) (hpq : ∀ s, p s → q s) : Sometime M C s₀ q s := by
  obtain ⟨s₁, h₁, hp, h₂⟩ := h
  exact ⟨s₁, h₁, hpq s₁ hp, h₂⟩

end

/-- Run a schedule; it stops with `none` at a step that is blocked or that fails `c`. -/
def exec (M : System S A) (c : S → A → Bool) : S → List A → Option S
  | s, [] => some s
  | s, a :: as => if c s a then (M.step s a).bind fun s' => exec M c s' as else none

theorem Reach.of_exec (c : S → A → Bool) (hc : ∀ s a, c s a = true → C s a) (as : List A)
    (h : exec M c s₀ as = some s) : Reach M C s₀ s := by
  induction as generalizing s₀ with
  | nil => simp only [exec, Option.some.injEq] at h; subst h; exact .init
  | cons a as ih =>
    simp only [exec] at h
    split at h
    · rename_i hca
      obtain ⟨s₁, hs₁, hrest⟩ := Option.bind_eq_some_iff.1 h
      exact (Reach.step .init (hc _ _ hca) hs₁).trans (ih hrest)
    · simp at h

/-! ## Pools of threads -/

structure Pool (σ τ : Type) where
  shared : σ
  threads : Nat → τ

/-- Either one step of a thread, with what the environment feeds it, or a step of the environment
alone. -/
inductive Act (ι ε : Type) where
  | run (pid : Nat) (i : ι)
  | env (e : ε)

structure Machine (σ τ ι ε : Type) where
  thread : Nat → ι → σ → τ → Option (σ × τ)
  env : ε → σ → σ

variable {σ τ ι ε : Type}

def Machine.next (M : Machine σ τ ι ε) (P : Pool σ τ) : Act ι ε → Option (Pool σ τ)
  | .run pid i => (M.thread pid i P.shared (P.threads pid)).map fun r =>
      { shared := r.1, threads := Function.update P.threads pid r.2 }
  | .env e => some { P with shared := M.env e P.shared }

def Machine.system (M : Machine σ τ ι ε) : System (Pool σ τ) (Act ι ε) := ⟨M.next⟩

variable {W : Machine σ τ ι ε} {P P' P₀ : Pool σ τ} {K : Pool σ τ → Act ι ε → Prop}

theorem Machine.run_eq_some {pid : Nat} {i : ι} :
    W.system.step P (.run pid i) = some P' ↔
      ∃ s t, W.thread pid i P.shared (P.threads pid) = some (s, t) ∧
        P' = { shared := s, threads := Function.update P.threads pid t } := by
  simp only [Machine.system, Machine.next, Option.map_eq_some_iff, Prod.exists]
  constructor
  · rintro ⟨s, t, h, rfl⟩; exact ⟨s, t, h, rfl⟩
  · rintro ⟨s, t, h, rfl⟩; exact ⟨s, t, h, rfl⟩

theorem Machine.env_eq_some {e : ε} :
    W.system.step P (.env e) = some P' ↔ P' = { P with shared := W.env e P.shared } := by
  simp only [Machine.system, Machine.next, Option.some.injEq]
  exact eq_comm

/-- What a step is for one thread: it stays where it is, or the step is its own. -/
theorem Machine.step_thread {a : Act ι ε} (h : W.system.step P a = some P') (pid : Nat) :
    P'.threads pid = P.threads pid ∨
      ∃ i s t, a = .run pid i ∧ W.thread pid i P.shared (P.threads pid) = some (s, t) ∧
        P'.shared = s ∧ P'.threads pid = t := by
  cases a with
  | run pid' i =>
    obtain ⟨s, t, hth, rfl⟩ := Machine.run_eq_some.1 h
    by_cases hp : pid = pid'
    · subst hp
      exact .inr ⟨i, s, t, rfl, hth, rfl, Function.update_self ..⟩
    · exact .inl (Function.update_of_ne hp ..)
  | env e =>
    obtain rfl := Machine.env_eq_some.1 h
    exact .inl rfl

/-- A thread takes steps while the others stand still. -/
theorem Machine.reach_of_thread {pid : Nat} {i : ι} {x y : σ × τ}
    (h : Relation.ReflTransGen (fun a b => W.thread pid i a.1 a.2 = some b) x y)
    (hx : x = (P.shared, P.threads pid)) :
    Reach W.system Always P { shared := y.1, threads := Function.update P.threads pid y.2 } := by
  subst hx
  induction h with
  | refl => simpa using Reach.init
  | @tail b d _ hstep ih =>
    refine ih.trans (Reach.step .init trivial (a := .run pid i) (Machine.run_eq_some.2 ⟨d.1, d.2, ?_, ?_⟩))
    · simpa using hstep
    · simp

/-- A thread that a schedule does not run stays where it is. -/
theorem Machine.exec_other {c : Pool σ τ → Act ι ε → Bool} {as : List (Act ι ε)}
    (h : exec W.system c P as = some P') {pid : Nat} (hpid : ∀ i, Act.run pid i ∉ as) :
    P'.threads pid = P.threads pid := by
  induction as generalizing P with
  | nil => cases h; rfl
  | cons a as ih =>
    simp only [exec] at h
    split at h
    · obtain ⟨P₁, hP₁, hrest⟩ := Option.bind_eq_some_iff.1 h
      rw [ih hrest fun i hi => hpid i (List.mem_cons_of_mem _ hi)]
      rcases Machine.step_thread hP₁ pid with hsame | ⟨i, s, t, rfl, -⟩
      · exact hsame
      · exact absurd List.mem_cons_self (hpid i)
    · cases h

/-- A thread that runs alone, for `n` steps or until it is over. -/
def alone (step : σ → τ → Option (σ × τ)) : Nat → σ → τ → σ × τ
  | 0, s, t => (s, t)
  | n + 1, s, t =>
    match step s t with
    | some (s', t') => alone step n s' t'
    | none => (s, t)

theorem alone_succ {step : σ → τ → Option (σ × τ)} {n : Nat} {s s' : σ} {t t' : τ}
    (h : step s t = some (s', t')) : alone step (n + 1) s t = alone step n s' t' := by
  simp only [alone, h]

/-- A thread that runs alone stops in one state at most. -/
theorem stop_unique {α : Type} {next : α → Option α} {x y z : α}
    (hy : Relation.ReflTransGen (fun a b => next a = some b) x y)
    (hz : Relation.ReflTransGen (fun a b => next a = some b) x z) (hstop : next y = none)
    (hstop' : next z = none) : y = z := by
  have hstuck : ∀ {a b}, next a = none → Relation.ReflTransGen (fun a b => next a = some b) a b → a = b := by
    intro a b ha h
    rcases h.cases_head with hsame | ⟨c, hc, -⟩
    · exact hsame
    · cases ha.symm.trans hc
  have hunique : Relator.RightUnique fun a b : α => next a = some b :=
    fun _ _ _ hb hc => Option.some.inj (hb.symm.trans hc)
  rcases Relation.ReflTransGen.total_of_right_unique hunique hy hz with h | h
  · exact hstuck hstop h
  · exact (hstuck hstop' h).symm

/-- A thread that runs alone while the environment moves: one move before each of its steps. -/
def attended (step : σ → τ → Option (σ × τ)) (env : ε → σ → σ) : List ε → σ → τ → σ × τ
  | [], s, t => (s, t)
  | e :: es, s, t =>
    match step (env e s) t with
    | some (s', t') => attended step env es s' t'
    | none => attended step env es (env e s) t

theorem attended_cons {step : σ → τ → Option (σ × τ)} {env : ε → σ → σ} {e : ε} {es : List ε}
    {s s' : σ} {t t' : τ} (h : step (env e s) t = some (s', t')) :
    attended step env (e :: es) s t = attended step env es s' t' := by
  simp only [attended, h]

/-- `R` holds after every attended run of at least `n` moves. -/
def Ends (step : σ → τ → Option (σ × τ)) (env : ε → σ → σ) (R : σ → τ → Prop) (n : Nat) (s : σ)
    (t : τ) : Prop :=
  ∀ es : List ε, n ≤ es.length → R (attended step env es s t).1 (attended step env es s t).2

section
variable {f : σ → τ → Option (σ × τ)} {env : ε → σ → σ} {R : σ → τ → Prop} {n : Nat} {s : σ}
  {t : τ}

theorem Ends.step (h : ∀ e, ∃ s' t', f (env e s) t = some (s', t') ∧
    Ends f env R n s' t') : Ends f env R (n + 1) s t := by
  intro es hlen
  cases es with
  | nil => exact absurd hlen (Nat.not_succ_le_zero n)
  | cons e es =>
    obtain ⟨s', t', hstep, hends⟩ := h e
    rw [attended_cons hstep]
    exact hends es (Nat.le_of_succ_le_succ hlen)

/-- A thread that is over stays so. -/
theorem Ends.over (hover : ∀ s, f s t = none) (henv : ∀ e s, R s t → R (env e s) t)
    (h : R s t) : Ends f env R 0 s t := by
  intro es _
  induction es generalizing s with
  | nil => exact h
  | cons e es ih =>
    simp only [attended, hover]
    exact ih (henv e s h) (Nat.zero_le _)

theorem Ends.mono {m : Nat} (h : Ends f env R n s t) (hle : n ≤ m) : Ends f env R m s t :=
  fun es hlen => h es (Nat.le_trans hle hlen)

end

/-- A proof outline: a shared invariant `I`, an assertion `Q` for each local state and a guarantee
`G` for the steps of each thread. -/
structure Outline (W : Machine σ τ ι ε) (K : Pool σ τ → Act ι ε → Prop) (I : σ → Prop)
    (Q : Nat → τ → σ → Prop) (G : Nat → σ → σ → Prop) : Prop where
  own : ∀ P pid i s t, K P (.run pid i) → I P.shared → Q pid (P.threads pid) P.shared →
    W.thread pid i P.shared (P.threads pid) = some (s, t) → I s ∧ Q pid t s ∧ G pid P.shared s
  stable : ∀ pid pid' s s' t, pid ≠ pid' → I s → I s' → G pid s s' → Q pid' t s → Q pid' t s'
  env : ∀ P e, K P (.env e) → I P.shared →
    I (W.env e P.shared) ∧ ∀ pid t, Q pid t P.shared → Q pid t (W.env e P.shared)

variable {I : σ → Prop} {Q : Nat → τ → σ → Prop} {G : Nat → σ → σ → Prop}

/-- What an outline asserts of a whole pool. -/
def Annotated (I : σ → Prop) (Q : Nat → τ → σ → Prop) (P : Pool σ τ) : Prop :=
  I P.shared ∧ ∀ pid, Q pid (P.threads pid) P.shared

theorem Outline.step (O : Outline W K I Q G) {a : Act ι ε} (h : Annotated I Q P) (hK : K P a)
    (hst : W.system.step P a = some P') : Annotated I Q P' := by
  cases a with
  | run pid i =>
    obtain ⟨s, t, hth, rfl⟩ := Machine.run_eq_some.1 hst
    obtain ⟨hI, hQ, hG⟩ := O.own P pid i s t hK h.1 (h.2 pid) hth
    refine ⟨hI, fun pid' => ?_⟩
    by_cases hp : pid' = pid
    · subst hp; simpa using hQ
    · simpa [Function.update_of_ne hp] using
        O.stable pid pid' P.shared s _ (Ne.symm hp) h.1 hI hG (h.2 pid')
  | env e =>
    obtain rfl := Machine.env_eq_some.1 hst
    obtain ⟨hI, hQ⟩ := O.env P e hK h.1
    exact ⟨hI, fun pid => hQ pid _ (h.2 pid)⟩

/-- Soundness: an annotated pool only reaches annotated pools. -/
theorem Outline.sound (O : Outline W K I Q G) (h0 : Annotated I Q P₀)
    (h : Reach W.system K P₀ P) : Annotated I Q P :=
  h.inv (Annotated I Q) h0 fun _ _ _ _ ih hK hst => O.step ih hK hst

/-- Every step of a run of an outlined machine stays inside the guarantee of the thread that takes
it. -/
theorem Outline.guarantee (O : Outline W K I Q G) (h0 : Annotated I Q P₀)
    (h : Reach W.system K P₀ P) {pid : Nat} {i : ι} (hK : K P (.run pid i))
    (hst : W.system.step P (.run pid i) = some P') : G pid P.shared P'.shared := by
  obtain ⟨hI, hQ⟩ := O.sound h0 h
  obtain ⟨s, t, hth, rfl⟩ := Machine.run_eq_some.1 hst
  exact (O.own P pid i s t hK hI (hQ pid) hth).2.2

/-- A property of local states that a thread only takes on while no thread has it is held by one
thread at most. -/
theorem Reach.exclusive (F : τ → Prop) (h0 : ∀ i, ¬ F (P₀.threads i))
    (enter : ∀ P pid i s t, Reach W.system K P₀ P → K P (.run pid i) →
      W.thread pid i P.shared (P.threads pid) = some (s, t) → F t →
      F (P.threads pid) ∨ ∀ j, ¬ F (P.threads j))
    (h : Reach W.system K P₀ P) : ∀ i j, F (P.threads i) → F (P.threads j) → i = j := by
  refine h.inv (fun P => ∀ i j, F (P.threads i) → F (P.threads j) → i = j)
    (fun i _ hi => absurd hi (h0 i)) ?_
  intro P a P' hr ih hK hst
  cases a with
  | env e => obtain rfl := Machine.env_eq_some.1 hst; exact ih
  | run pid x =>
    obtain ⟨s, t, hth, rfl⟩ := Machine.run_eq_some.1 hst
    intro i j hi hj
    have other : ∀ k, k ≠ pid → F (Function.update P.threads pid t k) → F (P.threads k) := by
      intro k hk hF; rwa [Function.update_of_ne hk] at hF
    have entered : F t → ∀ k, k ≠ pid → ¬ F (P.threads k) := by
      intro hF k hk hFk
      rcases enter P pid x s t hr hK hth hF with hp | hnone
      · exact hk (ih k pid hFk hp)
      · exact hnone k hFk
    by_cases hip : i = pid <;> by_cases hjp : j = pid
    · rw [hip, hjp]
    · subst hip
      exact absurd (other j hjp hj) (entered (by simpa using hi) j hjp)
    · subst hjp
      exact absurd (other i hip hi) (entered (by simpa using hj) i hip)
    · exact ih i j (other i hip hi) (other j hjp hj)

end Transition
