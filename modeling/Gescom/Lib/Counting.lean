import Gescom.Lib.Transition
import Mathlib.Data.Finset.Card

/-!
# Counting the threads of a pool

Two rules about how many threads have a property `F`, for pools of any number of threads: a measure
of the shared state that every thread adds one to as it takes `F` on counts them from below
(`Reach.counts`), and a bound on the measure that every thread reserves one of as it takes `F` on
counts them from above (`Reach.reserves`). The sets of threads are finite ones inside `F`.
-/

namespace Transition

variable {σ τ ι ε : Type} {W : Machine σ τ ι ε} {K : Pool σ τ → Act ι ε → Prop} {P P₀ : Pool σ τ}
  {F : τ → Prop}

/-- The threads of `A` have the property. -/
def Pool.All (F : τ → Prop) (P : Pool σ τ) (A : Finset Nat) : Prop := ∀ pid ∈ A, F (P.threads pid)

/-- What the step of `pid` leaves of a set that has the property. -/
theorem Pool.All.erase {s : σ} {t : τ} {pid : Nat} {A : Finset Nat}
    (h : Pool.All F ⟨s, Function.update P.threads pid t⟩ A) : P.All F (A.erase pid) := by
  intro other hother
  obtain ⟨hne, hmem⟩ := Finset.mem_erase.1 hother
  have hF := h other hmem
  simp only [Function.update_of_ne hne] at hF
  exact hF

/-- A thread that had the property already. -/
theorem Pool.All.before {s : σ} {t : τ} {pid : Nat} {A : Finset Nat}
    (h : Pool.All F ⟨s, Function.update P.threads pid t⟩ A) (hold : F (P.threads pid)) :
    P.All F A := by
  intro other hother
  by_cases hne : other = pid
  · rw [hne]
    exact hold
  · exact h.erase other (Finset.mem_erase.2 ⟨hne, hother⟩)

/-- A measure that no step decreases, and that every thread that takes `F` on increases. -/
theorem Reach.counts (F : τ → Prop) (m : σ → Nat) (h0 : ∀ pid, ¬ F (P₀.threads pid))
    (env : ∀ P e, Reach W.system K P₀ P → K P (.env e) → m P.shared ≤ m (W.env e P.shared))
    (own : ∀ P pid i s t, Reach W.system K P₀ P → K P (.run pid i) →
      W.thread pid i P.shared (P.threads pid) = some (s, t) →
      m P.shared ≤ m s ∧ (F t → F (P.threads pid) ∨ m P.shared < m s))
    (h : Reach W.system K P₀ P) :
    ∀ A : Finset Nat, P.All F A → m P₀.shared + A.card ≤ m P.shared := by
  refine h.inv (fun P => ∀ A : Finset Nat, P.All F A → m P₀.shared + A.card ≤ m P.shared) ?_ ?_
  · intro A hA
    have hempty : A = ∅ := Finset.eq_empty_of_forall_notMem fun pid hpid => h0 pid (hA pid hpid)
    simp [hempty]
  · intro P a P' hr ih hK hst A hA
    cases a with
    | env e =>
      obtain rfl := Machine.env_eq_some.1 hst
      exact (ih A hA).trans (env P e hr hK)
    | run pid i =>
      obtain ⟨s, t, hth, rfl⟩ := Machine.run_eq_some.1 hst
      obtain ⟨hle, henter⟩ := own P pid i s t hr hK hth
      have hrest := ih (A.erase pid) hA.erase
      by_cases hpid : pid ∈ A
      · have hcard := Finset.card_erase_add_one hpid
        have hF : F t := by simpa using hA pid hpid
        rcases henter hF with hold | hmore
        · exact (ih A (hA.before hold)).trans hle
        · simp only
          omega
      · rw [Finset.erase_eq_of_notMem hpid] at hrest
        exact hrest.trans hle

/-- A bound that the measure and the threads with `F` keep together: a thread takes `F` on where one
is left for it, and gives it up for what it adds. -/
theorem Reach.reserves (F : τ → Prop) (m : σ → Nat) (bound : Nat)
    (h0 : ∀ pid, ¬ F (P₀.threads pid)) (hm : m P₀.shared ≤ bound)
    (env : ∀ P e, Reach W.system K P₀ P → K P (.env e) → m (W.env e P.shared) ≤ m P.shared)
    (own : ∀ P pid i s t, Reach W.system K P₀ P → K P (.run pid i) →
      W.thread pid i P.shared (P.threads pid) = some (s, t) →
      m s ≤ m P.shared ∧ (F t → F (P.threads pid) ∨
          ∀ A : Finset Nat, P.All F A → m P.shared + A.card < bound) ∨
        m s ≤ m P.shared + 1 ∧ F (P.threads pid) ∧ ¬ F t)
    (h : Reach W.system K P₀ P) : ∀ A : Finset Nat, P.All F A → m P.shared + A.card ≤ bound := by
  refine h.inv (fun P => ∀ A : Finset Nat, P.All F A → m P.shared + A.card ≤ bound) ?_ ?_
  · intro A hA
    have hempty : A = ∅ := Finset.eq_empty_of_forall_notMem fun pid hpid => h0 pid (hA pid hpid)
    simpa [hempty] using hm
  · intro P a P' hr ih hK hst A hA
    cases a with
    | env e =>
      obtain rfl := Machine.env_eq_some.1 hst
      exact (Nat.add_le_add_right (env P e hr hK) _).trans (ih A hA)
    | run pid i =>
      obtain ⟨s, t, hth, rfl⟩ := Machine.run_eq_some.1 hst
      have hrest := ih (A.erase pid) hA.erase
      rcases own P pid i s t hr hK hth with ⟨hle, henter⟩ | ⟨hle, hold, hnot⟩
      · by_cases hpid : pid ∈ A
        · have hcard := Finset.card_erase_add_one hpid
          have hF : F t := by simpa using hA pid hpid
          rcases henter hF with hold | hleft
          · exact (Nat.add_le_add_right hle _).trans (ih A (hA.before hold))
          · have hslack := hleft (A.erase pid) hA.erase
            simp only
            omega
        · rw [Finset.erase_eq_of_notMem hpid] at hrest
          exact (Nat.add_le_add_right hle _).trans hrest
      · -- the thread gives its place to what it adds
        have hpid : pid ∉ A := by
          intro hpid
          exact hnot (by simpa using hA pid hpid)
        have hall : P.All F (insert pid A) := by
          intro other hother
          rcases Finset.mem_insert.1 hother with rfl | hmem
          · exact hold
          · have hne : other ≠ pid := fun heq => hpid (heq ▸ hmem)
            exact hA.erase other (Finset.mem_erase.2 ⟨hne, hmem⟩)
        have hbound := ih _ hall
        rw [Finset.card_insert_of_notMem hpid] at hbound
        simp only
        omega

end Transition
