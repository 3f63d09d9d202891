import Mathlib.Data.List.Nodup
import Gescom.Lib.Transition

/-!
# Numbered series

Rows of several owners, each owner with a counter. `GapFree` says that the rows of every owner carry
the numbers from 1 to its counter, in order and each once; appending a row with the next number keeps
it. `Runs` says the same of every state of a transition system.
-/

namespace Numbering

variable {ρ κ β : Type} [DecidableEq κ]

def rowsOf (owner : ρ → κ) (rows : List ρ) (k : κ) : List ρ := rows.filter fun r => owner r = k

/-- `format k n` is how number `n` of owner `k` is written. -/
def GapFree (owner : ρ → κ) (number : ρ → β) (format : κ → Nat → β) (rows : List ρ)
    (last : κ → Nat) : Prop :=
  ∀ k, (rowsOf owner rows k).map number = (List.range' 1 (last k)).map (format k)

variable {owner : ρ → κ} {number : ρ → β} {format : κ → Nat → β} {rows : List ρ} {last : κ → Nat}

theorem GapFree.nil : GapFree owner number format [] fun _ => 0 := fun _ => rfl

theorem GapFree.append (h : GapFree owner number format rows last) {r : ρ} {last' : κ → Nat}
    (hr : number r = format (owner r) (last (owner r) + 1))
    (hself : last' (owner r) = last (owner r) + 1)
    (hother : ∀ k, k ≠ owner r → last' k = last k) :
    GapFree owner number format (rows ++ [r]) last' := by
  intro k
  rw [rowsOf, List.filter_append, List.map_append]
  by_cases hk : k = owner r
  · subst hk
    rw [hself, List.range'_concat, List.map_append, ← h (owner r), rowsOf]
    simp [hr, Nat.add_comm]
  · rw [hother k hk, ← h k, rowsOf]
    simp [Ne.symm hk]

/-- No number is used twice. -/
theorem GapFree.nodup (h : GapFree owner number format rows last)
    (hformat : ∀ k, Function.Injective (format k)) (k : κ) :
    ((rowsOf owner rows k).map number).Nodup := by
  rw [h k]
  exact (List.nodup_range' ..).map (hformat k)

/-- The numbers in use are the ones from 1 to the counter. -/
theorem GapFree.mem_iff (h : GapFree owner number format rows last)
    (hformat : ∀ k, Function.Injective (format k)) {k : κ} {n : Nat} :
    (∃ r ∈ rows, owner r = k ∧ number r = format k n) ↔ 1 ≤ n ∧ n ≤ last k := by
  have hmem : format k n ∈ (rowsOf owner rows k).map number ↔ 1 ≤ n ∧ n ≤ last k := by
    rw [h k, List.mem_map_of_injective (hformat k), List.mem_range'_1]
    omega
  rw [← hmem]
  simp [rowsOf, and_assoc]

/-- In every run from `starts` the rows of each owner are numbered without gap, no number is used
twice, and each new row takes the number after the last one. -/
structure Runs {S A : Type} (M : Transition.System S A) (starts : S → Prop) (owner : ρ → κ)
    (number : ρ → β) (format : κ → Nat → β) (rows : S → List ρ) (last : S → κ → Nat) : Prop where
  gapFree : ∀ s₀ s, starts s₀ → Transition.Reach M Transition.Always s₀ s →
    GapFree owner number format (rows s) (last s)
  once : ∀ s₀ s, starts s₀ → Transition.Reach M Transition.Always s₀ s →
    ∀ k, ((rowsOf owner (rows s) k).map number).Nodup
  inOrder : ∀ s₀ s a s', starts s₀ → Transition.Reach M Transition.Always s₀ s →
    M.step s a = some s' → rows s' = rows s ∨ ∃ r, rows s' = rows s ++ [r] ∧
      number r = format (owner r) (last s (owner r) + 1) ∧
      last s' (owner r) = last s (owner r) + 1

end Numbering
