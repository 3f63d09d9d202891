import Mathlib.Algebra.BigOperators.Group.List.Basic
import Mathlib.Algebra.BigOperators.Group.List.Lemmas
import Mathlib.Algebra.Order.BigOperators.Group.List
import Mathlib.Algebra.Order.Ring.Int
import Mathlib.Data.List.Dedup

/-!
# Ledgers

An append-only list of entries with a signed `delta`. `balance` is the left fold of the deltas,
`Solvent` says that no prefix is below zero. `sum_groups` is what makes a grouped aggregate agree
with the balance: summing group by group is summing.
-/

namespace Ledger

variable {ε κ : Type}

def balance (delta : ε → Int) (l : List ε) : Int := l.foldl (fun acc e => acc + delta e) 0

/-- No prefix of the ledger is below zero. -/
def Solvent (delta : ε → Int) (l : List ε) : Prop := ∀ pre, pre <+: l → 0 ≤ balance delta pre

variable {delta : ε → Int} {l : List ε} {e : ε}

theorem balance_append (l m : List ε) :
    balance delta (l ++ m) = balance delta l + balance delta m := by
  have shift : ∀ (m : List ε) (a : Int),
      m.foldl (fun acc e => acc + delta e) a = a + balance delta m := by
    intro m
    induction m with
    | nil => intro a; simp [balance]
    | cons e m ih =>
      intro a
      simp only [balance, List.foldl_cons] at ih ⊢
      rw [ih, ih (0 + delta e)]
      omega
  rw [balance, List.foldl_append, shift]
  rfl

@[simp] theorem balance_singleton (e : ε) : balance delta [e] = delta e := by simp [balance]

theorem balance_eq_sum (l : List ε) : balance delta l = (l.map delta).sum := by
  induction l with
  | nil => rfl
  | cons e l ih =>
    have h : balance delta ([e] ++ l) = balance delta [e] + balance delta l := balance_append [e] l
    rw [balance_singleton, ih] at h
    simpa using h

theorem Solvent.nil : Solvent delta ([] : List ε) := by
  intro pre h
  rw [List.prefix_nil.1 h]
  exact le_refl _

theorem Solvent.balance_nonneg (h : Solvent delta l) : 0 ≤ balance delta l :=
  h l (List.prefix_refl l)

/-- An entry that does not overdraw keeps the ledger solvent. -/
theorem Solvent.append (h : Solvent delta l) (he : 0 ≤ balance delta l + delta e) :
    Solvent delta (l ++ [e]) := by
  intro pre hp
  rcases List.prefix_concat_iff.1 hp with rfl | hpre
  · rwa [balance_append, balance_singleton]
  · exact h pre hpre

/-! ## Grouped sums -/

variable [DecidableEq κ]

theorem sum_ite_of_mem {ks : List κ} (hnd : ks.Nodup) {k₀ : κ} (hk : k₀ ∈ ks) (x : Int) :
    (ks.map fun k => if k₀ = k then x else 0).sum = x := by
  induction ks with
  | nil => cases hk
  | cons k ks ih =>
    rw [List.nodup_cons] at hnd
    rw [List.map_cons, List.sum_cons]
    by_cases hkk : k₀ = k
    · subst hkk
      have hzero : (ks.map fun k => if k₀ = k then x else 0) = ks.map fun _ => (0 : Int) :=
        List.map_congr_left fun k hmem => if_neg (by rintro rfl; exact hnd.1 hmem)
      rw [if_pos rfl, hzero]
      simp
    · rw [if_neg hkk, zero_add]
      exact ih hnd.2 ((List.mem_cons.1 hk).resolve_left hkk)

/-- Over distinct keys that cover the list, the sums of the groups add up to the whole sum. -/
theorem sum_groups (key : ε → κ) (f : ε → Int) {ks : List κ} (hnd : ks.Nodup) (l : List ε)
    (hl : ∀ e ∈ l, key e ∈ ks) :
    (ks.map fun k => ((l.filter fun e => key e = k).map f).sum).sum = (l.map f).sum := by
  induction l with
  | nil => simp
  | cons e l ih =>
    have hsplit : (fun k => (((e :: l).filter fun e => key e = k).map f).sum) =
        fun k => (if key e = k then f e else 0) + ((l.filter fun e => key e = k).map f).sum := by
      funext k
      by_cases hk : key e = k <;> simp [hk]
    rw [hsplit, List.sum_map_add, ih fun e' he' => hl e' (List.mem_cons_of_mem _ he'),
      sum_ite_of_mem hnd (hl e List.mem_cons_self)]
    rfl

/-- Values accumulated under their keys, in a map that starts as `q`. -/
def accumulate (q : κ → Option Int) (es : List (κ × Int)) : κ → Option Int :=
  es.foldl (fun q e => Function.update q e.1 (some ((q e.1).getD 0 + e.2))) q

theorem accumulate_getD (q : κ → Option Int) (es : List (κ × Int)) (k : κ) :
    (accumulate q es k).getD 0 = (q k).getD 0 +
      ((es.filter fun e => e.1 = k).map Prod.snd).sum := by
  induction es generalizing q with
  | nil => simp [accumulate]
  | cons e es ih =>
    simp only [accumulate, List.foldl_cons] at ih ⊢
    rw [ih]
    by_cases hk : e.1 = k
    · subst hk
      simp [add_assoc]
    · rw [Function.update_of_ne (Ne.symm hk)]
      simp [hk]

/-! ## Guarded withdrawals -/

/-- What a list of withdrawals takes from `k`. -/
def drawn (ws : List (κ × Int)) (k : κ) : Int := ((ws.filter fun w => w.1 = k).map Prod.snd).sum

theorem drawn_cons (w : κ × Int) (ws : List (κ × Int)) (k : κ) :
    drawn (w :: ws) k = (if w.1 = k then w.2 else 0) + drawn ws k := by
  by_cases hk : w.1 = k <;> simp [drawn, hk]

theorem drawn_nonneg {ws : List (κ × Int)} (h : ∀ w ∈ ws, 0 ≤ w.2) (k : κ) : 0 ≤ drawn ws k := by
  refine List.sum_nonneg fun x hx => ?_
  obtain ⟨w, hw, rfl⟩ := List.mem_map.1 hx
  exact h w (List.mem_filter.1 hw).1

theorem drawn_of_notMem {ws : List (κ × Int)} {k : κ} (h : ∀ w ∈ ws, w.1 ≠ k) :
    drawn ws k = 0 := by
  have hnone : (ws.filter fun w => w.1 = k) = [] :=
    List.filter_eq_nil_iff.2 fun w hw => by simpa using h w hw
  rw [drawn, hnone]
  rfl

/-- One withdrawal after the other, each refused if it would overdraw its key. -/
def withdrawAll : (κ → Int) → List (κ × Int) → Option (κ → Int)
  | q, [] => some q
  | q, w :: ws =>
    if q w.1 - w.2 < 0 then none else withdrawAll (Function.update q w.1 (q w.1 - w.2)) ws

/-- Checked one by one, the withdrawals succeed when the balances cover their sums. -/
def Covers (q : κ → Int) (ws : List (κ × Int)) : Prop := ∀ w ∈ ws, drawn ws w.1 ≤ q w.1

theorem covers_cons {q : κ → Int} {w : κ × Int} {ws : List (κ × Int)}
    (hws : ∀ w ∈ ws, 0 ≤ w.2) :
    Covers q (w :: ws) ↔
      0 ≤ q w.1 - w.2 ∧ Covers (Function.update q w.1 (q w.1 - w.2)) ws := by
  constructor
  · intro h
    refine ⟨?_, fun x hx => ?_⟩
    · have hfirst := h w List.mem_cons_self
      have hrest := drawn_nonneg hws w.1
      rw [drawn_cons, if_pos rfl] at hfirst
      omega
    · have hx' := h x (List.mem_cons_of_mem _ hx)
      rw [drawn_cons] at hx'
      by_cases hk : w.1 = x.1
      · rw [if_pos hk] at hx'
        rw [← hk, Function.update_self, hk]
        omega
      · rw [if_neg hk] at hx'
        rw [Function.update_of_ne (Ne.symm hk)]
        omega
  · rintro ⟨hfirst, hrest⟩ x hx
    rw [drawn_cons]
    by_cases hk : w.1 = x.1
    · rw [if_pos hk, ← hk]
      -- a later withdrawal from the same key, or none
      by_cases hlater : ∃ y ∈ ws, y.1 = w.1
      · obtain ⟨y, hy, hyk⟩ := hlater
        have := hrest y hy
        rw [hyk, Function.update_self] at this
        omega
      · rw [drawn_of_notMem fun y hy hyk => hlater ⟨y, hy, hyk⟩]
        omega
    · rw [if_neg hk]
      have hmem : x ∈ ws := (List.mem_cons.1 hx).resolve_left fun e => hk (by rw [e])
      have := hrest x hmem
      rw [Function.update_of_ne (Ne.symm hk)] at this
      omega

theorem withdrawAll_covers {q : κ → Int} {ws : List (κ × Int)} (hws : ∀ w ∈ ws, 0 ≤ w.2)
    (h : Covers q ws) : withdrawAll q ws = some fun k => q k - drawn ws k := by
  induction ws generalizing q with
  | nil => simp [withdrawAll, drawn]
  | cons w ws ih =>
    have hrest : ∀ x ∈ ws, 0 ≤ x.2 := fun x hx => hws x (List.mem_cons_of_mem _ hx)
    obtain ⟨hfirst, hcovers⟩ := (covers_cons hrest).1 h
    rw [withdrawAll, if_neg (by omega), ih hrest hcovers]
    congr 1
    funext k
    rw [drawn_cons]
    by_cases hk : w.1 = k
    · rw [if_pos hk, ← hk, Function.update_self]
      omega
    · rw [if_neg hk, Function.update_of_ne (Ne.symm hk)]
      omega

theorem withdrawAll_not_covers {q : κ → Int} {ws : List (κ × Int)} (hws : ∀ w ∈ ws, 0 ≤ w.2)
    (h : ¬ Covers q ws) : withdrawAll q ws = none := by
  induction ws generalizing q with
  | nil => exact absurd (fun w hw => by cases hw) h
  | cons w ws ih =>
    have hrest : ∀ x ∈ ws, 0 ≤ x.2 := fun x hx => hws x (List.mem_cons_of_mem _ hx)
    rw [covers_cons hrest] at h
    rw [withdrawAll]
    split
    · rfl
    · rename_i hfirst
      exact ih hrest fun hcovers => h ⟨by omega, hcovers⟩

/-! ## Logs of changes -/

variable {σ : Type} {edge : σ → ε → σ → Prop} {a b c : σ}

/-- The entries of the log, in order, are changes from `a` to `b`. -/
def Leads (edge : σ → ε → σ → Prop) : σ → List ε → σ → Prop
  | a, [], b => a = b
  | a, e :: l, b => ∃ m, edge a e m ∧ Leads edge m l b

theorem Leads.concat (h : Leads edge a l b) (he : edge b e c) : Leads edge a (l ++ [e]) c := by
  induction l generalizing a with
  | nil =>
    obtain rfl : a = b := h
    exact ⟨c, he, rfl⟩
  | cons x l ih =>
    obtain ⟨m, hx, hl⟩ := h
    exact ⟨m, hx, ih hl⟩

end Ledger
