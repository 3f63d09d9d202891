import Gescom.Erp.Transactions
import Mathlib.Data.List.Sort

/-!
# Sorting by `localeCompare`

The reports sort account codes and the keys of days with the collation of ICU, which the model takes
as a parameter. `Collates` is what they rely on.
-/

namespace Gescom.Erp

/-- Digits and hyphens: an account code, or a date with a year of four digits. -/
def NumericText (s : String) : Prop := ∀ c ∈ s.toList, c.isDigit = true ∨ c = '-'

/-- The same, with a sign of either kind. -/
def SignedText (s : String) : Prop := ∀ c ∈ s.toList, c.isDigit = true ∨ c = '-' ∨ c = '+'

structure Texts.Collates (T : Texts) : Prop where
  trans : ∀ a b c, T.localeCompare a b = true → T.localeCompare b c = true →
    T.localeCompare a c = true
  total : ∀ a b, (T.localeCompare a b || T.localeCompare b a) = true
  /-- A hyphen comes before the digits, and these in order; none is ignored. -/
  numeric : ∀ a b, NumericText a → NumericText b → (T.localeCompare a b = true ↔ a ≤ b)
  /-- Nor is a sign. -/
  antisymm : ∀ a b, SignedText a → SignedText b → T.localeCompare a b = true →
    T.localeCompare b a = true → a = b

/-- Strictly before. -/
def Texts.Before (T : Texts) (a b : String) : Prop :=
  T.localeCompare a b = true ∧ T.localeCompare b a ≠ true

variable {T : Texts} {α : Type} {key : α → String} {l l' : List α}

theorem NumericText.signed {s : String} (h : NumericText s) : SignedText s :=
  fun c hc => (h c hc).imp_right .inl

theorem Texts.Collates.sorted (hT : T.Collates) (l : List α) :
    (l.mergeSort fun a b => T.localeCompare (key a) (key b)).Pairwise fun a b =>
      T.localeCompare (key a) (key b) = true :=
  List.pairwise_mergeSort (fun a b c => hT.trans (key a) (key b) (key c))
    (fun a b => hT.total (key a) (key b)) l

/-- Distinct keys are in strict order. -/
theorem Texts.Collates.pairwise (hT : T.Collates) (hsigned : ∀ a ∈ l, SignedText (key a))
    (hkeys : (l.map key).Nodup) :
    ((l.mergeSort fun a b => T.localeCompare (key a) (key b)).map key).Pairwise T.Before := by
  have hperm := List.mergeSort_perm l fun a b => T.localeCompare (key a) (key b)
  have hnodup := (hperm.map key).nodup_iff.2 hkeys
  rw [List.Nodup, List.pairwise_map] at hnodup
  rw [List.pairwise_map]
  refine ((hT.sorted l).and hnodup).imp_of_mem fun {a b} ha hb h => ⟨h.1, fun hback => h.2 ?_⟩
  exact hT.antisymm _ _ (hsigned a (hperm.mem_iff.1 ha)) (hsigned b (hperm.mem_iff.1 hb)) h.1 hback

/-- Such texts are in the order of their characters. -/
theorem Texts.Collates.lt_of_before (hT : T.Collates) {a b : String} (ha : NumericText a)
    (hb : NumericText b) (h : T.Before a b) : a < b :=
  String.not_le.1 fun hle => h.2 ((hT.numeric b a hb ha).2 hle)

/-- What is sorted does not depend on the order it comes in. -/
theorem Texts.Collates.mergeSort_eq (hT : T.Collates) (h : l.Perm l')
    (hsigned : ∀ a ∈ l, SignedText (key a)) (hkeys : ∀ a ∈ l, ∀ b ∈ l, key a = key b → a = b) :
    (l.mergeSort fun a b => T.localeCompare (key a) (key b)) =
      l'.mergeSort fun a b => T.localeCompare (key a) (key b) := by
  have hperm := List.mergeSort_perm l fun a b => T.localeCompare (key a) (key b)
  have hperm' := List.mergeSort_perm l' fun a b => T.localeCompare (key a) (key b)
  refine List.Perm.eq_of_pairwise (fun a b ha hb hab hba => ?_) (hT.sorted l) (hT.sorted l')
    ((hperm.trans h).trans hperm'.symm)
  have ha := hperm.mem_iff.1 ha
  have hb := h.mem_iff.2 (hperm'.mem_iff.1 hb)
  exact hkeys a ha b hb (hT.antisymm _ _ (hsigned a ha) (hsigned b hb) hab hba)

/-- Texts by their code points. -/
def plainTexts : Texts where
  contains field search := decide (search.toLower.toList <:+: field.toLower.toList)
  collate a b := decide (a ≤ b)
  localeCompare a b := decide (a ≤ b)

theorem plainTexts_collates : plainTexts.Collates where
  trans a b c hab hbc := decide_eq_true (String.le_trans (of_decide_eq_true hab) (of_decide_eq_true hbc))
  total a b := by
    rw [Bool.or_eq_true]
    exact (String.le_total a b).imp decide_eq_true decide_eq_true
  numeric a b _ _ := decide_eq_true_iff
  antisymm a b _ _ hab hba := String.le_antisymm (of_decide_eq_true hab) (of_decide_eq_true hba)

end Gescom.Erp
