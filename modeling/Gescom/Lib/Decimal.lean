import Mathlib.Algebra.Order.Ring.Nat
import Mathlib.Data.List.Basic

/-!
# Decimal digits, in order

Two numbers written with as many digits compare as their texts do, digit by digit.
-/

namespace Decimal

/-- Texts whose first parts are as long compare by these, then by the rest. -/
theorem append_lt_append_iff {α : Type} [LT α] {a a' b b' : List α}
    (h : a.length = a'.length) : a ++ b < a' ++ b' ↔ a < a' ∨ a = a' ∧ b < b' := by
  induction a generalizing a' with
  | nil =>
    obtain rfl := List.length_eq_zero_iff.1 h.symm
    simp
  | cons x a ih =>
    cases a' with
    | nil => cases h
    | cons x' a' =>
      simp only [List.cons_append, List.cons_lt_cons_iff, ih (Nat.succ.inj h), List.cons.injEq]
      constructor
      · rintro (hx | ⟨rfl, ha | ⟨rfl, hb⟩⟩)
        · exact .inl (.inl hx)
        · exact .inl (.inr ⟨rfl, ha⟩)
        · exact .inr ⟨⟨rfl, rfl⟩, hb⟩
      · rintro ((hx | ⟨rfl, ha⟩) | ⟨⟨rfl, rfl⟩, hb⟩)
        · exact .inl hx
        · exact .inr ⟨rfl, .inl ha⟩
        · exact .inr ⟨rfl, .inr ⟨rfl, hb⟩⟩

def Digits (l : List Char) : Prop := ∀ c ∈ l, c.isDigit = true

theorem digit_bounds {c : Char} (h : c.isDigit = true) : 48 ≤ c.toNat ∧ c.toNat ≤ 57 :=
  Char.isDigit_iff_toNat.1 h

theorem ofDigitChars_lt {l : List Char} (h : Digits l) (init : Nat) :
    Nat.ofDigitChars 10 l init < 10 ^ l.length * (init + 1) := by
  induction l generalizing init with
  | nil => simp
  | cons c l ih =>
    have hc := digit_bounds (h c List.mem_cons_self)
    have hstep := ih (fun x hx => h x (List.mem_cons_of_mem c hx)) (10 * init + (c.toNat - 48))
    rw [Nat.ofDigitChars_cons, List.length_cons]
    refine Nat.lt_of_lt_of_le hstep ?_
    rw [Nat.pow_succ, Nat.mul_assoc]
    exact Nat.mul_le_mul_left _ (by omega)

theorem le_ofDigitChars (l : List Char) (init : Nat) :
    10 ^ l.length * init ≤ Nat.ofDigitChars 10 l init := by
  induction l generalizing init with
  | nil => simp
  | cons c l ih =>
    rw [Nat.ofDigitChars_cons, List.length_cons, Nat.pow_succ, Nat.mul_assoc]
    exact Nat.le_trans (Nat.mul_le_mul_left _ (by omega)) (ih _)

/-- A smaller first part is smaller, whatever follows. -/
theorem ofDigitChars_lt_of_lt {l l' : List Char} (h : Digits l) (hlen : l.length = l'.length)
    {init init' : Nat} (hinit : init < init') :
    Nat.ofDigitChars 10 l init < Nat.ofDigitChars 10 l' init' := by
  refine Nat.lt_of_lt_of_le (ofDigitChars_lt h init) (Nat.le_trans ?_ (le_ofDigitChars l' init'))
  rw [hlen]
  exact Nat.mul_le_mul_left _ hinit

theorem lt_iff_ofDigitChars_lt {l l' : List Char} (h : Digits l) (h' : Digits l')
    (hlen : l.length = l'.length) (init : Nat) :
    l < l' ↔ Nat.ofDigitChars 10 l init < Nat.ofDigitChars 10 l' init := by
  induction l generalizing l' init with
  | nil =>
    obtain rfl := List.length_eq_zero_iff.1 hlen.symm
    simp
  | cons c l ih =>
    cases l' with
    | nil => cases hlen
    | cons c' l' =>
      have hl : Digits l := fun x hx => h x (List.mem_cons_of_mem c hx)
      have hl' : Digits l' := fun x hx => h' x (List.mem_cons_of_mem c' hx)
      have hc := digit_bounds (h c List.mem_cons_self)
      have hc' := digit_bounds (h' c' List.mem_cons_self)
      have hlen' := Nat.succ.inj hlen
      have hchar : c < c' ↔ c.toNat < c'.toNat := by
        rw [Char.lt_def, UInt32.lt_iff_toNat_lt]
        rfl
      have hinj : c = c' ↔ c.toNat = c'.toNat := Char.toNat_inj.symm
      rw [List.cons_lt_cons_iff, Nat.ofDigitChars_cons, Nat.ofDigitChars_cons, hchar, hinj]
      obtain hlt | heq | hgt := Nat.lt_trichotomy c.toNat c'.toNat
      · have hnumber := ofDigitChars_lt_of_lt hl hlen' (show
          10 * init + (c.toNat - 48) < 10 * init + (c'.toNat - 48) by omega)
        exact iff_of_true (.inl hlt) hnumber
      · rw [heq]
        simpa using ih hl hl' hlen' (10 * init + (c'.toNat - 48))
      · have hnumber := ofDigitChars_lt_of_lt hl' hlen'.symm (show
          10 * init + (c'.toNat - 48) < 10 * init + (c.toNat - 48) by omega)
        exact iff_of_false (by omega) (Nat.lt_asymm hnumber)

end Decimal
