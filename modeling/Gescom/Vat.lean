import Gescom.Billing.Webhook
import Gescom.Erp.Amounts

/-!
# The two directions of the VAT

A sale adds the VAT to an amount without tax (`lineTotals`); the invoice of a subscription takes it
out of the amount that was paid (`invoice-generation.service.ts:46`). Each direction rounds once. At
the rate of the invoices, 18%, the second undoes the first: half a unit divided by 1.18 is less than
half a unit.
-/

namespace Gescom

open Erp (LineTotals mathRound mathRound_div)

/-- `lineTotals` of the sales, at the rate of the invoices. -/
def lineTotalsAtRate (quantity unitPriceExcludingTax : Int) : LineTotals :=
  Erp.SalesRepository.lineTotals quantity unitPriceExcludingTax Billing.vatRateBasisPoints

/-- `amountExcludingTax` and `vatAmount` of the invoice of a payment. -/
def splitAmount (amount : Int) : Int × Int :=
  (Billing.amountExcludingTax amount, amount - Billing.amountExcludingTax amount)

theorem splitAmount_invoiceFor (id : Uuid) (now : Instant) (ent : Billing.Enterprise)
    (subscriptionId : Uuid) (updated : Billing.Payment) (sequence : Nat) :
    splitAmount updated.amount =
      ((Billing.invoiceFor id now ent subscriptionId updated sequence).amountExcludingTax,
        (Billing.invoiceFor id now ent subscriptionId updated sequence).vatAmount) := rfl

/-! ## One rounding -/

theorem roundDiv_bounds (num den : Int) (hden : 0 < den) :
    2 * den * roundDiv num den ≤ 2 * num + den ∧
      2 * num + den < 2 * den * roundDiv num den + 2 * den := by
  have hpos : 0 < 2 * den := by omega
  have hdiv := Int.mul_ediv_add_emod (2 * num + den) (2 * den)
  have hnonneg := Int.emod_nonneg (2 * num + den) (Int.ne_of_gt hpos)
  have hlt := Int.emod_lt_of_pos (2 * num + den) hpos
  unfold roundDiv
  constructor
  · omega
  · omega

/-- The VAT of an amount without tax, up to the rounding. -/
theorem vat_bounds (quantity price : Int) :
    20000 * (lineTotalsAtRate quantity price).lineTotalVat ≤ 3600 * (quantity * price) + 10000 ∧
      3600 * (quantity * price) + 10000 <
        20000 * (lineTotalsAtRate quantity price).lineTotalVat + 20000 := by
  have hvat : (lineTotalsAtRate quantity price).lineTotalVat =
      roundDiv (quantity * price * 1800) 10000 := mathRound_div (quantity * price * 1800)
  have hbounds := roundDiv_bounds (quantity * price * 1800) 10000 (by decide)
  rw [hvat]
  constructor
  · omega
  · omega

/-- The part without tax of an amount, up to the rounding. -/
theorem split_bounds (amount : Int) :
    23600 * (splitAmount amount).1 ≤ 20000 * amount + 11800 ∧
      20000 * amount + 11800 < 23600 * (splitAmount amount).1 + 23600 := by
  have hbounds := roundDiv_bounds (amount * 10000) 11800 (by decide)
  have hsplit : (splitAmount amount).1 = roundDiv (amount * 10000) 11800 := rfl
  rw [hsplit]
  constructor
  · omega
  · omega

theorem split_sum (amount : Int) : (splitAmount amount).1 + (splitAmount amount).2 = amount :=
  add_sub_cancel _ _

theorem total_eq (quantity price : Int) :
    (lineTotalsAtRate quantity price).lineTotalIncludingTax =
      quantity * price + (lineTotalsAtRate quantity price).lineTotalVat := rfl

/-! ## The two roundings -/

/-- What the two directions have to do with each other. -/
structure VatDirections : Prop where
  inverse : ∀ quantity price, 0 ≤ quantity * price →
    splitAmount (lineTotalsAtRate quantity price).lineTotalIncludingTax =
      ((lineTotalsAtRate quantity price).lineTotalExcludingTax,
        (lineTotalsAtRate quantity price).lineTotalVat)
  nonneg : ∀ amount, 0 ≤ amount → 0 ≤ (splitAmount amount).1 ∧ 0 ≤ (splitAmount amount).2
  monotone : ∀ amount amount', 0 ≤ amount → amount ≤ amount' →
    (splitAmount amount).1 ≤ (splitAmount amount').1 ∧
      (splitAmount amount).2 ≤ (splitAmount amount').2
  sum : ∀ amount, (splitAmount amount).1 + (splitAmount amount).2 = amount
  near : ∀ amount, 0 ≤ amount →
    |(lineTotalsAtRate 1 (splitAmount amount).1).lineTotalIncludingTax - amount| ≤ 1

/-- Taking the VAT out of a total gives back the amount it was added to. -/
theorem split_total (quantity price : Int) :
    splitAmount (lineTotalsAtRate quantity price).lineTotalIncludingTax =
      (quantity * price, (lineTotalsAtRate quantity price).lineTotalVat) := by
  obtain ⟨hvat, hvat'⟩ := vat_bounds quantity price
  obtain ⟨hsplit, hsplit'⟩ :=
    split_bounds (lineTotalsAtRate quantity price).lineTotalIncludingTax
  have hsum := split_sum (lineTotalsAtRate quantity price).lineTotalIncludingTax
  rw [total_eq] at hsplit hsplit' hsum ⊢
  -- 1.18 times the amount and half a unit at most, divided by 1.18, rounds to the amount
  have hfirst : (splitAmount (quantity * price +
      (lineTotalsAtRate quantity price).lineTotalVat)).1 = quantity * price := by omega
  exact Prod.ext hfirst (by omega)

theorem vat_directions : VatDirections where
  inverse quantity price _ := split_total quantity price
  nonneg amount hamount := by
    obtain ⟨hle, hlt⟩ := split_bounds amount
    have hsum := split_sum amount
    constructor
    · omega
    · omega
  monotone amount amount' _ hle := by
    obtain ⟨h, h'⟩ := split_bounds amount
    obtain ⟨k, k'⟩ := split_bounds amount'
    have hsum := split_sum amount
    have ksum := split_sum amount'
    constructor
    · omega
    · omega
  sum := split_sum
  near amount _ := by
    obtain ⟨hsplit, hsplit'⟩ := split_bounds amount
    obtain ⟨hvat, hvat'⟩ := vat_bounds 1 (splitAmount amount).1
    rw [total_eq, abs_le]
    constructor
    · omega
    · omega

end Gescom
