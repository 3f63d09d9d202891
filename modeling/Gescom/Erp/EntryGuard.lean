import Gescom.Erp.DocumentRepositories
import Gescom.Lib.Binary64
import Mathlib.Algebra.BigOperators.Ring.Finset

/-!
# The double entry, checked twice (`journal.repository.ts:79`)

`createJournalEntrySchema` checks the lines of an entry at the HTTP boundary, and the head of
`JournalRepository.create` checks them again for callers that bypass it. Both add the amounts up as
JavaScript does, and round the sums. The second check looks at the signs and the sums only: a
negative amount may hide on the other side of a positive one. `guard_iff_schema` gives the lists of
lines on which the two agree; `negative_side` is not one.
-/

namespace Gescom.Erp

open Binary64

/-- The amounts of a line, as a caller of `create` may give them. -/
structure EntryAmounts where
  debitAmount : Int
  creditAmount : Int
  deriving DecidableEq, Repr

def totalDebit (lines : List EntryAmounts) : Number :=
  Number.sum (lines.map EntryAmounts.debitAmount)

def totalCredit (lines : List EntryAmounts) : Number :=
  Number.sum (lines.map EntryAmounts.creditAmount)

/-- `(line.debitAmount > 0) !== (line.creditAmount > 0)`. -/
def EntryAmounts.oneSide (l : EntryAmounts) : Bool :=
  decide (0 < l.debitAmount) != decide (0 < l.creditAmount)

/-- The checks at the head of `create`; `none` lets the entry pass. -/
def createGuard (lines : List EntryAmounts) : Option ApiError :=
  if !(totalDebit lines).equal (totalCredit lines) || (totalDebit lines).nonpositive then
    some (.conflict
      "Écriture déséquilibrée : le total des débits doit être égal au total des crédits")
  else if lines.any fun l => !l.oneSide then
    some (.conflict
      "Une ligne doit porter soit un débit, soit un crédit, jamais les deux ni aucun des deux")
  else none

/-- `createJournalEntryLineInputSchema` (`accounting.ts:28`). -/
def EntryAmounts.accepted (l : EntryAmounts) : Bool :=
  decide (0 ≤ l.debitAmount) && decide (0 ≤ l.creditAmount) && l.oneSide

/-- The rules of `createJournalEntrySchema` on the lines (`accounting.ts:44`). -/
def schemaAccepts (lines : List EntryAmounts) : Bool :=
  lines.all EntryAmounts.accepted && decide (2 ≤ lines.length) &&
    (totalDebit lines).equal (totalCredit lines) && (totalDebit lines).positive

/-- `journal_entry_lines_amounts_check`. -/
def EntryAmounts.sqlCheck (l : EntryAmounts) : Bool :=
  decide (0 ≤ l.debitAmount) && (decide (0 ≤ l.creditAmount) && l.oneSide)

def JournalLineInput.amounts (l : JournalLineInput) : EntryAmounts :=
  ⟨l.debitAmount, l.creditAmount⟩

theorem any_amounts (ls : List JournalLineInput) :
    ((ls.map JournalLineInput.amounts).any fun l => !l.oneSide) =
      ls.any fun l => decide (0 < l.debitAmount) == decide (0 < l.creditAmount) := by
  rw [List.any_map]
  refine congrArg ls.any (funext fun l => ?_)
  simp [EntryAmounts.oneSide, JournalLineInput.amounts, bne]

/-- Amounts that are no larger than 2^53 together are added up exactly. -/
theorem sum_amounts {ls : List JournalLineInput} (f : JournalLineInput → Nat)
    (h : (ls.map f).sum ≤ 2 ^ 53) :
    Number.sum (ls.map fun l => (f l : Int)) = .finite ((ls.map f).sum : Nat) := by
  have hcast : ((ls.map fun l => (f l : Int)).sum : Int) = ((ls.map f).sum : Nat) := by
    rw [Nat.cast_list_sum, List.map_map]
    rfl
  have habs : ((ls.map fun l => (f l : Int)).map fun n => |n|) = ls.map fun l => (f l : Int) := by
    rw [List.map_map]
    exact List.map_congr_left fun l _ => abs_of_nonneg (Int.natCast_nonneg (f l))
  rw [Number.sum_exact (by rw [habs, hcast]; exact_mod_cast h), hcast]
  rfl

/-- On lines that the schema has let through, `check` is the guard: their amounts are of 32 bits, and
would have to be two million to leave the numbers that add up exactly. -/
theorem check_eq_guard (input : CreateJournalEntryInput)
    (hdebit : (input.lines.map JournalLineInput.debitAmount).sum ≤ 2 ^ 53)
    (hcredit : (input.lines.map JournalLineInput.creditAmount).sum ≤ 2 ^ 53) :
    input.check = createGuard (input.lines.map JournalLineInput.amounts) := by
  have hdebits : totalDebit (input.lines.map JournalLineInput.amounts) =
      .finite ((input.lines.map JournalLineInput.debitAmount).sum : Nat) := by
    rw [totalDebit, List.map_map]
    exact sum_amounts JournalLineInput.debitAmount hdebit
  have hcredits : totalCredit (input.lines.map JournalLineInput.amounts) =
      .finite ((input.lines.map JournalLineInput.creditAmount).sum : Nat) := by
    rw [totalCredit, List.map_map]
    exact sum_amounts JournalLineInput.creditAmount hcredit
  unfold CreateJournalEntryInput.check createGuard
  simp only [hdebits, hcredits, any_amounts, Number.equal, Number.nonpositive, Bool.or_eq_true,
    Bool.not_eq_true', decide_eq_false_iff_not, decide_eq_true_eq, Nat.cast_inj, ne_eq,
    Nat.cast_nonpos]

variable {lines : List EntryAmounts}

/-! ## What each of them accepts -/

/-- Balanced as the sums come out, with one strictly positive side on every line. -/
structure Balanced (lines : List EntryAmounts) : Prop where
  equal : (totalDebit lines).equal (totalCredit lines) = true
  positive : (totalDebit lines).positive = true
  oneSide : ∀ l ∈ lines, l.oneSide = true

def Nonnegative (lines : List EntryAmounts) : Prop :=
  ∀ l ∈ lines, 0 ≤ l.debitAmount ∧ 0 ≤ l.creditAmount

theorem createGuard_eq_none : createGuard lines = none ↔ Balanced lines := by
  unfold createGuard
  constructor
  · intro h
    split at h
    · cases h
    · rename_i hsums
      split at h
      · cases h
      · rename_i hsides
        rw [Bool.or_eq_true, not_or, Bool.not_eq_true, Bool.not_eq_false'] at hsums
        obtain ⟨hequal, hpositive⟩ := hsums
        rw [Number.nonpositive_eq (Number.equal_iff.1 hequal).2] at hpositive
        refine ⟨hequal, by simpa using hpositive, fun l hl => ?_⟩
        by_contra hside
        exact hsides (List.any_eq_true.2 ⟨l, hl, by simpa using hside⟩)
  · intro h
    have hnonpositive : (totalDebit lines).nonpositive = false := by
      rw [Number.nonpositive_eq (Number.equal_iff.1 h.equal).2, h.positive]
      rfl
    have hsides : (lines.any fun l => !l.oneSide) = false :=
      List.any_eq_false.2 fun l hl => by simp [h.oneSide l hl]
    rw [h.equal, hnonpositive, hsides]
    rfl

/-- That there are two lines follows from the other rules. -/
theorem Balanced.two_le (h : Balanced lines) : 2 ≤ lines.length := by
  cases lines with
  | nil =>
    have hpositive : (Number.sum []).positive = true := h.positive
    revert hpositive
    decide +kernel
  | cons l rest =>
    cases rest with
    | nil =>
      -- a sum of one amount has its sign, so the line would have two positive sides
      have hdebit : (Number.sum [l.debitAmount]).positive = true := h.positive
      have hcredit : (Number.sum [l.creditAmount]).positive = true := by
        have hequal : Number.sum [l.debitAmount] = Number.sum [l.creditAmount] :=
          (Number.equal_iff.1 h.equal).1
        rw [← hequal]
        exact hdebit
      have hside := h.oneSide l (List.mem_singleton.2 rfl)
      simp [EntryAmounts.oneSide, Number.pos_of_positive_sum hdebit,
        Number.pos_of_positive_sum hcredit] at hside
    | cons l' rest => exact Nat.le_add_left 2 rest.length

theorem accepted_iff {l : EntryAmounts} : l.accepted = true ↔
    (0 ≤ l.debitAmount ∧ 0 ≤ l.creditAmount) ∧ l.oneSide = true := by
  simp [EntryAmounts.accepted]

theorem schemaAccepts_iff : schemaAccepts lines = true ↔ Balanced lines ∧ Nonnegative lines := by
  simp only [schemaAccepts, Bool.and_eq_true, List.all_eq_true, accepted_iff, decide_eq_true_eq]
  constructor
  · rintro ⟨⟨⟨haccepted, -⟩, hequal⟩, hpositive⟩
    exact ⟨⟨hequal, hpositive, fun l hl => (haccepted l hl).2⟩, fun l hl => (haccepted l hl).1⟩
  · rintro ⟨hbalanced, hnonneg⟩
    exact ⟨⟨⟨fun l hl => ⟨hnonneg l hl, hbalanced.oneSide l hl⟩, hbalanced.two_le⟩,
      hbalanced.equal⟩, hbalanced.positive⟩

/-- The check of the database makes up for what the guard misses. -/
theorem guard_and_sqlCheck : (createGuard lines = none ∧ ∀ l ∈ lines, l.sqlCheck = true) ↔
    schemaAccepts lines = true := by
  rw [createGuard_eq_none, schemaAccepts_iff]
  refine and_congr_right fun hbalanced => forall₂_congr fun l hl => ?_
  simp [EntryAmounts.sqlCheck, hbalanced.oneSide l hl]

/-! ## The result -/

/-- The guard is as strong as the schema, and lets nothing through that the database refuses. -/
structure AsStrong (lines : List EntryAmounts) : Prop where
  schema : createGuard lines = none ↔ schemaAccepts lines = true
  database : createGuard lines = none → ∀ l ∈ lines, l.sqlCheck = true

/-- The guard misses the lines with a negative amount that pass its other rules, and these only. -/
theorem guard_iff_schema (lines : List EntryAmounts) :
    AsStrong lines ↔ (Balanced lines → Nonnegative lines) := by
  constructor
  · intro h hbalanced
    exact (schemaAccepts_iff.1 (h.schema.1 (createGuard_eq_none.2 hbalanced))).2
  · intro h
    have hschema : createGuard lines = none ↔ schemaAccepts lines = true := by
      rw [createGuard_eq_none, schemaAccepts_iff]
      exact ⟨fun hbalanced => ⟨hbalanced, h hbalanced⟩, And.left⟩
    exact ⟨hschema, fun hguard => (guard_and_sqlCheck.2 (hschema.1 hguard)).2⟩

/-- 10 against -5, and -5 against 10. -/
theorem negative_side : ¬ AsStrong [⟨10, -5⟩, ⟨-5, 10⟩] := by
  intro h
  have hrefused : schemaAccepts [⟨10, -5⟩, ⟨-5, 10⟩] = true := h.schema.1 (by decide +kernel)
  revert hrefused
  decide +kernel

end Gescom.Erp
