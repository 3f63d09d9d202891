import Mathlib.Algebra.Group.Nat.Defs
import Mathlib.Data.List.Basic

/-!
# Values shared by every part of the application

Identifiers, instants, the exceptions a NestJS service throws, and the integer rounding and number
formatting that documents use.
-/

namespace Gescom

/-- A UUID as its 128-bit value. -/
abbrev Uuid := Nat

/-- Milliseconds since the epoch (`Date.getTime()`). -/
abbrev Instant := Nat

/-- The same for a date that comes from a client: it may lie before the epoch. -/
abbrev UtcDate := Int

/-- `@prisma/client` known request errors the code looks at. -/
inductive PrismaCode where
  | p2002 -- unique constraint
  | p2025 -- record not found (`findUniqueOrThrow`, `update`)
  | p2034 -- serialization failure
  deriving DecidableEq, Repr

/-- The exceptions that leave a service. -/
inductive ApiError where
  | badRequest (message : String)
  | unauthorized (message : String)
  | forbidden (message : String)
  | notFound (message : String)
  | conflict (message : String)
  | tooManyRequests (message : String)
  | prisma (code : PrismaCode)
  | internal (message : String) -- any other `Error`
  deriving DecidableEq, Repr

/-- `Math.round(num / den)` for `0 < den`: halves are rounded up. -/
def roundDiv (num den : Int) : Int := (2 * num + den) / (2 * den)

def hexDigit (n : Nat) : Char := "0123456789abcdef".toList.getD n '0'

/-- `count` hexadecimal digits of an identifier, from digit `start` of its 32. -/
def hexDigits (id : Uuid) (start count : Nat) : String :=
  String.ofList ((List.range count).map fun i => hexDigit (id / 16 ^ (31 - start - i) % 16))

/-- The text form, in groups of 8, 4, 4, 4 and 12 digits. -/
def uuidText (id : Uuid) : String :=
  String.intercalate "-"
    [hexDigits id 0 8, hexDigits id 8 4, hexDigits id 12 4, hexDigits id 16 4, hexDigits id 20 12]

/-- `id.slice(0, 8).toUpperCase()`. -/
def slice8Upper (id : Uuid) : String := (hexDigits id 0 8).toUpper

/-- `String(n).padStart(width, "0")`. -/
def padStart (n width : Nat) : String :=
  String.ofList ((Nat.toDigits 10 n).leftpad width '0')

/-! ## Numbers -/

theorem ofDigitChars_padStart (n width : Nat) :
    Nat.ofDigitChars 10 (padStart n width).toList 0 = n := by
  simp [padStart, List.leftpad, Nat.ofDigitChars_append]

/-- Padding loses nothing, also beyond the width. -/
theorem padStart_inj {n n' width : Nat} : padStart n width = padStart n' width ↔ n = n' := by
  refine ⟨fun h => ?_, fun h => by rw [h]⟩
  rw [← ofDigitChars_padStart n width, h, ofDigitChars_padStart]

theorem length_slice8Upper (id : Uuid) : (slice8Upper id).toList.length = 8 := by
  simp [slice8Upper, hexDigits, String.toUpper]

/-- The common format of the three numbers. -/
theorem format_inj (letters : String) (e e' : Uuid) (n n' : Nat) :
    letters ++ slice8Upper e ++ "-" ++ padStart n 6 =
        letters ++ slice8Upper e' ++ "-" ++ padStart n' 6 ↔
      slice8Upper e = slice8Upper e' ∧ n = n' := by
  constructor
  · intro h
    have hlist := congrArg String.toList h
    simp only [String.toList_append, List.append_assoc] at hlist
    obtain ⟨hslice, hrest⟩ := List.append_inj (List.append_cancel_left hlist)
      ((length_slice8Upper e).trans (length_slice8Upper e').symm)
    exact ⟨String.toList_inj.1 hslice,
      padStart_inj.1 (String.toList_inj.1 (List.append_cancel_left hrest))⟩
  · rintro ⟨he, rfl⟩
    rw [he]

end Gescom
