import Mathlib
import Gescom.Common

/-!
# Webhook signatures (`hmac-payment-provider.adapter.ts`)

A provider signs the bytes of `<timestamp>.<body>`. The body is arbitrary, so where the timestamp
ends is known only because `verifySignature` wants digits in it. The HMAC is a parameter: ideal, so
no two byte strings have one tag, and a tag is presented only if the holder of the secret made it.
-/

namespace Gescom.Billing

/-- `Buffer.from(s, "utf8")`. -/
def utf8 (s : String) : List UInt8 := s.toList.flatMap String.utf8EncodeChar

/-- `/^\d+$/`. -/
def digitsOnly (s : String) : Bool := !s.isEmpty && s.toList.all Char.isDigit

/-- `Number(s)` of a string of digits. -/
def numberOfDigits (s : String) : ℚ := Nat.ofDigitChars 10 s.toList 0

/-- `createHmac("sha256", secret).update(payload).digest("hex")`. -/
abbrev Hmac := String → List UInt8 → String

structure HmacPaymentProviderAdapter where
  secret : String
  replayToleranceSeconds : ℚ

/-- `${timestampHeader}.` and the body. -/
def signedPayload (timestamp : String) (rawBody : List UInt8) : List UInt8 :=
  utf8 (timestamp ++ ".") ++ rawBody

namespace HmacPaymentProviderAdapter

variable (a : HmacPaymentProviderAdapter)

def ageSeconds (now : Instant) (timestamp : String) : ℚ :=
  |(now : ℚ) / 1000 - numberOfDigits timestamp|

def verifySignature (hmac : Hmac) (now : Instant) (rawBody : List UInt8)
    (signatureHeader timestampHeader : Option String) : Bool :=
  match signatureHeader, timestampHeader with
  | some signature, some timestamp =>
    if signature = "" ∨ timestamp = "" ∨ digitsOnly timestamp = false then false
    else if a.replayToleranceSeconds < ageSeconds now timestamp then false
    else
      let expected := utf8 (hmac a.secret (signedPayload timestamp rawBody))
      let provided := utf8 signature
      if expected.length ≠ provided.length then false else decide (expected = provided)
  | _, _ => false

end HmacPaymentProviderAdapter

/-! ## Bytes -/

theorem toByteArray_utf8 (s : String) : (utf8 s).toByteArray = s.toByteArray := by
  rw [← String.utf8Encode_toList]
  rfl

theorem utf8_injective : Function.Injective utf8 := fun s s' h =>
  String.toByteArray_inj.1 (by rw [← toByteArray_utf8, h, toByteArray_utf8])

theorem utf8_append (s s' : String) : utf8 (s ++ s') = utf8 s ++ utf8 s' := by
  rw [utf8, String.toList_append, List.flatMap_append]
  rfl

/-- The byte of the dot is in the encoding of no digit. -/
theorem dot_notMem_utf8EncodeChar {c : Char} (hc : c.isDigit = true) :
    46 ∉ String.utf8EncodeChar c := by
  obtain ⟨hle, hge⟩ : 48 ≤ c.toNat ∧ c.toNat ≤ 57 := Char.isDigit_iff_toNat.1 hc
  have hsize : c.utf8Size = 1 := by
    have hval : c.val ≤ 127 := UInt32.le_iff_toNat_le.2 (Nat.le_trans hge (by decide))
    exact if_pos hval
  rw [String.utf8EncodeChar_eq_singleton hsize, List.mem_singleton]
  intro hdot
  have hnat := congrArg UInt8.toNat hdot
  rw [UInt32.toNat_toUInt8] at hnat
  have hmod : c.toNat % 256 = 46 := hnat.symm
  omega

theorem dot_notMem_utf8 {s : String} (h : digitsOnly s = true) : 46 ∉ utf8 s := by
  intro hmem
  obtain ⟨c, hc, hdot⟩ := List.mem_flatMap.1 hmem
  have hdigits := List.all_eq_true.1 (Bool.and_eq_true_iff.1 h).2
  exact dot_notMem_utf8EncodeChar (hdigits c hc) hdot

theorem signedPayload_eq (timestamp : String) (rawBody : List UInt8) :
    signedPayload timestamp rawBody = utf8 timestamp ++ 46 :: rawBody := by
  rw [signedPayload, utf8_append, List.append_assoc]
  rfl

/-- Two lists that are cut at their first separator. -/
theorem append_cons_inj {α : Type} {sep : α} {l l' r r' : List α} (h : sep ∉ l) (h' : sep ∉ l') :
    l ++ sep :: r = l' ++ sep :: r' ↔ l = l' ∧ r = r' := by
  induction l generalizing l' with
  | nil =>
    cases l' with
    | nil => simp
    | cons x l' =>
      have hne : sep ≠ x := fun hx => h' (hx ▸ List.mem_cons_self)
      simp [hne]
  | cons x l ih =>
    cases l' with
    | nil =>
      have hne : x ≠ sep := fun hx => h (hx ▸ List.mem_cons_self)
      simp [hne]
    | cons y l' =>
      rw [List.cons_append, List.cons_append, List.cons.injEq, List.cons.injEq, and_assoc,
        ih (fun hl => h (List.mem_cons_of_mem x hl)) fun hl => h' (List.mem_cons_of_mem y hl)]

/-- The first dot ends the timestamp. -/
theorem signedPayload_inj {t t' : String} {b b' : List UInt8} (ht : digitsOnly t = true)
    (ht' : digitsOnly t' = true) : signedPayload t b = signedPayload t' b' ↔ (t, b) = (t', b') := by
  rw [signedPayload_eq, signedPayload_eq, append_cons_inj (dot_notMem_utf8 ht) (dot_notMem_utf8 ht'),
    utf8_injective.eq_iff, Prod.mk.injEq]

/-! ## What is accepted -/

/-- The hash under one secret: no two byte strings have one tag, and no tag is empty. -/
structure IdealMac (tag : List UInt8 → String) : Prop where
  injective : Function.Injective tag
  ne_empty : ∀ m, tag m ≠ ""

/-- What the holder of the secret sends with a timestamp and a body. -/
def HmacPaymentProviderAdapter.sign (a : HmacPaymentProviderAdapter) (hmac : Hmac)
    (p : String × List UInt8) : String :=
  hmac a.secret (signedPayload p.1 p.2)

variable {a : HmacPaymentProviderAdapter} {hmac : Hmac} {now : Instant} {rawBody : List UInt8}
  {signature timestamp : String}

/-- Digits, and no older or later than the tolerance. -/
structure HmacPaymentProviderAdapter.Fresh (a : HmacPaymentProviderAdapter) (now : Instant)
    (timestamp : String) : Prop where
  digits : digitsOnly timestamp = true
  age : |(now : ℚ) / 1000 - numberOfDigits timestamp| ≤ a.replayToleranceSeconds

theorem ne_empty_of_digitsOnly (h : digitsOnly timestamp = true) : timestamp ≠ "" := by
  rintro rfl
  cases h

theorem verifySignature_iff (htag : ∀ m, hmac a.secret m ≠ "") :
    a.verifySignature hmac now rawBody (some signature) (some timestamp) = true ↔
      a.Fresh now timestamp ∧ signature = a.sign hmac (timestamp, rawBody) := by
  unfold HmacPaymentProviderAdapter.verifySignature
  constructor
  · intro h
    simp only at h
    split at h
    · cases h
    · rename_i hheaders
      split at h
      · cases h
      · rename_i hage
        split at h
        · cases h
        · obtain ⟨-, -, hdigits⟩ := not_or.1 hheaders |>.imp id not_or.1
          exact ⟨⟨Bool.not_eq_false _ ▸ hdigits, not_lt.1 hage⟩,
            (utf8_injective (of_decide_eq_true h)).symm⟩
  · rintro ⟨⟨hdigits, hage⟩, rfl⟩
    have hheaders : ¬ (a.sign hmac (timestamp, rawBody) = "" ∨ timestamp = "" ∨
        digitsOnly timestamp = false) := by
      rintro (hempty | hempty | hfalse)
      · exact htag _ hempty
      · exact ne_empty_of_digitsOnly hdigits hempty
      · exact Bool.noConfusion (hfalse.symm.trans hdigits)
    have hfresh : ¬ a.replayToleranceSeconds <
        HmacPaymentProviderAdapter.ageSeconds now timestamp := not_lt.2 hage
    simp only
    rw [if_neg hheaders, if_neg hfresh]
    simp [HmacPaymentProviderAdapter.sign]

/-- A request has both headers, or is refused. -/
theorem headers_of_verifySignature {signatureHeader timestampHeader : Option String}
    (h : a.verifySignature hmac now rawBody signatureHeader timestampHeader = true) :
    ∃ signature timestamp, signatureHeader = some signature ∧
      timestampHeader = some timestamp := by
  cases signatureHeader with
  | none => cases h
  | some signature =>
    cases timestampHeader with
    | none => cases h
    | some timestamp => exact ⟨signature, timestamp, rfl, rfl⟩

/-! ## The result -/

variable {signed : Set (String × List UInt8)}

/-- A header that is the tag of some byte string is one that the holder of the secret gave out. -/
def HmacPaymentProviderAdapter.Unforged (a : HmacPaymentProviderAdapter) (hmac : Hmac)
    (signed : Set (String × List UInt8)) (signatureHeader : Option String) : Prop :=
  ∀ m, signatureHeader = some (hmac a.secret m) → ∃ p ∈ signed, signatureHeader =
    some (a.sign hmac p)

/-- A signature is good for one timestamp and one body. -/
structure AuthenticatesOne (a : HmacPaymentProviderAdapter) (hmac : Hmac)
    (signed : Set (String × List UInt8)) : Prop where
  verify : ∀ now rawBody signatureHeader timestampHeader, a.Unforged hmac signed signatureHeader →
    (a.verifySignature hmac now rawBody signatureHeader timestampHeader = true ↔
      ∃ timestamp, timestampHeader = some timestamp ∧ a.Fresh now timestamp ∧
        (timestamp, rawBody) ∈ signed ∧ signatureHeader = some (a.sign hmac (timestamp, rawBody)))
  reattached : ∀ p ∈ signed, ∀ now rawBody timestamp,
    a.verifySignature hmac now rawBody (some (a.sign hmac p)) (some timestamp) = true →
      (timestamp, rawBody) = p
  payload : ∀ p p' : String × List UInt8, digitsOnly p.1 = true → digitsOnly p'.1 = true →
    signedPayload p.1 p.2 = signedPayload p'.1 p'.2 → p = p'

theorem sign_inj (hmac_injective : Function.Injective (hmac a.secret))
    {p p' : String × List UInt8} (hp : digitsOnly p.1 = true) (hp' : digitsOnly p'.1 = true) :
    a.sign hmac p = a.sign hmac p' ↔ p = p' :=
  hmac_injective.eq_iff.trans (signedPayload_inj hp hp')

/-- What passes is a pair that was signed, under its own signature. -/
theorem signed_of_verifySignature {signatureHeader timestampHeader : Option String}
    (hmac_ideal : IdealMac (hmac a.secret)) (hdigits : ∀ p ∈ signed, digitsOnly p.1 = true)
    (hunforged : a.Unforged hmac signed signatureHeader)
    (h : a.verifySignature hmac now rawBody signatureHeader timestampHeader = true) :
    ∃ timestamp, timestampHeader = some timestamp ∧ a.Fresh now timestamp ∧
      (timestamp, rawBody) ∈ signed ∧
      signatureHeader = some (a.sign hmac (timestamp, rawBody)) := by
  obtain ⟨signature, timestamp, rfl, rfl⟩ := headers_of_verifySignature h
  obtain ⟨hfresh, hsignature⟩ := (verifySignature_iff hmac_ideal.ne_empty).1 h
  obtain ⟨p, hp, hsign⟩ := hunforged _ (congrArg some hsignature)
  have hpair : (timestamp, rawBody) = p :=
    (sign_inj hmac_ideal.injective hfresh.digits (hdigits p hp)).1
      (hsignature.symm.trans (Option.some.inj hsign))
  exact ⟨timestamp, rfl, hfresh, hpair ▸ hp, congrArg some hsignature⟩

theorem authenticatesOne (a : HmacPaymentProviderAdapter) (hmac : Hmac)
    (signed : Set (String × List UInt8)) (hmac_ideal : IdealMac (hmac a.secret))
    (hdigits : ∀ p ∈ signed, digitsOnly p.1 = true) : AuthenticatesOne a hmac signed where
  verify now rawBody signatureHeader timestampHeader hunforged := by
    constructor
    · exact signed_of_verifySignature hmac_ideal hdigits hunforged
    · rintro ⟨timestamp, rfl, hfresh, -, rfl⟩
      exact (verifySignature_iff hmac_ideal.ne_empty).2 ⟨hfresh, rfl⟩
  reattached p hp now rawBody timestamp h := by
    obtain ⟨hfresh, hsign⟩ := (verifySignature_iff hmac_ideal.ne_empty).1 h
    exact (sign_inj hmac_ideal.injective hfresh.digits (hdigits p hp)).1 hsign.symm
  payload p p' hp hp' h := (signedPayload_inj hp hp').1 h

/-! ## A signature -/

def sampleAdapter : HmacPaymentProviderAdapter where
  secret := "test-secret-not-for-production"
  replayToleranceSeconds := 300

def samplePair : String × List UInt8 := ("1700000000", utf8 "\x7b\x7d")

def sampleTag : String := "49626e3d632a4c2069124732dbe505a79be40b0d0f17c3eee21df98f0a2ed0ec"

/-- The tag of the pair, and for the other byte strings no two alike. -/
def sampleHmac : Hmac := fun _ m =>
  if m = signedPayload samplePair.1 samplePair.2 then sampleTag
  else String.ofList ('.' :: m.map Char.ofUInt8)

theorem ofUInt8_injective : Function.Injective Char.ofUInt8 := by
  intro b b' h
  have hval : b.toUInt32 = b'.toUInt32 := congrArg Char.val h
  have hnat := congrArg UInt32.toNat hval
  rw [UInt8.toNat_toUInt32, UInt8.toNat_toUInt32] at hnat
  exact UInt8.toNat_inj.1 hnat

theorem sampleTag_ne (l : List Char) : sampleTag ≠ String.ofList ('.' :: l) := by
  intro h
  have hlist := congrArg String.toList h
  rw [String.toList_ofList] at hlist
  have hhead : ('4' : Char) = '.' := (List.cons.inj hlist).1
  revert hhead
  decide

theorem sampleHmac_ideal (secret : String) : IdealMac (sampleHmac secret) where
  injective m m' h := by
    unfold sampleHmac at h
    split at h <;> split at h
    · rename_i hm hm'
      exact hm.trans hm'.symm
    · exact absurd h (sampleTag_ne _)
    · exact absurd h.symm (sampleTag_ne _)
    · have hlist := List.cons.inj (String.ofList_injective h)
      exact List.map_injective_iff.2 ofUInt8_injective hlist.2
  ne_empty m h := by
    unfold sampleHmac at h
    split at h
    · revert h
      decide
    · have hlist := congrArg String.toList h
      rw [String.toList_ofList] at hlist
      cases hlist

theorem samplePair_authenticated :
    IdealMac (sampleHmac sampleAdapter.secret) ∧
      (∀ p ∈ ({samplePair} : Set (String × List UInt8)), digitsOnly p.1 = true) ∧
      AuthenticatesOne sampleAdapter sampleHmac {samplePair} := by
  have hdigits : ∀ p ∈ ({samplePair} : Set (String × List UInt8)), digitsOnly p.1 = true := by
    rintro p rfl
    decide
  exact ⟨sampleHmac_ideal _, hdigits,
    authenticatesOne sampleAdapter sampleHmac {samplePair} (sampleHmac_ideal _) hdigits⟩

end Gescom.Billing
