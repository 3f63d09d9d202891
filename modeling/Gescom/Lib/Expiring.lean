import Mathlib.Order.Basic

/-!
# Caches whose entries expire

A cache in front of a source that changes. Each entry answers until its instant, `ttl` after it was
stored. `Bounded` says that no entry outlives `ttl`, and `Fades` that those with a value of a given
kind are over by a deadline; a source that has ceased to give such values makes the first into the
second, and past the deadline none is answered.
-/

namespace Expiring

variable {κ α : Type}

/-- For each key a value and the instant until which it answers. -/
abbrev Entries (κ α : Type) := κ → Option (α × Nat)

def Entries.hit (c : Entries κ α) (now : Nat) (k : κ) : Option α :=
  (c k).bind fun e => if now < e.2 then some e.1 else none

/-- Whatever `c'` holds was in `c`, or is a new entry for a key and value that meet `p`. -/
def Entries.Gains (ttl now : Nat) (p : κ → α → Prop) (c c' : Entries κ α) : Prop :=
  ∀ k v t, c' k = some (v, t) → c k = some (v, t) ∨ p k v ∧ t = now + ttl

def Entries.Bounded (ttl now : Nat) (c : Entries κ α) : Prop :=
  ∀ k v t, c k = some (v, t) → t ≤ now + ttl

/-- The entries that meet `p` are over by `deadline`. -/
def Entries.Fades (p : κ → α → Prop) (deadline : Nat) (c : Entries κ α) : Prop :=
  ∀ k v t, c k = some (v, t) → p k v → t ≤ deadline

variable {c c' : Entries κ α} {ttl now now' deadline : Nat} {p q : κ → α → Prop} {k : κ} {v : α}

theorem Entries.hit_eq_some : c.hit now k = some v ↔ ∃ t, c k = some (v, t) ∧ now < t := by
  unfold Entries.hit
  constructor
  · intro h
    obtain ⟨e, he, hv⟩ := Option.bind_eq_some_iff.1 h
    split at hv
    · rename_i hlt
      obtain rfl := Option.some.inj hv
      exact ⟨e.2, he, hlt⟩
    · cases hv
  · rintro ⟨t, ht, hlt⟩
    rw [ht, Option.bind_some, if_pos hlt]

theorem Entries.Gains.refl : c.Gains ttl now p c := fun _ _ _ h => .inl h

theorem Entries.Gains.mono (h : c.Gains ttl now p c') (hpq : ∀ k v, p k v → q k v) :
    c.Gains ttl now q c' := by
  intro k v t ht
  rcases h k v t ht with hold | ⟨hp, rfl⟩
  · exact .inl hold
  · exact .inr ⟨hpq k v hp, rfl⟩

theorem Entries.Bounded.later (h : c.Bounded ttl now) (hle : now ≤ now') : c.Bounded ttl now' := by
  intro k v t ht
  have hbound := h k v t ht
  omega

theorem Entries.Bounded.gains (h : c.Bounded ttl now) (hg : c.Gains ttl now p c') :
    c'.Bounded ttl now := by
  intro k v t ht
  rcases hg k v t ht with hold | ⟨-, rfl⟩
  · exact h k v t hold
  · exact Nat.le_refl _

/-- From now on there are `ttl` left for what is stored. -/
theorem Entries.Bounded.fades (h : c.Bounded ttl now) : c.Fades p (now + ttl) :=
  fun k v t ht _ => h k v t ht

theorem Entries.Fades.gains (h : c.Fades p deadline) (hg : c.Gains ttl now q c')
    (hpq : ∀ k v, q k v → ¬ p k v) : c'.Fades p deadline := by
  intro k v t ht hp
  rcases hg k v t ht with hold | ⟨hq, -⟩
  · exact h k v t hold hp
  · exact absurd hp (hpq k v hq)

theorem Entries.Fades.hit (h : c.Fades p deadline) (hnow : deadline ≤ now)
    (hhit : c.hit now k = some v) : ¬ p k v := by
  intro hp
  obtain ⟨t, ht, hlt⟩ := Entries.hit_eq_some.1 hhit
  have hend := h k v t ht hp
  omega

/-! ## When the source has ceased to give a value -/

/-- The source gives no value that meets `p`, nobody is about to store one, and those that `caches`
hold are over by `deadline`. -/
structure Ended (p : κ → α → Prop) (deadline : Nat) (source : κ → α) (caches : Nat → Entries κ α)
    (pending : κ → α → Prop) : Prop where
  source : ∀ k, ¬ p k (source k)
  caches : ∀ i, (caches i).Fades p deadline
  pending : ∀ k v, pending k v → ¬ p k v

variable {source source' : κ → α} {caches caches' : Nat → Entries κ α} {pending pending' : κ → α → Prop}

theorem Ended.of_bounded (hb : ∀ i, (caches i).Bounded ttl now) (hs : ∀ k, ¬ p k (source k))
    (hp : ∀ k v, pending k v → ¬ p k v) : Ended p (now + ttl) source caches pending :=
  ⟨hs, fun i => (hb i).fades, hp⟩

/-- Only what is pending is stored, and only what the source gives becomes pending. -/
theorem Ended.step (h : Ended p deadline source caches pending)
    (hg : ∀ i, (caches i).Gains ttl now pending (caches' i))
    (hp : ∀ k v, pending' k v → pending k v ∨ v = source k) (hs : ∀ k, ¬ p k (source' k)) :
    Ended p deadline source' caches' pending' where
  source := hs
  caches i := (h.caches i).gains (hg i) h.pending
  pending k v hv := by
    rcases hp k v hv with hold | rfl
    · exact h.pending k v hold
    · exact h.source k

theorem Ended.hit {i : Nat} (h : Ended p deadline source caches pending) (hnow : deadline ≤ now)
    (hhit : (caches i).hit now k = some v) : ¬ p k v :=
  (h.caches i).hit hnow hhit

end Expiring
