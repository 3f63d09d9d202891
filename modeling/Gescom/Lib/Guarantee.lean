import Mathlib.Order.Defs.Unbundled
import Gescom.Lib.Confinement
import Gescom.Lib.Table

/-!
# What a program guarantees of the state

`Guaranteed G P m Q`: from a state with `P`, the program leaves a state that `G` relates to the first
one, with `Q`. `G` is a preorder, so that a program gives it when its statements do: it may be the
writes that lead from one state to the other, in any number. `Once`, `Stays` and `Appended` say how a
row, a table and a log may change from then on.
-/

namespace Confinement

universe u

variable {σ ε α β : Type} {G : σ → σ → Prop} {P P' : σ → Prop} {Q Q' : α → σ → Prop}
  {R : β → σ → Prop} {m : Program σ ε α}

def Guaranteed (G : σ → σ → Prop) (P : σ → Prop) (m : Program σ ε α) (Q : α → σ → Prop) : Prop :=
  ∀ s a s', P s → m s = .ok (a, s') → G s s' ∧ Q a s'

/-! ## Rules -/

theorem Guaranteed.conseq (h : Guaranteed G P m Q) (hP : ∀ s, P' s → P s)
    (hQ : ∀ a s, Q a s → Q' a s) : Guaranteed G P' m Q' := by
  intro s a s' hp hok
  obtain ⟨hg, hq⟩ := h s a s' (hP s hp) hok
  exact ⟨hg, hQ a s' hq⟩

theorem Guaranteed.throw (e : ε) : Guaranteed G P (MonadExcept.throw e : Program σ ε α) Q := by
  intro s a s' _ hok
  cases hok

section
variable [IsPreorder σ G]

theorem Guaranteed.pure (a : α) (h : ∀ s, P s → Q a s) :
    Guaranteed G P (Pure.pure a : Program σ ε α) Q := by
  intro s _ s' hp hok
  cases hok
  exact ⟨refl s, h s hp⟩

theorem Guaranteed.ask {q : σ → Except ε α} (h : ∀ s a, P s → q s = .ok a → Q a s) :
    Guaranteed G P (ask q) Q := by
  intro s a s' hp hok
  obtain ⟨hq, rfl⟩ := ask_ok hok
  exact ⟨refl s', h s' a hp hq⟩

/-- A query changes nothing. -/
theorem Guaranteed.query (q : σ → Except ε α) :
    Guaranteed G P (Confinement.ask q) fun _ _ => True :=
  .ask fun _ _ _ _ => trivial

theorem Guaranteed.bind {f : α → Program σ ε β} (h : Guaranteed G P m Q)
    (hf : ∀ a, Guaranteed G (Q a) (f a) R) : Guaranteed G P (m >>= f) R := by
  intro s b s'' hp hok
  obtain ⟨a, s', hm, hfa⟩ := bind_ok hok
  obtain ⟨hfirst, hq⟩ := h s a s' hp hm
  obtain ⟨hrest, hr⟩ := hf a s' b s'' hq hfa
  exact ⟨IsTrans.trans s s' s'' hfirst hrest, hr⟩

theorem Guaranteed.map (f : α → β) (h : Guaranteed G P m Q) (hR : ∀ a s, Q a s → R (f a) s) :
    Guaranteed G P (f <$> m) R :=
  h.bind fun a => .pure (f a) (hR a)

/-- A loop whose turns keep `P`. -/
theorem Guaranteed.forM {l : List β} {f : β → Program σ ε Unit}
    (h : ∀ b ∈ l, Guaranteed G P (f b) fun _ => P) : Guaranteed G P (l.forM f) fun _ => P := by
  induction l with
  | nil => exact .pure () fun _ hp => hp
  | cons b l ih =>
    have hfirst : Guaranteed G P (f b) fun _ => P := h b List.mem_cons_self
    have hrest : Guaranteed G P (l.forM f) fun _ => P :=
      ih fun c hc => h c (List.mem_cons_of_mem _ hc)
    exact hfirst.bind fun _ => hrest

end

theorem Guaranteed.ite {c : Prop} [Decidable c] {m m' : Program σ ε α}
    (ht : c → Guaranteed G P m Q) (hf : ¬c → Guaranteed G P m' Q) :
    Guaranteed G P (if c then m else m') Q := by
  split
  · rename_i hc
    exact ht hc
  · rename_i hc
    exact hf hc

theorem Guaranteed.mapError (f : ε → ε) (h : Guaranteed G P m Q) :
    Guaranteed G P (mapError f m) Q := by
  intro s a s' hp hok
  refine h s a s' hp ?_
  unfold Confinement.mapError at hok
  cases hm : m s with
  | error e =>
    rw [hm] at hok
    cases hok
  | ok r =>
    rw [hm] at hok
    cases hok
    rfl

theorem Guaranteed.rescue {handler : ε → Program σ ε α} (h : Guaranteed G P m Q)
    (hh : ∀ e, Guaranteed G P (handler e) Q) : Guaranteed G P (rescue m handler) Q := by
  intro s a s' hp hok
  unfold Confinement.rescue at hok
  cases hm : m s with
  | ok r =>
    rw [hm] at hok
    cases hok
    exact h s a s' hp hm
  | error e =>
    rw [hm] at hok
    exact hh e s a s' hp hok

/-- What an error would have changed is rolled back. -/
theorem Guaranteed.exec [IsPreorder σ G] (h : Guaranteed G (fun _ => True) m Q) (s : σ) :
    G s (exec m s).2 := by
  unfold Confinement.exec
  cases hm : m s with
  | error e => exact refl s
  | ok r => exact (h s r.1 r.2 trivial hm).1

/-! ## Invariants -/

/-- `I` is not lost. -/
def Preserves {σ : Type} (I : σ → Prop) (s s' : σ) : Prop := I s → I s'

instance {σ : Type} (I : σ → Prop) : IsPreorder σ (Preserves I) where
  refl _ h := h
  trans _ _ _ h h' hi := h' (h hi)

end Confinement

/-! ## What may change -/

/-- A change that happens once: what it leaves is no longer `p`. -/
def Once {α : Type} (p : α → Prop) (change : α → α → Prop) (a b : α) : Prop :=
  b = a ∨ p a ∧ change a b

theorem Once.refl {α : Type} {p : α → Prop} {change : α → α → Prop} (a : α) : Once p change a a :=
  .inl rfl

theorem Once.trans {α : Type} {p : α → Prop} {change : α → α → Prop} {a b c : α}
    (closes : ∀ a b, change a b → ¬p b) (h : Once p change a b) (h' : Once p change b c) :
    Once p change a c := by
  rcases h with rfl | ⟨hp, hchange⟩
  · exact h'
  · rcases h' with rfl | ⟨hp', -⟩
    · exact .inr ⟨hp, hchange⟩
    · exact absurd hp' (closes a b hchange)

namespace Table

variable {ρ κ : Type} [Keyed ρ κ] [DecidableEq κ] {R : ρ → ρ → Prop} {t u v : Table ρ}

/-- Every row is found again, `R` later. -/
def Stays (R : ρ → ρ → Prop) (t u : Table ρ) : Prop :=
  ∀ k r, t.find? k = some r → ∃ r', u.find? k = some r' ∧ R r r'

theorem Stays.refl (hR : ∀ r, R r r) (t : Table ρ) : t.Stays R t :=
  fun _ r h => ⟨r, h, hR r⟩

theorem Stays.trans (hR : ∀ r r' r'', R r r' → R r' r'' → R r r'') (h : t.Stays R u)
    (h' : u.Stays R v) : t.Stays R v := by
  intro k r hr
  obtain ⟨r', hr', hnext⟩ := h k r hr
  obtain ⟨r'', hr'', hlast⟩ := h' k r' hr'
  exact ⟨r'', hr'', hR r r' r'' hnext hlast⟩

theorem stays_insert (hR : ∀ r, R r r) (t : Table ρ) (r : ρ) : t.Stays R (t.insert r) :=
  fun _ x hx => ⟨x, find?_insert_of_some hx, hR x⟩

/-- The row of the update is the one that changes. -/
theorem stays_update (hR : ∀ r, R r r) {k : κ} {f : ρ → ρ} (hf : ∀ r, Keyed.key (f r) = Keyed.key r)
    (h : ∀ r, t.find? k = some r → R r (f r)) : t.Stays R (t.update k f hf) := by
  intro k' r hr
  rw [find?_update]
  by_cases hk : k' = k
  · subst hk
    rw [if_pos rfl, hr]
    exact ⟨f r, rfl, h r hr⟩
  · rw [if_neg hk]
    exact ⟨r, hr, hR r⟩

end Table

/-- A log that only grows, by entries with `p`. -/
def Appended {α : Type} (p : α → Prop) (l l' : List α) : Prop :=
  ∃ new, l' = l ++ new ∧ ∀ a ∈ new, p a

namespace Appended

variable {α : Type} {p : α → Prop} {l l' l'' : List α}

theorem refl (l : List α) : Appended p l l :=
  ⟨[], (List.append_nil l).symm, fun _ h => absurd h List.not_mem_nil⟩

theorem trans (h : Appended p l l') (h' : Appended p l' l'') : Appended p l l'' := by
  obtain ⟨new, rfl, hnew⟩ := h
  obtain ⟨newer, rfl, hnewer⟩ := h'
  refine ⟨new ++ newer, List.append_assoc l new newer, fun a ha => ?_⟩
  rcases List.mem_append.1 ha with hfirst | hlast
  · exact hnew a hfirst
  · exact hnewer a hlast

theorem one {a : α} (ha : p a) (l : List α) : Appended p l (l ++ [a]) :=
  ⟨[a], rfl, fun b hb => by rw [List.mem_singleton.1 hb]; exact ha⟩

theorem imp {q : α → Prop} (h : Appended p l l') (hpq : ∀ a, p a → q a) : Appended q l l' := by
  obtain ⟨new, rfl, hnew⟩ := h
  exact ⟨new, rfl, fun a ha => hpq a (hnew a ha)⟩

theorem mem (h : Appended p l l') {a : α} (ha : a ∈ l) : a ∈ l' := by
  obtain ⟨new, rfl, -⟩ := h
  exact List.mem_append_left new ha

end Appended
