import Mathlib.Control.Monad.Basic

/-!
# Programs confined to a part of the state

A program changes a state or throws, and a throw leaves the state as it was. A `Boundary` says which
part of the state a party sees (`view`), which part it must leave alone (`rest`), and what holds of
every state (`inv`). `Confined B P m Q` is a triple: from a state with `P`, the program answers on
the view what it answers on the whole state, leaves the rest as it was, and ends with `Q`.
`two_runs` is what the triple is for: states with one view give runs with the same answers.
-/

namespace Confinement

universe u

variable {σ τ ε α β : Type}

abbrev Program (σ ε α : Type) := StateT σ (Except ε) α

/-- A query: it reads the state, and may throw. -/
def ask (q : σ → Except ε α) : Program σ ε α := fun s => (q s).map fun a => (a, s)

/-- Other errors, the same effects. -/
def mapError (f : ε → ε) (m : Program σ ε α) : Program σ ε α := fun s => (m s).mapError f

/-- `catch`: the handler starts from the state before the attempt. -/
def rescue (m : Program σ ε α) (handler : ε → Program σ ε α) : Program σ ε α := fun s =>
  match m s with
  | .ok r => .ok r
  | .error e => handler e s

structure Boundary (σ τ : Type) where
  inv : σ → Prop
  view : σ → σ
  rest : σ → τ

/-- What is asked of the state after a program. -/
structure Kept (B : Boundary σ τ) (Q : σ → Prop) (s s' : σ) : Prop where
  inv : B.inv s'
  rest : B.rest s' = B.rest s
  post : Q s'

/-- What is asked of a program at one state. -/
structure ConfinedAt (B : Boundary σ τ) (m : Program σ ε α) (Q : α → σ → Prop) (s : σ) : Prop where
  view : m (B.view s) = (m s).map fun r => (r.1, B.view r.2)
  kept : ∀ a s', m s = .ok (a, s') → Kept B (Q a) s s'

def Confined (B : Boundary σ τ) (P : σ → Prop) (m : Program σ ε α) (Q : α → σ → Prop) : Prop :=
  ∀ s, B.inv s → P s → ConfinedAt B m Q s

variable {B : Boundary σ τ} {P P' : σ → Prop} {Q Q' : α → σ → Prop} {R : β → σ → Prop}
  {m : Program σ ε α}

/-! ## Rules -/

theorem Confined.conseq (h : Confined B P m Q) (hP : ∀ s, P' s → P s)
    (hQ : ∀ a s, Q a s → Q' a s) : Confined B P' m Q' := by
  intro s hs hp
  have hat : ConfinedAt B m Q s := h s hs (hP s hp)
  refine ⟨hat.view, fun a s' hok => ?_⟩
  have hkept : Kept B (Q a) s s' := hat.kept a s' hok
  exact ⟨hkept.inv, hkept.rest, hQ a s' hkept.post⟩

theorem Confined.pure (a : α) (h : ∀ s, P s → Q a s) :
    Confined B P (Pure.pure a : Program σ ε α) Q := by
  intro s hs hp
  refine ⟨rfl, ?_⟩
  rintro _ _ ⟨⟩
  exact ⟨hs, rfl, h s hp⟩

theorem Confined.throw (e : ε) : Confined B P (MonadExcept.throw e : Program σ ε α) Q := by
  intro s _ _
  refine ⟨rfl, fun a s' hok => ?_⟩
  cases hok

theorem ask_ok {q : σ → Except ε α} {s s' : σ} {a : α} (h : ask q s = .ok (a, s')) :
    q s = .ok a ∧ s' = s := by
  unfold ask at h
  cases hq : q s with
  | error e =>
    rw [hq] at h
    cases h
  | ok b =>
    rw [hq] at h
    cases h
    exact ⟨rfl, rfl⟩

theorem bind_of_ok {f : α → Program σ ε β} {s s' : σ} {a : α} (h : m s = .ok (a, s')) :
    (m >>= f) s = f a s' := by
  have hbind : (m >>= f) s = (m s >>= fun r => f r.1 r.2) := rfl
  rw [hbind, h]
  rfl

theorem bind_of_error {f : α → Program σ ε β} {s : σ} {e : ε} (h : m s = .error e) :
    (m >>= f) s = .error e := by
  have hbind : (m >>= f) s = (m s >>= fun r => f r.1 r.2) := rfl
  rw [hbind, h]
  rfl

theorem ask_of_ok {q : σ → Except ε α} {s : σ} {a : α} (h : q s = .ok a) :
    ask q s = .ok (a, s) := by
  rw [ask, h]
  rfl

theorem ask_of_error {q : σ → Except ε α} {s : σ} {e : ε} (h : q s = .error e) :
    ask q s = .error e := by
  rw [ask, h]
  rfl

/-- A query that the view answers as the whole state does. -/
theorem Confined.ask {q : σ → Except ε α} (hview : ∀ s, B.inv s → P s → q (B.view s) = q s)
    (hpost : ∀ s a, B.inv s → P s → q s = .ok a → Q a s) : Confined B P (ask q) Q := by
  intro s hs hp
  constructor
  · unfold Confinement.ask
    rw [hview s hs hp]
    cases q s with
    | error e => rfl
    | ok a => rfl
  · intro a s' hok
    obtain ⟨hq, rfl⟩ := ask_ok hok
    exact ⟨hs, rfl, hpost s' a hs hp hq⟩

theorem bind_ok {f : α → Program σ ε β} {s s'' : σ} {b : β} (h : (m >>= f) s = .ok (b, s'')) :
    ∃ a s', m s = .ok (a, s') ∧ f a s' = .ok (b, s'') := by
  have hbind : (m >>= f) s = (m s >>= fun r => f r.1 r.2) := rfl
  rw [hbind] at h
  cases hm : m s with
  | error e =>
    rw [hm] at h
    cases h
  | ok r =>
    rw [hm] at h
    exact ⟨r.1, r.2, rfl, h⟩

theorem Confined.bind {f : α → Program σ ε β} (h : Confined B P m Q)
    (hf : ∀ a, Confined B (Q a) (f a) R) : Confined B P (m >>= f) R := by
  intro s hs hp
  have hat : ConfinedAt B m Q s := h s hs hp
  have hnext : ∀ a s', m s = .ok (a, s') → ConfinedAt B (f a) R s' := by
    intro a s' hok
    have hkept : Kept B (Q a) s s' := hat.kept a s' hok
    exact hf a s' hkept.inv hkept.post
  constructor
  · have hbind : ∀ t, (m >>= f) t = (m t >>= fun r => f r.1 r.2) := fun _ => rfl
    rw [hbind, hbind, hat.view]
    cases hm : m s with
    | error e => rfl
    | ok r => exact (hnext r.1 r.2 hm).view
  · intro b s'' hok
    obtain ⟨a, s', hm, hfa⟩ := bind_ok hok
    have hkept : Kept B (R b) s' s'' := (hnext a s' hm).kept b s'' hfa
    exact ⟨hkept.inv, hkept.rest.trans (hat.kept a s' hm).rest, hkept.post⟩

theorem Confined.map (f : α → β) (h : Confined B P m Q) (hR : ∀ a s, Q a s → R (f a) s) :
    Confined B P (f <$> m) R :=
  h.bind fun a => .pure (f a) (hR a)

theorem Confined.ite {c : Prop} [Decidable c] {m m' : Program σ ε α} (ht : c → Confined B P m Q)
    (hf : ¬c → Confined B P m' Q) : Confined B P (if c then m else m') Q := by
  split
  · rename_i hc
    exact ht hc
  · rename_i hc
    exact hf hc

/-- A loop whose turns keep `P`. -/
theorem Confined.forM {l : List β} {f : β → Program σ ε Unit}
    (h : ∀ b ∈ l, Confined B P (f b) fun _ => P) : Confined B P (l.forM f) fun _ => P := by
  induction l with
  | nil => exact .pure () fun _ hp => hp
  | cons b l ih =>
    have hfirst : Confined B P (f b) fun _ => P := h b List.mem_cons_self
    have hrest : Confined B P (l.forM f) fun _ => P := ih fun c hc => h c (List.mem_cons_of_mem _ hc)
    exact hfirst.bind fun _ => hrest

theorem Confined.mapError (f : ε → ε) (h : Confined B P m Q) : Confined B P (mapError f m) Q := by
  intro s hs hp
  have hat : ConfinedAt B m Q s := h s hs hp
  constructor
  · unfold Confinement.mapError
    rw [hat.view]
    cases m s with
    | error e => rfl
    | ok r => rfl
  · intro a s' hok
    refine hat.kept a s' ?_
    unfold Confinement.mapError at hok
    cases hm : m s with
    | error e =>
      rw [hm] at hok
      cases hok
    | ok r =>
      rw [hm] at hok
      cases hok
      rfl

/-- The handler may use that the attempt has failed with this error. -/
theorem Confined.rescue {handler : ε → Program σ ε α} (h : Confined B P m Q)
    (hh : ∀ e, Confined B (fun s => P s ∧ m s = .error e) (handler e) Q) :
    Confined B P (rescue m handler) Q := by
  intro s hs hp
  have hat : ConfinedAt B m Q s := h s hs hp
  cases hm : m s with
  | ok r =>
    have hview : m (B.view s) = .ok (r.1, B.view r.2) := by
      rw [hat.view, hm]
      rfl
    constructor
    · simp only [Confinement.rescue, hm, hview]
      rfl
    · intro a s' hok
      simp only [Confinement.rescue, hm] at hok
      exact hat.kept a s' (hm.trans hok)
  | error e =>
    have hcaught : ConfinedAt B (handler e) Q s := hh e s hs ⟨hp, hm⟩
    have hview : m (B.view s) = .error e := by
      rw [hat.view, hm]
      rfl
    constructor
    · simp only [Confinement.rescue, hm, hview]
      exact hcaught.view
    · intro a s' hok
      simp only [Confinement.rescue, hm] at hok
      exact hcaught.kept a s' hok

/-! ## Runs -/

/-- A run from any state: its answer and the state it leaves. -/
abbrev Run (σ : Type) (β : Type u) := σ → β × σ

/-- A program as a run; an error leaves the state as it was. -/
def exec (m : Program σ ε α) : Run σ (Except ε α) := fun s =>
  match m s with
  | .error e => (.error e, s)
  | .ok (a, s') => (.ok a, s')

/-- The answer of a query. -/
theorem exec_ask (q : σ → Except ε α) (s : σ) : (exec (ask q) s).1 = q s := by
  unfold exec ask
  cases q s <;> rfl

/-- Runs one after the other, with the answer of each. -/
def execAll {β : Type u} : List (Run σ β) → Run σ (List β)
  | [], s => ([], s)
  | c :: cs, s =>
    let r := c s
    let rs := execAll cs r.2
    (r.1 :: rs.1, rs.2)

/-- A run that is confined on the states with this rest. -/
def ConfinedRun {β : Type u} (B : Boundary σ τ) (r : τ) (c : Run σ β) : Prop :=
  ∀ s, B.inv s → B.rest s = r →
    c (B.view s) = ((c s).1, B.view (c s).2) ∧ B.inv (c s).2 ∧ B.rest (c s).2 = r

theorem exec_confined {r : τ} (h : Confined B P m Q) (hP : ∀ s, B.rest s = r → P s) :
    ConfinedRun B r (exec m) := by
  intro s hs hr
  have hat : ConfinedAt B m Q s := h s hs (hP s hr)
  unfold exec
  rw [hat.view]
  cases hm : m s with
  | error e => exact ⟨rfl, hs, hr⟩
  | ok x =>
    have hkept : Kept B (Q x.1) s x.2 := hat.kept x.1 x.2 hm
    exact ⟨rfl, hkept.inv, hkept.rest.trans hr⟩

theorem execAll_confined {β : Type u} {cs : List (Run σ β)} {r : τ}
    (h : ∀ c ∈ cs, ConfinedRun B r c) : ConfinedRun B r (execAll cs) := by
  induction cs with
  | nil =>
    intro s hs hr
    exact ⟨rfl, hs, hr⟩
  | cons c cs ih =>
    intro s hs hr
    obtain ⟨hview, hinv, hrest⟩ := h c List.mem_cons_self s hs hr
    obtain ⟨hviews, hinvs, hrests⟩ :=
      ih (fun c' hc' => h c' (List.mem_cons_of_mem _ hc')) _ hinv hrest
    refine ⟨?_, hinvs, hrests⟩
    simp only [execAll, hview, hviews]

/-- Two states with one view: the same answer, and one view again. -/
theorem two_runs {β : Type u} {c : Run σ β} {s₁ s₂ : σ} (h₁ : ConfinedRun B (B.rest s₁) c)
    (h₂ : ConfinedRun B (B.rest s₂) c) (hs₁ : B.inv s₁) (hs₂ : B.inv s₂)
    (h : B.view s₁ = B.view s₂) : (c s₁).1 = (c s₂).1 ∧ B.view (c s₁).2 = B.view (c s₂).2 := by
  obtain ⟨hview₁, -, -⟩ := h₁ s₁ hs₁ rfl
  obtain ⟨hview₂, -, -⟩ := h₂ s₂ hs₂ rfl
  rw [h, hview₂] at hview₁
  obtain ⟨hanswer, hview⟩ := Prod.mk.inj hview₁
  exact ⟨hanswer.symm, hview.symm⟩

end Confinement
