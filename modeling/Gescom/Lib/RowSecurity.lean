import Gescom.Lib.InsertionMap

/-!
# Row-level security

What PostgreSQL checks for a role that has to obey the policies of its tables, when it queries,
inserts, upserts and updates columns outside the keys. A query sees the rows that the policy of their
table shows under the setting of the session; an update reaches these rows and must leave rows that
the policy shows, and an insert must write one (`USING` is also the check of a policy without
`WITH CHECK`). `Scoped` is what the statements of one transaction keep of its pending
writes, `view_overlay` what a commit leaves alone, and `Scoped.grows` why nobody else's commit spoils
it.
-/

namespace RowSecurity

open Keyed (key)

/-! ## Settings -/

/-- `current_setting(name, true)`. A setting that has only ever been local to transactions reads as
the empty string after the first of them, no longer as NULL. -/
inductive Setting (σ : Type) where
  | null
  | empty
  | value (s : σ)

structure Session (σ : Type) where
  ofSession : Setting σ := .null
  ofTransaction : Option σ := none

namespace Session
variable {σ : Type}

def current (c : Session σ) : Setting σ :=
  match c.ofTransaction with
  | some s => .value s
  | none => c.ofSession

/-- `set_config(name, value, true)`. -/
def setLocal (s : σ) (c : Session σ) : Session σ := { c with ofTransaction := some s }

/-- The end of a transaction, committed or not. -/
def finish (c : Session σ) : Session σ :=
  match c.ofTransaction, c.ofSession with
  | some _, .null => ⟨.empty, none⟩
  | _, setting => ⟨setting, none⟩

@[simp] theorem current_setLocal (s : σ) (c : Session σ) : (c.setLocal s).current = .value s := rfl

@[simp] theorem finish_ofTransaction (c : Session σ) : c.finish.ofTransaction = none := by
  unfold finish
  split <;> rfl

end Session

/-! ## Schemas -/

inductive Privilege where
  | select | insert | update | delete
  deriving DecidableEq

/-- What the policy of a table compares with the setting: a column of the row, NULL included, or the
same column of the row that a foreign key names. -/
inductive Owner (σ κ : Type) where
  | shared
  | column (tenant : Option σ)
  | parent (k : κ)
  deriving DecidableEq

inductive Kind where
  | shared | column | parent
  deriving DecidableEq

def Owner.kind {σ κ : Type} : Owner σ κ → Kind
  | shared => .shared
  | column _ => .column
  | parent _ => .parent

structure Schema (ρ σ τ : Type) {κ : Type} [Keyed ρ κ] where
  table : κ → τ
  granted : τ → Privilege → Bool
  kind : τ → Kind
  owner : ρ → Owner σ κ
  owner_kind : ∀ r, (owner r).kind = kind (table (key r))

inductive SqlError where
  | permissionDenied
  | invalidText -- the cast of an empty setting
  | rowSecurity
  | uniqueViolation
  deriving DecidableEq

/-- Statements of the role: `f` writes the columns that are no part of the key. A `DELETE` and a change
of a key are none of them, since their foreign-key actions write rows that no policy shows; nor is a
`set_config`, after which the policies compare with another value. -/
inductive Command (ρ τ : Type) {κ : Type} [Keyed ρ κ] where
  | select (t : τ) (p : ρ → Bool)
  | insert (r : ρ)
  | update (t : τ) (p : ρ → Bool) (f : ρ → ρ) (hf : ∀ r, key (f r) = key r)
  | upsert (r : ρ) (f : ρ → ρ) (hf : ∀ r, key (f r) = key r)

/-- Rows written, and rows returned. -/
structure Effect (ρ : Type) where
  writes : List ρ
  returned : List ρ

section
variable {ρ σ τ κ : Type} [Keyed ρ κ] [DecidableEq κ] [DecidableEq σ] [DecidableEq τ]
  (S : Schema ρ σ τ)

/-- The policy of the table of `r`, under the setting `s`. -/
def Schema.visible (D : Table ρ) (s : Option σ) (r : ρ) : Bool :=
  match S.owner r with
  | .shared => true
  | .column t => t.isSome && t == s
  | .parent k => (D.find? k).any fun p =>
    match S.owner p with
    | .column t => t.isSome && t == s
    | _ => false

def Command.table : Command ρ τ → τ
  | select t _ => t
  | insert r => S.table (key r)
  | update t _ _ _ => t
  | upsert r _ _ => S.table (key r)

def Command.privileges : Command ρ τ → List Privilege
  | select _ _ => [.select]
  | insert _ => [.insert, .select]
  | update _ _ _ _ => [.update, .select]
  | upsert _ _ _ => [.insert, .update, .select]

/-- The rows of `t` that the policy shows and `p` selects. -/
def Schema.targets (D : Table ρ) (s : Option σ) (t : τ) (p : ρ → Bool) : List ρ :=
  D.rows.filter fun r => S.table (key r) == t && S.visible D s r && p r

/-- The checks of the policy, in a database `D`. `taken` are the keys that the unique index has,
whoever may see them. -/
def Schema.check (D : Table ρ) (taken : κ → Bool) (s : Option σ) :
    Command ρ τ → Except SqlError (Effect ρ)
  | .select t p => .ok ⟨[], S.targets D s t p⟩
  | .insert r =>
    if S.visible D s r = false then .error .rowSecurity
    else if taken (key r) then .error .uniqueViolation
    else .ok ⟨[r], [r]⟩
  | .update t p f _ =>
    let new := (S.targets D s t p).map f
    if new.all (S.visible D s) then .ok ⟨new, new⟩ else .error .rowSecurity
  | .upsert r f _ =>
    if S.visible D s r = false then .error .rowSecurity
    else
      match D.find? (key r) with
      | some old =>
        if S.visible D s old && S.visible D s (f old) then .ok ⟨[f old], [f old]⟩
        else .error .rowSecurity
      | none => if taken (key r) then .error .uniqueViolation else .ok ⟨[r], [r]⟩

/-- The setting as a policy reads it; a table without a policy does not read it. -/
def Schema.cast (t : τ) : Setting σ → Except SqlError (Option σ)
  | .null => .ok none
  | .empty => if S.kind t = .shared then .ok none else .error .invalidText
  | .value s => .ok (some s)

def Schema.execute (D : Table ρ) (taken : κ → Bool) (setting : Setting σ) (c : Command ρ τ) :
    Except SqlError (Effect ρ) :=
  if c.privileges.all (S.granted (c.table S)) = false then .error .permissionDenied
  else (S.cast (c.table S) setting).bind fun s => S.check D taken s c

/-- Pending writes over a database. -/
def overlay (D : Table ρ) (writes : List ρ) : Table ρ := writes.foldl Table.set D

/-- A row of a table that has a policy, and whose policy shows it to `s`. -/
def Schema.belongs (D : Table ρ) (s : σ) (r : ρ) : Bool :=
  S.kind (S.table (key r)) != .shared && S.visible D (some s) r

/-- The rows of `s`, by key. -/
def Schema.view (D : Table ρ) (s : σ) (k : κ) : Option ρ := (D.find? k).filter (S.belongs D s)

/-- Foreign keys of the policies. -/
def Schema.Intact (D : Table ρ) : Prop :=
  ∀ k r p, D.find? k = some r → S.owner r = .parent p →
    ∃ q t, D.find? p = some q ∧ S.owner q = .column t

/-- No row with an owner is lost, and none has another one. -/
def Schema.Grows (D D' : Table ρ) : Prop :=
  ∀ k r t, D.find? k = some r → S.owner r = .column t →
    ∃ r', D'.find? k = some r' ∧ S.owner r' = .column t

/-- What the writes of a transaction of `a` have in common. -/
structure Schema.Scoped (D : Table ρ) (writes : List ρ) (a : σ) : Prop where
  shown : ∀ r ∈ writes, S.visible (overlay D writes) (some a) r = true
  replaces : ∀ r ∈ writes, ∀ old, D.find? (key r) = some old → S.visible D (some a) old = true

end

/-! ## Owners -/

section
variable {ρ σ τ κ : Type} [Keyed ρ κ] {S : Schema ρ σ τ} {r : ρ}

theorem Schema.kind_eq {r r' : ρ} (h : key r = key r') : (S.owner r).kind = (S.owner r').kind := by
  rw [S.owner_kind, S.owner_kind, h]

theorem kind_ne_shared : S.kind (S.table (key r)) ≠ .shared ↔ S.owner r ≠ .shared := by
  rw [← S.owner_kind]
  cases S.owner r <;> simp [Owner.kind]

/-- A row written over one with a column has a column. -/
theorem column_of_key {t : Option σ} {r r' : ρ} (hkey : key r' = key r)
    (h : S.owner r = .column t) : ∃ t', S.owner r' = .column t' := by
  have hkind := S.kind_eq hkey
  rw [h] at hkind
  cases hr' : S.owner r' with
  | column t' => exact ⟨t', rfl⟩
  | shared => rw [hr'] at hkind; cases hkind
  | parent _ => rw [hr'] at hkind; cases hkind

end

section
variable {ρ σ τ κ : Type} [Keyed ρ κ] [DecidableEq κ] {S : Schema ρ σ τ} {D D' D'' : Table ρ}
  {ws es : List ρ} {k : κ}

theorem Schema.Grows.refl (S : Schema ρ σ τ) (D : Table ρ) : S.Grows D D :=
  fun _ r _ hr ho => ⟨r, hr, ho⟩

theorem Schema.Grows.trans (h : S.Grows D D') (h' : S.Grows D' D'') : S.Grows D D'' := by
  intro k r t hr ho
  obtain ⟨r', hr', ho'⟩ := h k r t hr ho
  exact h' k r' t hr' ho'

/-! ## Pending writes -/

theorem find?_overlay (D : Table ρ) (ws : List ρ) (k : κ) :
    (overlay D ws).find? k = (ws.reverse.find? fun r => key r == k).or (D.find? k) := by
  induction ws generalizing D with
  | nil => rfl
  | cons w ws ih =>
    rw [overlay, List.foldl_cons, ← overlay, ih, List.reverse_cons, List.find?_append]
    cases ws.reverse.find? fun r => key r == k with
    | some x => rfl
    | none =>
      by_cases hk : key w = k
      · subst hk
        simp [Table.find?_set_self]
      · rw [Table.find?_set_ne (Ne.symm hk)]
        simp [hk]

/-- A key is found in the writes or, when they do not have it, below. -/
theorem overlay_cases (ws : List ρ) (k : κ) :
    (∃ r ∈ ws, key r = k ∧ ∀ D' : Table ρ, (overlay D' ws).find? k = some r) ∨
      ((∀ r ∈ ws, key r ≠ k) ∧ ∀ D' : Table ρ, (overlay D' ws).find? k = D'.find? k) := by
  simp only [find?_overlay]
  cases hw : ws.reverse.find? fun r => key r == k with
  | some r =>
    have hmem := List.mem_of_find?_eq_some hw
    have hkey := List.find?_some hw
    exact .inl ⟨r, List.mem_reverse.1 hmem, by simpa using hkey, fun _ => rfl⟩
  | none =>
    have hnone := List.find?_eq_none.1 hw
    exact .inr ⟨fun r hr => by simpa using hnone r (List.mem_reverse.2 hr), fun _ => rfl⟩

theorem overlay_append (D : Table ρ) (ws es : List ρ) :
    overlay D (ws ++ es) = overlay (overlay D ws) es := List.foldl_append ..

/-- The same writes over more rows. -/
theorem Schema.Grows.overlay (h : S.Grows D D') (ws : List ρ) :
    S.Grows (overlay D ws) (overlay D' ws) := by
  intro k r t hr ho
  rcases overlay_cases ws k with ⟨w, -, -, hfind⟩ | ⟨-, hfind⟩
  · exact ⟨r, by rw [hfind D', ← hr, hfind D], ho⟩
  · obtain ⟨r', hr', ho'⟩ := h k r t ((hfind D).symm.trans hr) ho
    exact ⟨r', (hfind D').trans hr', ho'⟩

end

/-! ## What a policy shows -/

section
variable {ρ σ τ κ : Type} [Keyed ρ κ] [DecidableEq κ] [DecidableEq σ] {S : Schema ρ σ τ}
  {D D' B : Table ρ} {ws es : List ρ} {a b : σ} {r old : ρ} {k : κ}

theorem visible_column {t : Option σ} (h : S.owner r = .column t) :
    S.visible D (some a) r = true ↔ t = some a := by
  unfold Schema.visible
  rw [h]
  simp only [Bool.and_eq_true, beq_iff_eq, and_iff_right_iff_imp]
  rintro rfl
  rfl

theorem visible_parent {p : κ} (h : S.owner r = .parent p) :
    S.visible D (some a) r = true ↔
      ∃ q, D.find? p = some q ∧ S.owner q = .column (some a) := by
  unfold Schema.visible
  rw [h]
  simp only [Option.any_eq_true]
  refine exists_congr fun q => and_congr_right fun _ => ?_
  cases hq : S.owner q with
  | shared => simp
  | parent _ => simp
  | column t =>
    simp only [Bool.and_eq_true, beq_iff_eq, Owner.column.injEq, and_iff_right_iff_imp]
    rintro rfl
    rfl

theorem visible_shared (h : S.owner r = .shared) (s : Option σ) : S.visible D s r = true := by
  unfold Schema.visible
  rw [h]

theorem visible_of_column {t : Option σ} (ho : S.owner r = .column t)
    (h : S.visible D (some a) r = true) : S.owner r = .column (some a) := by
  rw [ho, (visible_column ho).1 h]

theorem belongs_iff : S.belongs D a r = true ↔ S.owner r ≠ .shared ∧
    S.visible D (some a) r = true := by
  rw [Schema.belongs, Bool.and_eq_true, bne_iff_ne, kind_ne_shared]

/-- No row belongs to two. -/
theorem belongs_exclusive (h : S.belongs D a r = true) (h' : S.belongs D b r = true) : a = b := by
  obtain ⟨hne, ha⟩ := belongs_iff.1 h
  obtain ⟨-, hb⟩ := belongs_iff.1 h'
  cases ho : S.owner r with
  | shared => exact absurd ho hne
  | column t => exact Option.some.inj (((visible_column ho).1 ha).symm.trans ((visible_column ho).1 hb))
  | parent p =>
    obtain ⟨q, hq, hqa⟩ := (visible_parent ho).1 ha
    obtain ⟨q', hq', hqb⟩ := (visible_parent ho).1 hb
    cases hq.symm.trans hq'
    rw [hqa] at hqb
    exact Option.some.inj (Owner.column.inj hqb)

/-- What is shown stays so. -/
theorem Schema.Grows.visible (h : S.Grows D D') (hv : S.visible D (some a) r = true) :
    S.visible D' (some a) r = true := by
  cases ho : S.owner r with
  | shared => exact visible_shared ho _
  | column t => exact (visible_column ho).2 ((visible_column ho).1 hv)
  | parent p =>
    obtain ⟨q, hq, hqa⟩ := (visible_parent ho).1 hv
    obtain ⟨q', hq', hqa'⟩ := h p q _ hq hqa
    exact (visible_parent ho).2 ⟨q', hq', hqa'⟩

theorem Schema.Grows.belongs (h : S.Grows D D') (hb : S.belongs D a r = true) :
    S.belongs D' a r = true := by
  obtain ⟨hne, hv⟩ := belongs_iff.1 hb
  exact belongs_iff.2 ⟨hne, h.visible hv⟩

/-- A stored row that is shown later is shown already. -/
theorem Schema.Grows.visible_back (hI : S.Intact D) (h : S.Grows D D') (hr : D.find? k = some r)
    (hv : S.visible D' (some a) r = true) : S.visible D (some a) r = true := by
  cases ho : S.owner r with
  | shared => exact visible_shared ho _
  | column t => exact (visible_column ho).2 ((visible_column ho).1 hv)
  | parent p =>
    obtain ⟨q, t, hq, hqt⟩ := hI k r p hr ho
    obtain ⟨q', hq', hqt'⟩ := h p q t hq hqt
    obtain ⟨q'', hq'', hqa⟩ := (visible_parent ho).1 hv
    cases hq'.symm.trans hq''
    rw [hqt'] at hqa
    exact (visible_parent ho).2 ⟨q, hq, by rw [hqt, Owner.column.inj hqa]⟩

/-! ## The writes of one transaction -/

theorem Schema.Scoped.nil (S : Schema ρ σ τ) (D : Table ρ) (a : σ) : S.Scoped D [] a :=
  ⟨fun _ hr => (List.not_mem_nil hr).elim, fun _ hr => (List.not_mem_nil hr).elim⟩

/-- The writes of a transaction lose no owner, over the rows it has read as over those that are
committed. -/
theorem Schema.Scoped.grows (h : S.Scoped D ws a) (hg : S.Grows B D) : S.Grows B (overlay B ws) := by
  intro k r t hr ho
  rcases overlay_cases ws k with ⟨w, hw, hkey, hfind⟩ | ⟨-, hfind⟩
  · -- the row that was there and the one written over it are both shown to `a`
    obtain ⟨r', hr', ho'⟩ := hg k r t hr ho
    have hold := h.replaces w hw r' (by rw [hkey, hr'])
    obtain ⟨t', ht'⟩ := column_of_key (hkey.trans (Table.key_of_find? hr).symm) ho
    refine ⟨w, hfind B, ?_⟩
    rw [ht', (visible_column ht').1 (h.shown w hw), (visible_column ho').1 hold]
  · exact ⟨r, (hfind B).trans hr, ho⟩

theorem Schema.Scoped.intact (h : S.Scoped D ws a) (hI : S.Intact D) : S.Intact (overlay D ws) := by
  intro k r p hr ho
  rcases overlay_cases ws k with ⟨w, hw, -, hfind⟩ | ⟨-, hfind⟩
  · cases (hfind D).symm.trans hr
    obtain ⟨q, hq, hqa⟩ := (visible_parent ho).1 (h.shown r hw)
    exact ⟨q, _, hq, hqa⟩
  · obtain ⟨q, t, hq, hqt⟩ := hI k r p ((hfind D).symm.trans hr) ho
    obtain ⟨q', hq', hqt'⟩ := h.grows (.refl S D) p q t hq hqt
    exact ⟨q', t, hq', hqt'⟩

/-- Nobody else's commit spoils them, as long as it leaves the rows they write alone. -/
theorem Schema.Scoped.mono (h : S.Scoped D ws a) (hg : S.Grows D D')
    (hkeys : ∀ r ∈ ws, D'.find? (key r) = D.find? (key r)) : S.Scoped D' ws a where
  shown r hr := (hg.overlay ws).visible (h.shown r hr)
  replaces r hr old hold := hg.visible (h.replaces r hr old ((hkeys r hr).symm.trans hold))

/-- What a statement may add to the writes of a transaction. It has read the rows `B` and its own
writes; those committed are `D`. -/
structure Schema.Fits (S : Schema ρ σ τ) (B D : Table ρ) (ws es : List ρ) (a : σ) : Prop where
  shown : ∀ r ∈ es, S.visible (RowSecurity.overlay B ws) (some a) r = true
  replaces : ∀ r ∈ es, ∀ old, (RowSecurity.overlay B ws).find? (key r) = some old →
    S.visible (RowSecurity.overlay B ws) (some a) old = true
  /-- A row it writes for the first time is the one it has read. -/
  unchanged : ∀ r ∈ es, (∀ w ∈ ws, key w ≠ key r) → D.find? (key r) = B.find? (key r)

/-- Over what is committed, too, the rows written are over rows of `a`. -/
theorem Schema.Fits.over_committed (h : S.Fits B D ws es a) (hr : r ∈ es)
    (hold : (overlay D ws).find? (key r) = some old) :
    (overlay B ws).find? (key r) = some old ∧ S.visible (overlay B ws) (some a) old = true := by
  have hsame : (overlay B ws).find? (key r) = some old := by
    rcases overlay_cases ws (key r) with ⟨w, -, -, hfind⟩ | ⟨hnone, hfind⟩
    · rw [hfind B, ← hold, hfind D]
    · rw [hfind B, ← h.unchanged r hr hnone, ← hfind D, hold]
  exact ⟨hsame, h.replaces r hr old hsame⟩

theorem Schema.Fits.grows (h : S.Fits B D ws es a) :
    S.Grows (overlay D ws) (overlay D (ws ++ es)) := by
  intro k r t hr ho
  rw [overlay_append]
  rcases overlay_cases es k with ⟨w, hw, hkey, hfind⟩ | ⟨-, hfind⟩
  · obtain ⟨-, hold⟩ := h.over_committed hw (by rw [hkey, hr])
    obtain ⟨t', ht'⟩ := column_of_key (hkey.trans (Table.key_of_find? hr).symm) ho
    refine ⟨w, hfind _, ?_⟩
    rw [ht', (visible_column ht').1 (h.shown w hw), (visible_column ho).1 hold]
  · exact ⟨r, (hfind _).trans hr, ho⟩

theorem Schema.Scoped.append (h : S.Scoped D ws a) (hfits : S.Fits B D ws es a)
    (hg : S.Grows B D) (hB : S.Intact B) : S.Scoped D (ws ++ es) a where
  shown r hr := by
    rcases List.mem_append.1 hr with hold | hnew
    · exact hfits.grows.visible (h.shown r hold)
    · exact ((hg.overlay ws).trans hfits.grows).visible (hfits.shown r hnew)
  replaces r hr old hold := by
    rcases List.mem_append.1 hr with hmem | hnew
    · exact h.replaces r hmem old hold
    · rcases overlay_cases ws (key r) with ⟨w, hw, hkey, -⟩ | ⟨hnone, hfind⟩
      · exact h.replaces w hw old (by rw [hkey, hold])
      · obtain ⟨hread, hshown⟩ := hfits.over_committed hnew ((hfind D).trans hold)
        have hbelow : B.find? (key r) = some old := (hfind B).symm.trans hread
        exact hg.visible ((h.grows hg).visible_back hB hbelow hshown)

/-! ## Commit -/

/-- What a row of `b` owes to a transaction of `a`. -/
theorem Schema.Scoped.visible_iff (h : S.Scoped D ws a) (hne : b ≠ a)
    (hshared : S.owner r ≠ .shared) :
    S.visible (overlay D ws) (some b) r = true ↔ S.visible D (some b) r = true := by
  cases ho : S.owner r with
  | shared => exact absurd ho hshared
  | column t => rw [visible_column ho, visible_column ho]
  | parent p =>
    rw [visible_parent ho, visible_parent ho]
    rcases overlay_cases ws p with ⟨w, hw, hkey, hfind⟩ | ⟨-, hfind⟩
    · constructor
      · rintro ⟨q, hq, hqb⟩
        obtain rfl : w = q := Option.some.inj ((hfind D).symm.trans hq)
        have hqa := visible_of_column hqb (h.shown w hw)
        rw [hqb] at hqa
        exact absurd (Option.some.inj (Owner.column.inj hqa)) hne
      · rintro ⟨q, hq, hqb⟩
        have hqa := visible_of_column hqb (h.replaces w hw q (by rw [hkey, hq]))
        rw [hqb] at hqa
        exact absurd (Option.some.inj (Owner.column.inj hqa)) hne
    · rw [hfind D]

theorem Schema.Scoped.belongs_iff (h : S.Scoped D ws a) (hne : b ≠ a) :
    S.belongs (overlay D ws) b r = S.belongs D b r := by
  rw [Bool.eq_iff_iff, RowSecurity.belongs_iff, RowSecurity.belongs_iff]
  exact and_congr_right fun hshared => h.visible_iff hne hshared

/-- The writes of a transaction of `a` leave the rows of everybody else as they are. -/
theorem Schema.Scoped.view_overlay (h : S.Scoped D ws a) (hne : b ≠ a) (k : κ) :
    S.view (overlay D ws) b k = S.view D b k := by
  unfold Schema.view
  have hfun : S.belongs (overlay D ws) b = S.belongs D b := funext fun r => h.belongs_iff hne
  rw [hfun]
  rcases overlay_cases ws k with ⟨w, hw, hkey, hfind⟩ | ⟨-, hfind⟩
  · have hwb : S.belongs D b w = false := by
      rw [← hfun]
      by_contra hb
      have hb' := RowSecurity.belongs_iff.1 (Bool.not_eq_false _ ▸ hb)
      exact hne (belongs_exclusive (RowSecurity.belongs_iff.2 hb')
        (RowSecurity.belongs_iff.2 ⟨hb'.1, h.shown w hw⟩))
    rw [hfind D, Option.filter_some_neg hwb]
    cases hold : D.find? k with
    | none => rfl
    | some old =>
      have holda := h.replaces w hw old (by rw [hkey, hold])
      refine (Option.filter_some_neg (Bool.eq_false_iff.2 fun hb => ?_)).symm
      have hb' := RowSecurity.belongs_iff.1 hb
      exact hne (belongs_exclusive hb (RowSecurity.belongs_iff.2 ⟨hb'.1, holda⟩))
  · rw [hfind D]

end

/-! ## Statements -/

section
variable {ρ σ τ κ : Type} [Keyed ρ κ] [DecidableEq κ] [DecidableEq σ] [DecidableEq τ]
  {S : Schema ρ σ τ} {D : Table ρ} {taken : κ → Bool} {a : σ} {c : Command ρ τ} {e : Effect ρ}

theorem mem_targets {s : Option σ} {t : τ} {p : ρ → Bool} {r : ρ} :
    r ∈ S.targets D s t p ↔
      r ∈ D.rows ∧ S.table (key r) = t ∧ S.visible D s r = true ∧ p r = true := by
  simp only [Schema.targets, List.mem_filter, Bool.and_eq_true, beq_iff_eq, and_assoc]

/-- What a statement that is not refused does. -/
structure Schema.Performs (S : Schema ρ σ τ) (D : Table ρ) (s : Option σ) (c : Command ρ τ)
    (e : Effect ρ) : Prop where
  returned : ∀ r ∈ e.returned, S.table (key r) = c.table S ∧ S.visible D s r = true
  shown : ∀ r ∈ e.writes, S.visible D s r = true
  replaces : ∀ r ∈ e.writes, ∀ old, D.find? (key r) = some old → S.visible D s old = true

theorem check_performs {s : Option σ} (htaken : ∀ k, (D.find? k).isSome = true → taken k = true)
    (h : S.check D taken s c = .ok e) : S.Performs D s c e := by
  cases c with
  | select t p =>
    cases h
    refine ⟨fun r hr => ?_, fun r hr => (List.not_mem_nil hr).elim,
      fun r hr => (List.not_mem_nil hr).elim⟩
    obtain ⟨-, htable, hshown, -⟩ := mem_targets.1 hr
    exact ⟨htable, hshown⟩
  | insert r =>
    simp only [Schema.check] at h
    split at h
    · cases h
    · rename_i hshown
      split at h
      · cases h
      · rename_i hfree
        cases h
        have hr : S.visible D s r = true := by simpa using hshown
        refine ⟨fun x hx => ?_, fun x hx => ?_, fun x hx old hold => ?_⟩ <;>
          obtain rfl := List.mem_singleton.1 hx
        · exact ⟨rfl, hr⟩
        · exact hr
        · exact absurd (htaken _ (Option.isSome_iff_exists.2 ⟨old, hold⟩)) hfree
  | update t p f hf =>
    simp only [Schema.check] at h
    split at h
    · rename_i hall
      cases h
      have hnew : ∀ x ∈ (S.targets D s t p).map f, S.visible D s x = true := by
        simpa [List.all_eq_true] using hall
      refine ⟨fun x hx => ⟨?_, hnew x hx⟩, hnew, fun x hx old hold => ?_⟩ <;>
        obtain ⟨r, hr, rfl⟩ := List.mem_map.1 hx <;>
        obtain ⟨hmem, htable, hshown, -⟩ := mem_targets.1 hr
      · rw [hf]
        exact htable
      · rw [hf, Table.find?_of_mem hmem] at hold
        exact Option.some.inj hold ▸ hshown
    · cases h
  | upsert r f hf =>
    simp only [Schema.check] at h
    split at h
    · cases h
    · rename_i hshown
      have hr : S.visible D s r = true := by simpa using hshown
      cases hfind : D.find? (key r) with
      | some old =>
        simp only [hfind] at h
        split at h
        · rename_i hboth
          obtain ⟨hold, hnew⟩ := Bool.and_eq_true_iff.1 hboth
          cases h
          have hkey : key (f old) = key r := (hf old).trans (Table.key_of_find? hfind)
          refine ⟨fun x hx => ?_, fun x hx => ?_, fun x hx y hy => ?_⟩ <;>
            obtain rfl := List.mem_singleton.1 hx
          · exact ⟨by rw [hkey]; rfl, hnew⟩
          · exact hnew
          · rw [hkey, hfind] at hy
            exact Option.some.inj hy ▸ hold
        · cases h
      | none =>
        simp only [hfind] at h
        split at h
        · cases h
        · cases h
          refine ⟨fun x hx => ?_, fun x hx => ?_, fun x hx y hy => ?_⟩ <;>
            obtain rfl := List.mem_singleton.1 hx
          · exact ⟨rfl, hr⟩
          · exact hr
          · cases hfind.symm.trans hy

/-- A statement under a setting, in a table that the role was granted. -/
theorem execute_performs (htaken : ∀ k, (D.find? k).isSome = true → taken k = true)
    (h : S.execute D taken (.value a) c = .ok e) :
    S.Performs D (some a) c e ∧ S.granted (c.table S) .select = true := by
  unfold Schema.execute at h
  split at h
  · cases h
  · rename_i hgranted
    have hall := List.all_eq_true.1 (Bool.not_eq_false _ ▸ hgranted)
    refine ⟨check_performs htaken h, hall .select ?_⟩
    cases c <;> simp [Command.privileges]

end

end RowSecurity
