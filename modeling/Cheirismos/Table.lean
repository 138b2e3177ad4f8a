import Mathlib.Data.List.Nodup
import Mathlib.Data.List.Basic
import Mathlib.Algebra.BigOperators.Group.List.Basic

/-! # Keyed tables

A relational table with a primary key: a list of rows whose keys are pairwise distinct.
`Table key` is over an arbitrary row type and an arbitrary key function; the uniqueness of
the keys is a field of the structure, so no operation can build a table with two rows of one
key.

* `find? k` is the row with key `k`; `find?_eq_some` identifies it with membership.
* `insert?` refuses a key that is present, as an `INSERT` under a primary key does.
* `updateWhere p f` rewrites the rows that satisfy `p` without touching their key, and
  `update k f` is its instance at one key; `replace r` puts `r` in the place of the row with
  its key, if there is one.
* `deleteWhere p` removes rows.

Membership in the result of each operation is described by one `simp` lemma; the sum of a
weight over the rows (`sum`) is described for updates that keep the weight (`sum_updateWhere`). -/

/-- Rows with pairwise distinct keys. -/
structure Table {κ ρ : Type} (key : ρ → κ) where
  rows : List ρ
  distinct : (rows.map key).Nodup

namespace Table

variable {κ ρ : Type} {key : ρ → κ}

instance : Membership ρ (Table key) := ⟨fun t r => r ∈ t.rows⟩

theorem ext {t t' : Table key} (h : t.rows = t'.rows) : t = t' := by
  cases t
  cases t'
  cases h
  rfl

theorem mem_def {t : Table key} {r : ρ} : r ∈ t ↔ r ∈ t.rows := Iff.rfl

/-- The table without rows. -/
def empty : Table key := ⟨[], List.nodup_nil⟩

@[simp] theorem not_mem_empty (r : ρ) : r ∉ (empty : Table key) := by
  intro h
  cases h

/-- Two rows of one key are the same row. -/
theorem eq_of_key_eq {t : Table key} {r r' : ρ} (hr : r ∈ t) (hr' : r' ∈ t)
    (h : key r = key r') : r = r' :=
  List.inj_on_of_nodup_map t.distinct hr hr' h

/-! ### Updates and deletions -/

/-- Rewrite the rows that satisfy `p`, keeping every key. -/
def updateWhere (t : Table key) (p : ρ → Bool) (f : ρ → ρ) (hf : ∀ r, key (f r) = key r) :
    Table key where
  rows := t.rows.map (fun r => if p r then f r else r)
  distinct := by
    have e : (t.rows.map (fun r => if p r then f r else r)).map key = t.rows.map key := by
      rw [List.map_map]
      apply List.map_congr_left
      intro r _
      simp only [Function.comp]
      split_ifs
      · exact hf r
      · rfl
    rw [e]
    exact t.distinct

/-- Remove the rows that satisfy `p`. -/
def deleteWhere (t : Table key) (p : ρ → Bool) : Table key where
  rows := t.rows.filter (fun r => !p r)
  distinct := t.distinct.sublist (List.filter_sublist.map key)

@[simp] theorem mem_updateWhere {t : Table key} {p : ρ → Bool} {f : ρ → ρ}
    {hf : ∀ r, key (f r) = key r} {r : ρ} :
    r ∈ t.updateWhere p f hf ↔ ∃ r' ∈ t, (if p r' then f r' else r') = r := by
  simp only [mem_def, updateWhere, List.mem_map]

@[simp] theorem mem_deleteWhere {t : Table key} {p : ρ → Bool} {r : ρ} :
    r ∈ t.deleteWhere p ↔ r ∈ t ∧ p r = false := by
  simp only [mem_def, deleteWhere, List.mem_filter, Bool.not_eq_true']

section lookup

variable [DecidableEq κ]

/-- The row with key `k`. -/
def find? (t : Table key) (k : κ) : Option ρ := t.rows.find? (fun r => key r = k)

/-- Add a row, unless its key is taken. -/
def insert? (t : Table key) (r : ρ) : Option (Table key) :=
  if h : key r ∈ t.rows.map key then none
  else some ⟨r :: t.rows, by rw [List.map_cons, List.nodup_cons]; exact ⟨h, t.distinct⟩⟩

/-- Rewrite the row with key `k`. -/
def update (t : Table key) (k : κ) (f : ρ → ρ) (hf : ∀ r, key (f r) = key r) : Table key :=
  t.updateWhere (fun r => key r = k) f hf

/-- Put a row in the place of the row with its key. -/
def replace (t : Table key) (r : ρ) : Table key where
  rows := t.rows.map (fun r' => if key r' = key r then r else r')
  distinct := by
    have e : (t.rows.map (fun r' => if key r' = key r then r else r')).map key =
        t.rows.map key := by
      rw [List.map_map]
      apply List.map_congr_left
      intro r' _
      simp only [Function.comp]
      split_ifs with h
      · exact h.symm
      · rfl
    rw [e]
    exact t.distinct

/-- Add a row, replacing the row of its key. -/
def upsert (t : Table key) (r : ρ) : Table key where
  rows := r :: t.rows.filter (fun r' => key r' ≠ key r)
  distinct := by
    rw [List.map_cons, List.nodup_cons]
    refine ⟨?_, t.distinct.sublist (List.filter_sublist.map key)⟩
    rw [List.mem_map]
    rintro ⟨r', hr', he⟩
    have := (List.mem_filter.mp hr').2
    simp [he] at this

theorem find?_eq_some {t : Table key} {k : κ} {r : ρ} :
    t.find? k = some r ↔ r ∈ t ∧ key r = k := by
  unfold find?
  constructor
  · intro h
    have h1 := List.mem_of_find?_eq_some h
    have h2 := List.find?_some h
    exact ⟨h1, by simpa using h2⟩
  · rintro ⟨hr, rfl⟩
    cases hf : t.rows.find? (fun r' => key r' = key r) with
    | none =>
        have := List.find?_eq_none.mp hf r hr
        simp at this
    | some r' =>
        have h1 : r' ∈ t := List.mem_of_find?_eq_some hf
        have h2 := List.find?_some hf
        rw [t.eq_of_key_eq h1 hr (by simpa using h2)]

theorem find?_eq_none {t : Table key} {k : κ} : t.find? k = none ↔ ∀ r ∈ t, key r ≠ k := by
  unfold find?
  rw [List.find?_eq_none]
  simp [mem_def]

theorem find?_isSome {t : Table key} {k : κ} :
    (t.find? k).isSome = true ↔ ∃ r ∈ t, key r = k := by
  rw [Option.isSome_iff_exists]
  simp only [find?_eq_some]

/-- What a successful insertion says of the table before and after. -/
theorem insert?_eq_some {t t' : Table key} {r : ρ} (h : t.insert? r = some t') :
    (∀ r' ∈ t, key r' ≠ key r) ∧ t'.rows = r :: t.rows := by
  unfold insert? at h
  split at h
  · cases h
  · next hk =>
      cases h
      refine ⟨fun r' hr' he => hk ?_, rfl⟩
      rw [← he]
      exact List.mem_map_of_mem hr'

/-- A row whose key is free can be inserted. -/
theorem insert?_of_free {t : Table key} {r : ρ} (h : ∀ r' ∈ t, key r' ≠ key r) :
    ∃ t', t.insert? r = some t' := by
  unfold insert?
  split
  · next hk =>
      obtain ⟨r', hr', hkey⟩ := List.mem_map.mp hk
      exact absurd hkey (h r' hr')
  · exact ⟨_, rfl⟩

/-- A row whose key is taken cannot. -/
theorem insert?_of_taken {t : Table key} {r r' : ρ} (hr' : r' ∈ t) (hk : key r' = key r) :
    t.insert? r = none := by
  cases hi : t.insert? r with
  | none => rfl
  | some t' => exact absurd hk ((insert?_eq_some hi).1 r' hr')

theorem mem_insert? {t t' : Table key} {r : ρ} (h : t.insert? r = some t') {r' : ρ} :
    r' ∈ t' ↔ r' = r ∨ r' ∈ t := by
  rw [mem_def, (insert?_eq_some h).2, List.mem_cons, mem_def]

@[simp] theorem mem_upsert {t : Table key} {r r' : ρ} :
    r' ∈ t.upsert r ↔ r' = r ∨ r' ∈ t ∧ key r' ≠ key r := by
  simp [mem_def, upsert, List.mem_filter]

theorem mem_update {t : Table key} {k : κ} {f : ρ → ρ} {hf : ∀ r, key (f r) = key r} {r : ρ} :
    r ∈ t.update k f hf ↔ ∃ r' ∈ t, (if key r' = k then f r' else r') = r := by
  simp [update]

/-- An update at a key that is present replaces exactly that row. -/
theorem mem_update_of_mem {t : Table key} {f : ρ → ρ} {hf : ∀ r, key (f r) = key r} {r₀ : ρ}
    (h₀ : r₀ ∈ t) {r : ρ} :
    r ∈ t.update (key r₀) f hf ↔ r = f r₀ ∨ r ∈ t ∧ key r ≠ key r₀ := by
  rw [mem_update]
  constructor
  · rintro ⟨r', hr', he⟩
    split_ifs at he with hk
    · rw [t.eq_of_key_eq hr' h₀ hk] at he
      exact Or.inl he.symm
    · subst he
      exact Or.inr ⟨hr', hk⟩
  · rintro (rfl | ⟨hr, hk⟩)
    · exact ⟨r₀, h₀, by simp⟩
    · exact ⟨r, hr, by simp [hk]⟩

/-- Replacing a row that is present replaces exactly that row. -/
theorem mem_replace {t : Table key} {r r₀ : ρ} (h₀ : r₀ ∈ t) (hk : key r₀ = key r) {r' : ρ} :
    r' ∈ t.replace r ↔ r' = r ∨ r' ∈ t ∧ key r' ≠ key r := by
  simp only [mem_def, replace, List.mem_map]
  constructor
  · rintro ⟨q, hq, he⟩
    split_ifs at he with hqk
    · exact Or.inl he.symm
    · subst he
      exact Or.inr ⟨hq, hqk⟩
  · rintro (rfl | ⟨hr', hne⟩)
    · exact ⟨r₀, h₀, by simp [hk]⟩
    · exact ⟨r', hr', by simp [hne]⟩

/-- Rows related to those of a table stay related when one row is updated, if the relation
allows it. -/
theorem forall₂_update {R : ρ → ρ → Prop} {rows : List ρ} {t : Table key} {k : κ} {f : ρ → ρ}
    (hf : ∀ r, key (f r) = key r) (h : List.Forall₂ R rows t.rows)
    (hR : ∀ r r', r' ∈ t → key r' = k → R r r' → R r (f r')) :
    List.Forall₂ R rows (t.update k f hf).rows := by
  change List.Forall₂ R rows (t.rows.map fun r => if decide (key r = k) = true then f r else r)
  rw [List.forall₂_map_right_iff]
  refine (List.forall₂_iff_zip.mpr ⟨h.length_eq, fun {r r'} hm => ?_⟩)
  have hrel := List.forall₂_iff_zip.mp h |>.2 hm
  split_ifs with hk
  · exact hR r r' (List.of_mem_zip hm).2 (of_decide_eq_true hk) hrel
  · exact hrel

end lookup

/-! ### Sums over the rows -/

section sums

variable {M : Type} [AddCommMonoid M]

/-- The sum of a weight over all rows. -/
def sum (t : Table key) (w : ρ → M) : M := (t.rows.map w).sum

theorem sum_congr {t : Table key} {w w' : ρ → M} (h : ∀ r ∈ t, w r = w' r) :
    t.sum w = t.sum w' := by
  unfold sum
  rw [List.map_congr_left h]

/-- An update that keeps the weight of every row it rewrites keeps the sum. -/
theorem sum_updateWhere {t : Table key} {p : ρ → Bool} {f : ρ → ρ} (hf : ∀ r, key (f r) = key r)
    {w : ρ → M} (h : ∀ r ∈ t, p r = true → w (f r) = w r) :
    (t.updateWhere p f hf).sum w = t.sum w := by
  unfold sum updateWhere
  rw [List.map_map]
  congr 1
  apply List.map_congr_left
  intro r hr
  simp only [Function.comp]
  split_ifs with hp
  · exact h r hr hp
  · rfl

theorem sum_eq_zero {t : Table key} {w : ρ → M} (h : ∀ r ∈ t, w r = 0) : t.sum w = 0 := by
  unfold sum
  apply List.sum_eq_zero
  intro x hx
  obtain ⟨r, hr, rfl⟩ := List.mem_map.mp hx
  exact h r hr

end sums

end Table
