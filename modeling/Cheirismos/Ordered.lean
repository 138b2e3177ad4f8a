import Mathlib.Order.Basic
import Mathlib.Order.Defs.LinearOrder
import Mathlib.Data.List.Pairwise
import Mathlib.Data.List.Nodup
import Mathlib.Data.Finset.Card
import Mathlib.Data.Finset.Image

/-! # Ordered sets and maps

Finite sets and maps over a linear order, kept as strictly increasing lists, so that
iteration has one order and equal contents are equal values.

`OrdSet.insert` and `OrdSet.ofList` build sets by ordered insertion; `mem_insert` and
`mem_ofList` describe their members.
`OrdMap.get?` looks a key up; a map whose entries all occur in a map of the same size is that
map (`OrdMap.eq_of_subset`). -/

/-- A finite set as a strictly increasing list. -/
structure OrdSet (α : Type) [LinearOrder α] where
  elems : List α
  sorted : elems.Pairwise (· < ·)

namespace OrdSet

variable {α : Type} [LinearOrder α]

instance : Membership α (OrdSet α) := ⟨fun s a => a ∈ s.elems⟩

theorem mem_def {s : OrdSet α} {a : α} : a ∈ s ↔ a ∈ s.elems := Iff.rfl

instance : DecidableEq (OrdSet α) := fun s t =>
  decidable_of_iff (s.elems = t.elems) (by cases s; cases t; simp)

instance (s : OrdSet α) (a : α) : Decidable (a ∈ s) := inferInstanceAs (Decidable (a ∈ s.elems))

/-- Insertion into a strictly increasing list, dropping a duplicate. -/
def insertList (a : α) : List α → List α
  | [] => [a]
  | b :: l => if a < b then a :: b :: l else if a = b then b :: l else b :: insertList a l

theorem mem_insertList {a c : α} : ∀ {l : List α}, c ∈ insertList a l ↔ c = a ∨ c ∈ l
  | [] => by simp [insertList]
  | b :: l => by
      unfold insertList
      split_ifs with h1 h2
      · simp
      · subst h2; simp
      · rw [List.mem_cons, mem_insertList, List.mem_cons]
        tauto

theorem sorted_insertList {a : α} : ∀ {l : List α}, l.Pairwise (· < ·) →
    (insertList a l).Pairwise (· < ·)
  | [], _ => by simp [insertList]
  | b :: l, h => by
      rw [List.pairwise_cons] at h
      unfold insertList
      split_ifs with h1 h2
      · rw [List.pairwise_cons, List.pairwise_cons]
        refine ⟨?_, h⟩
        intro c hc
        rcases List.mem_cons.mp hc with rfl | hc
        · exact h1
        · exact lt_trans h1 (h.1 c hc)
      · rw [List.pairwise_cons]
        exact h
      · rw [List.pairwise_cons]
        refine ⟨?_, sorted_insertList h.2⟩
        intro c hc
        rcases mem_insertList.mp hc with rfl | hc
        · exact lt_of_le_of_ne (not_lt.mp h1) (Ne.symm h2)
        · exact h.1 c hc

def empty : OrdSet α := ⟨[], List.Pairwise.nil⟩

def insert (a : α) (s : OrdSet α) : OrdSet α := ⟨insertList a s.elems, sorted_insertList s.sorted⟩

/-- The set of the members of a list. -/
def ofList : List α → OrdSet α
  | [] => empty
  | a :: l => insert a (ofList l)

@[simp] theorem mem_insert {s : OrdSet α} {a c : α} : c ∈ s.insert a ↔ c = a ∨ c ∈ s :=
  mem_insertList

@[simp] theorem mem_ofList {c : α} : ∀ {l : List α}, c ∈ ofList l ↔ c ∈ l
  | [] => by simp [ofList, empty, mem_def]
  | a :: l => by rw [ofList, mem_insert, mem_ofList, List.mem_cons]

end OrdSet

/-- A finite map as a list of entries with strictly increasing keys. -/
structure OrdMap (κ υ : Type) [LinearOrder κ] where
  entries : List (κ × υ)
  sorted : (entries.map Prod.fst).Pairwise (· < ·)

namespace OrdMap

variable {κ υ : Type} [LinearOrder κ]

instance [DecidableEq υ] : DecidableEq (OrdMap κ υ) := fun s t =>
  decidable_of_iff (s.entries = t.entries) (by cases s; cases t; simp)

/-- The value at a key. -/
def get? (m : OrdMap κ υ) (k : κ) : Option υ := (m.entries.find? (fun e => e.1 = k)).map Prod.snd

/-- The values in key order. -/
def values (m : OrdMap κ υ) : List υ := m.entries.map Prod.snd

/-- Apply a function to every value. -/
def mapValues {υ' : Type} (m : OrdMap κ υ) (f : υ → υ') : OrdMap κ υ' where
  entries := m.entries.map (fun e => (e.1, f e.2))
  sorted := by
    have e : (m.entries.map (fun e => (e.1, f e.2))).map Prod.fst = m.entries.map Prod.fst := by
      rw [List.map_map]; rfl
    rw [e]
    exact m.sorted

theorem nodup_keys (m : OrdMap κ υ) : (m.entries.map Prod.fst).Nodup := m.sorted.imp ne_of_lt

theorem get?_eq_some {m : OrdMap κ υ} {k : κ} {v : υ} : m.get? k = some v ↔ (k, v) ∈ m.entries := by
  unfold get?
  rw [Option.map_eq_some_iff]
  constructor
  · rintro ⟨e, he, rfl⟩
    have h1 := List.mem_of_find?_eq_some he
    have h2 := List.find?_some he
    rw [← show e.1 = k by simpa using h2]
    exact h1
  · intro h
    cases hf : m.entries.find? (fun e => e.1 = k) with
    | none =>
        have := List.find?_eq_none.mp hf (k, v) h
        simp at this
    | some e =>
        have h1 := List.mem_of_find?_eq_some hf
        have h2 : e.1 = k := by simpa using List.find?_some hf
        exact ⟨e, rfl, by rw [List.inj_on_of_nodup_map m.nodup_keys h1 h h2]⟩

theorem get?_mapValues {υ' : Type} (m : OrdMap κ υ) (f : υ → υ') (k : κ) :
    (m.mapValues f).get? k = (m.get? k).map f := by
  cases h : m.get? k with
  | some v =>
      rw [Option.map_some, get?_eq_some]
      exact List.mem_map.mpr ⟨(k, v), get?_eq_some.mp h, rfl⟩
  | none =>
      rw [Option.map_none, Option.eq_none_iff_forall_ne_some]
      intro v' hv'
      obtain ⟨e, he, heq⟩ := List.mem_map.mp (get?_eq_some.mp hv')
      obtain ⟨rfl, _⟩ := Prod.mk.inj heq
      rw [get?_eq_some.mpr he] at h
      cases h

/-- A map whose entries all occur in a map of the same size is that map. -/
theorem eq_of_subset {m m' : OrdMap κ υ} (hlen : m.entries.length = m'.entries.length)
    (h : ∀ e ∈ m.entries, e ∈ m'.entries) : m = m' := by
  have hsub : m.entries.Subperm m'.entries :=
    List.subperm_of_subset (List.Nodup.of_map _ m.nodup_keys) h
  have hp := hsub.perm_of_length_le hlen.ge
  have he : m.entries = m'.entries := by
    refine @List.Perm.eq_of_pairwise _ (fun a b => a.1 < b.1) _ _ ?_ ?_ ?_ hp
    · intro a b _ _ h1 h2
      exact absurd h1 (lt_asymm h2)
    · exact List.pairwise_map.mp m.sorted
    · exact List.pairwise_map.mp m'.sorted
  cases m
  cases m'
  simpa using he

end OrdMap
