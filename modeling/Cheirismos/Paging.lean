import Mathlib.Order.Basic
import Mathlib.Data.Nat.Init
import Mathlib.Data.List.Basic
import Mathlib.Tactic.Ring

/-! # Intervals cut at page boundaries

General facts about cutting an interval of addresses into consecutive pieces, over natural numbers.

* `Covers a pieces b` says that the pieces, pairs of a first address and a length, lie end to end
  from `a` to `b` and that none is empty.
* `slices page payload a b` cuts from `a` to `b` at every page boundary and never takes more than
  `payload` at once.
* A smaller payload only cuts the pieces of a larger one further (`slices_refine`), and a payload of
  a whole page or more does not cut at all (`slices_of_page_le`). -/

namespace Paging

/-! ### Consecutive pieces -/

/-- The pieces lie end to end from `a` to `b`. -/
inductive Covers : ℕ → List (ℕ × ℕ) → ℕ → Prop
  | nil (a : ℕ) : Covers a [] a
  | cons {a n b : ℕ} {pieces : List (ℕ × ℕ)} (pos : 0 < n) (rest : Covers (a + n) pieces b) :
      Covers a ((a, n) :: pieces) b

namespace Covers

variable {a b : ℕ} {pieces : List (ℕ × ℕ)}

theorem le (h : Covers a pieces b) : a ≤ b := by
  induction h with
  | nil a => exact le_refl a
  | cons _ _ ih => omega

/-- Every piece is inside the interval. -/
theorem within (h : Covers a pieces b) {piece : ℕ × ℕ} (hp : piece ∈ pieces) :
    a ≤ piece.1 ∧ 0 < piece.2 ∧ piece.1 + piece.2 ≤ b := by
  induction h with
  | nil a => exact absurd hp List.not_mem_nil
  | cons pos rest ih =>
      rcases List.mem_cons.mp hp with rfl | hp
      · exact ⟨le_refl _, pos, rest.le⟩
      · obtain ⟨h₁, h₂, h₃⟩ := ih hp
        exact ⟨by omega, h₂, h₃⟩

/-- The addresses of the pieces are exactly those of the interval. -/
theorem mem_iff (h : Covers a pieces b) (y : ℕ) :
    (a ≤ y ∧ y < b) ↔ ∃ piece ∈ pieces, piece.1 ≤ y ∧ y < piece.1 + piece.2 := by
  induction h with
  | nil a =>
      constructor
      · intro hy
        omega
      · rintro ⟨_, hp, _⟩
        exact absurd hp List.not_mem_nil
  | @cons a n b pieces pos rest ih =>
      have hle := rest.le
      constructor
      · intro hy
        by_cases hfirst : y < a + n
        · exact ⟨_, List.mem_cons_self, hy.1, hfirst⟩
        · obtain ⟨piece, hp, hpy⟩ := ih.mp ⟨by omega, hy.2⟩
          exact ⟨piece, List.mem_cons_of_mem _ hp, hpy⟩
      · rintro ⟨piece, hp, hpy⟩
        rcases List.mem_cons.mp hp with rfl | hp
        · exact ⟨hpy.1, by omega⟩
        · have := ih.mpr ⟨piece, hp, hpy⟩
          exact ⟨by omega, this.2⟩

end Covers

/-! ### Slices -/

/-- The addresses up to the end of the page. -/
def room (page a : ℕ) : ℕ := page - a % page

theorem room_pos {page : ℕ} (hpage : 0 < page) (a : ℕ) : 0 < room page a :=
  Nat.sub_pos_of_lt (Nat.mod_lt a hpage)

theorem room_le (page a : ℕ) : room page a ≤ page := Nat.sub_le _ _

/-- Inside a page, the room shrinks by what has been taken. -/
theorem room_add {page a n : ℕ} (h : n < room page a) : room page (a + n) = room page a - n := by
  unfold room at h ⊢
  have hlt : a % page + n < page := by omega
  rw [Nat.add_mod, Nat.mod_eq_of_lt (lt_of_le_of_lt (Nat.le_add_left n _) hlt),
    Nat.mod_eq_of_lt hlt]
  omega

/-- Cut at page boundaries, and take at most `payload` at once. -/
def slices (page payload a b : ℕ) : List (ℕ × ℕ) :=
  if h : a < b ∧ 0 < page ∧ 0 < payload then
    let n := min (room page a) (min payload (b - a))
    have : 0 < n := Nat.lt_min.mpr
      ⟨room_pos h.2.1 a, Nat.lt_min.mpr ⟨h.2.2, Nat.sub_pos_of_lt h.1⟩⟩
    (a, n) :: slices page payload (a + n) b
  else []
termination_by b - a
decreasing_by omega

variable {page payload a b : ℕ}

/-- The next slice. -/
def next (page payload a b : ℕ) : ℕ := min (room page a) (min payload (b - a))

theorem next_pos (hpage : 0 < page) (hpayload : 0 < payload) (h : a < b) :
    0 < next page payload a b :=
  Nat.lt_min.mpr ⟨room_pos hpage a, Nat.lt_min.mpr ⟨hpayload, Nat.sub_pos_of_lt h⟩⟩

theorem slices_of_lt (hpage : 0 < page) (hpayload : 0 < payload) (h : a < b) :
    slices page payload a b =
      (a, next page payload a b) :: slices page payload (a + next page payload a b) b := by
  rw [slices, dif_pos ⟨h, hpage, hpayload⟩]
  rfl

theorem slices_of_le (h : b ≤ a) : slices page payload a b = [] := by
  rw [slices, dif_neg fun hlt => absurd hlt.1 (Nat.not_lt.mpr h)]

/-- Cutting from the front: what holds at the end and of one slice more holds of all. -/
theorem slices_induction {P : ℕ → Prop} (hpage : 0 < page) (hpayload : 0 < payload)
    (hend : ∀ a, b ≤ a → P a)
    (hstep : ∀ a, a < b → P (a + next page payload a b) → P a) (a : ℕ) : P a := by
  generalize hleft : b - a = left
  induction left using Nat.strong_induction_on generalizing a with
  | _ left ih =>
      by_cases h : a < b
      · have := next_pos hpage hpayload h
        exact hstep a h (ih _ (by omega) _ rfl)
      · exact hend a (Nat.not_lt.mp h)

theorem slices_covers (hpage : 0 < page) (hpayload : 0 < payload) (h : a ≤ b) :
    Covers a (slices page payload a b) b := by
  revert h
  refine slices_induction (b := b) (P := fun a => a ≤ b → Covers a (slices page payload a b) b)
    hpage hpayload (fun a hle h => ?_) (fun a hlt ih _ => ?_) a
  · obtain rfl := le_antisymm h hle
    rw [slices_of_le hle]
    exact .nil a
  · rw [slices_of_lt hpage hpayload hlt]
    refine .cons (next_pos hpage hpayload hlt) (ih ?_)
    have : next page payload a b ≤ b - a := (min_le_right _ _).trans (min_le_right _ _)
    omega

/-- No slice crosses a page boundary or exceeds the payload. -/
theorem slices_bounds {piece : ℕ × ℕ} (h : piece ∈ slices page payload a b) :
    piece.2 ≤ room page piece.1 ∧ piece.2 ≤ payload := by
  induction a using slices.induct page payload b with
  | case1 a hlt n hn ih =>
      rw [slices, dif_pos hlt] at h
      rcases List.mem_cons.mp h with rfl | h
      · exact ⟨min_le_left _ _, (min_le_right _ _).trans (min_le_left _ _)⟩
      · exact ih h
  | case2 a hend =>
      rw [slices, dif_neg hend] at h
      exact absurd h List.not_mem_nil

/-- A payload of a page or more never cuts a page. -/
theorem slices_of_page_le {payload' : ℕ} (hpage : 0 < page) (h : page ≤ payload)
    (h' : page ≤ payload') (a : ℕ) : slices page payload a b = slices page payload' a b := by
  have hpayload := lt_of_lt_of_le hpage h
  refine slices_induction (b := b)
    (P := fun a => slices page payload a b = slices page payload' a b) hpage hpayload
    (fun a hle => ?_) (fun a hlt ih => ?_) a
  · rw [slices_of_le hle, slices_of_le hle]
  · have hnext : next page payload a b = next page payload' a b := by
      have := room_le page a
      unfold next
      omega
    rw [slices_of_lt hpage hpayload hlt, slices_of_lt hpage (lt_of_lt_of_le hpage h') hlt, ih,
      hnext]

/-- Where a page ends a slice ends. -/
theorem slices_append (hpage : 0 < page) (hpayload : 0 < payload) {e : ℕ} (hae : a ≤ e)
    (heb : e ≤ b) (hend : a = e ∨ e = b ∨ e = a + room page a) :
    slices page payload a b = slices page payload a e ++ slices page payload e b := by
  generalize hleft : e - a = left
  induction left using Nat.strong_induction_on generalizing a with
  | _ left ih =>
      by_cases hlt : a < e
      · have hnext : next page payload a b = next page payload a e := by
          unfold next
          omega
        have hpos := next_pos hpage hpayload hlt
        have hle : next page payload a e ≤ e - a := (min_le_right _ _).trans (min_le_right _ _)
        have hroom : next page payload a e ≤ room page a := min_le_left _ _
        rw [slices_of_lt hpage hpayload (lt_of_lt_of_le hlt heb), hnext,
          slices_of_lt hpage hpayload hlt, List.cons_append]
        refine congrArg _ (ih _ (by omega) (by omega) ?_ rfl)
        by_cases hfull : next page payload a e = e - a
        · exact Or.inl (by omega)
        · right
          rcases hend with hend | hend | hend
          · omega
          · exact Or.inl hend
          · right
            rw [room_add (by omega)]
            omega
      · obtain rfl : a = e := by omega
        rw [slices_of_le (le_refl a), List.nil_append]

/-- A smaller payload cuts the pieces of the pages further. -/
theorem slices_refine {payload' : ℕ} (hpage : 0 < page) (hpayload : 0 < payload)
    (h' : page ≤ payload') (a : ℕ) : slices page payload a b =
      (slices page payload' a b).flatMap fun piece =>
        slices page payload piece.1 (piece.1 + piece.2) := by
  refine slices_induction (b := b) (P := fun a => slices page payload a b =
    (slices page payload' a b).flatMap fun piece =>
      slices page payload piece.1 (piece.1 + piece.2))
    hpage (lt_of_lt_of_le hpage h') (fun a hle => ?_) (fun a hlt ih => ?_) a
  · rw [slices_of_le hle, slices_of_le hle]
    rfl
  · have := room_le page a
    have hnext : next page payload' a b = min (room page a) (b - a) := by
      unfold next
      omega
    rw [slices_of_lt hpage (lt_of_lt_of_le hpage h') hlt, List.flatMap_cons, ← ih]
    exact slices_append hpage hpayload (by omega) (by omega) (by omega)

end Paging
