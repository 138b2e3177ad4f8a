import Mathlib.Data.Nat.Count
import Mathlib.Data.List.Basic
import Mathlib.Data.Finset.Card

/-! # Maximal runs

The maximal runs of the positions that have a property, and the loop that finds them in one pass.

* `MaximalRun p r` says that the half-open range `r` is a run of `p` that cannot be extended, and
  `ListsRuns p runs` that `runs` are all of them in order.
* `scanRuns` keeps the start of a run that is open and hands every run to `close` when it ends; the
  run that is open at the end is left to the caller.
* `scanRuns_rule` carries an invariant of the state through the loop: it is shown once for a
  position inside a run and once for the end of a run. -/

namespace Sequences

/-! ### Runs -/

section runs

variable {p : ℕ → Prop} {r s : ℕ × ℕ}

/-- A run of positions with the property that no neighbour extends. -/
structure MaximalRun (p : ℕ → Prop) (r : ℕ × ℕ) : Prop where
  nonempty : r.1 < r.2
  inside : ∀ i, r.1 ≤ i → i < r.2 → p i
  before : ∀ i, i + 1 = r.1 → ¬ p i
  after : ¬ p r.2

/-- Runs that end at the same position are the same. -/
theorem MaximalRun.eq_of_end (hr : MaximalRun p r) (hs : MaximalRun p s) (h : r.2 = s.2) :
    r = s := by
  have hlt : ∀ {r s : ℕ × ℕ}, MaximalRun p r → MaximalRun p s → r.2 = s.2 → ¬ r.1 < s.1 := by
    intro r s hr hs h hlt
    have hbefore := hs.before (s.1 - 1) (by omega)
    have hnonempty := hs.nonempty
    exact hbefore (hr.inside _ (by omega) (by omega))
  have h₁ := hlt hr hs h
  have h₂ := hlt hs hr h.symm
  exact Prod.ext (by omega) h

/-- A position with the property lies in a maximal run when the property ends somewhere. -/
theorem exists_maximalRun {n i : ℕ} (hend : ∀ j, n ≤ j → ¬ p j) (hi : p i) :
    ∃ r, MaximalRun p r ∧ r.1 ≤ i ∧ i < r.2 := by
  classical
  have hstop : ∃ j, i ≤ j ∧ ¬ p j := by
    refine ⟨n, ?_, hend n le_rfl⟩
    by_contra hle
    exact hend i (by omega) hi
  obtain ⟨hle, hafter⟩ := Nat.find_spec hstop
  have hbefore_stop : ∀ j, i ≤ j → j < Nat.find hstop → p j := by
    intro j hij hj
    by_contra hp
    exact Nat.find_min hstop hj ⟨hij, hp⟩
  have hne : Nat.find hstop ≠ i := fun h => hafter (h.symm ▸ hi)
  have hstart : ∃ a, a ≤ i ∧ ∀ j, a ≤ j → j ≤ i → p j :=
    ⟨i, le_rfl, fun j h₁ h₂ => by rwa [Nat.le_antisymm h₂ h₁]⟩
  obtain ⟨hai, hinside⟩ := Nat.find_spec hstart
  refine ⟨(Nat.find hstart, Nat.find hstop), ⟨?_, ?_, ?_, hafter⟩, hai, ?_⟩
  · show Nat.find hstart < Nat.find hstop
    omega
  · intro j h₁ h₂
    by_cases hj : j ≤ i
    · exact hinside j h₁ hj
    · exact hbefore_stop j (by omega) h₂
  · intro j (hj : j + 1 = Nat.find hstart) hp
    refine Nat.find_min hstart (m := j) (by omega) ⟨by omega, fun k h₁ h₂ => ?_⟩
    by_cases hk : k = j
    · rwa [hk]
    · exact hinside k (by omega) h₂
  · show i < Nat.find hstop
    omega

/-- The maximal runs, in order. -/
structure ListsRuns (p : ℕ → Prop) (runs : List (ℕ × ℕ)) : Prop where
  ordered : runs.Pairwise fun r s => r.2 < s.1
  mem_iff : ∀ r, r ∈ runs ↔ MaximalRun p r

theorem ListsRuns.covers {runs : List (ℕ × ℕ)} {n i : ℕ} (h : ListsRuns p runs)
    (hend : ∀ j, n ≤ j → ¬ p j) : p i ↔ ∃ r ∈ runs, r.1 ≤ i ∧ i < r.2 := by
  constructor
  · intro hi
    obtain ⟨r, hr, hri⟩ := exists_maximalRun hend hi
    exact ⟨r, (h.mem_iff r).mpr hr, hri⟩
  · rintro ⟨r, hr, h₁, h₂⟩
    exact ((h.mem_iff r).mp hr).inside i h₁ h₂

theorem ListsRuns.length_le {runs : List (ℕ × ℕ)} {n : ℕ} (h : ListsRuns p runs)
    (hend : ∀ j, n ≤ j → ¬ p j) : runs.length ≤ n := by
  have hnodup : (runs.map Prod.fst).Nodup := by
    rw [List.nodup_iff_pairwise_ne, List.pairwise_map]
    refine h.ordered.imp_of_mem fun {r s} hr _ hlt he => ?_
    have hnonempty := ((h.mem_iff r).mp hr).nonempty
    omega
  have hsubset : (runs.map Prod.fst).toFinset ⊆ Finset.range n := by
    intro i hi
    obtain ⟨r, hr, rfl⟩ := List.mem_map.mp (List.mem_toFinset.mp hi)
    have hrun := (h.mem_iff r).mp hr
    rw [Finset.mem_range]
    by_contra hge
    exact hend r.1 (by omega) (hrun.inside r.1 le_rfl hrun.nonempty)
  have hcard := Finset.card_le_card hsubset
  rwa [List.toFinset_card_of_nodup hnodup, List.length_map, Finset.card_range] at hcard

end runs

/-! ### The loop -/

section scan

variable {α σ ε : Type}

/-- One pass that closes every run at the first position after it. -/
def scanRuns (inside : α → Bool) (enter : σ → σ) (close : σ → ℕ → ℕ → Except ε σ) :
    ℕ → Option ℕ → σ → List α → Except ε (Option ℕ × σ)
  | _, start, s, [] => .ok (start, s)
  | index, start, s, x :: xs =>
      if inside x then
        scanRuns inside enter close (index + 1) (some (start.getD index)) (enter s) xs
      else
        match start with
        | some first => do
            let s ← close s first index
            scanRuns inside enter close (index + 1) none s xs
        | none => scanRuns inside enter close (index + 1) none s xs

/-- Close the run that is open at the end. -/
def finishRun (close : σ → ℕ → ℕ → Except ε σ) (start : Option ℕ) (s : σ) (last : ℕ) :
    Except ε σ :=
  match start with
  | some first => close s first last
  | none => .ok s

/-- What is known before a position: the runs that have ended, and the one that is open. -/
structure Scanned (p : ℕ → Prop) (index : ℕ) (start : Option ℕ) (closed : List (ℕ × ℕ)) : Prop where
  ordered : closed.Pairwise fun r s => r.2 < s.1
  closed_iff : ∀ r, r ∈ closed ↔ MaximalRun p r ∧ r.2 < index
  idle : start = none → ∀ i, i + 1 = index → ¬ p i
  busy : ∀ a, start = some a → a < index ∧ (∀ i, a ≤ i → i < index → p i) ∧
    ∀ i, i + 1 = a → ¬ p i

namespace Scanned

variable {p : ℕ → Prop} {index first : ℕ} {start : Option ℕ} {closed : List (ℕ × ℕ)}

theorem nil : Scanned p 0 none [] where
  ordered := .nil
  closed_iff r := ⟨fun h => absurd h List.not_mem_nil, fun h => absurd h.2 (Nat.not_lt_zero _)⟩
  idle _ i h := absurd h (Nat.succ_ne_zero i)
  busy _ h := by cases h

/-- A position inside a run. -/
theorem enter (h : Scanned p index start closed) (hp : p index) :
    Scanned p (index + 1) (some (start.getD index)) closed where
  ordered := h.ordered
  closed_iff r := by
    rw [h.closed_iff]
    refine and_congr_right fun hr => ⟨fun hlt => by omega, fun hlt => ?_⟩
    have hne : r.2 ≠ index := fun he => hr.after (he ▸ hp)
    omega
  idle h := by cases h
  busy a ha := by
    cases start with
    | none =>
        obtain rfl : index = a := Option.some.inj ha
        refine ⟨by omega, fun i h₁ h₂ => ?_, h.idle rfl⟩
        rwa [show i = index by omega]
    | some first =>
        obtain rfl : first = a := Option.some.inj ha
        obtain ⟨hlt, hinside, hbefore⟩ := h.busy _ rfl
        refine ⟨by omega, fun i h₁ h₂ => ?_, hbefore⟩
        by_cases hi : i = index
        · rwa [hi]
        · exact hinside i h₁ (by omega)

/-- A position between runs. -/
theorem skip (h : Scanned p index none closed) (hp : ¬ p index) :
    Scanned p (index + 1) none closed where
  ordered := h.ordered
  closed_iff r := by
    rw [h.closed_iff]
    refine and_congr_right fun hr => ⟨fun hlt => by omega, fun hlt => ?_⟩
    have hnonempty := hr.nonempty
    by_contra hge
    exact h.idle rfl (r.2 - 1) (by omega) (hr.inside _ (by omega) (by omega))
  idle _ i hi := by
    obtain rfl : i = index := by omega
    exact hp
  busy _ h := by cases h

/-- The run that ends here. -/
theorem ending (h : Scanned p index (some first) closed) (hp : ¬ p index) :
    MaximalRun p (first, index) := by
  obtain ⟨hlt, hinside, hbefore⟩ := h.busy first rfl
  exact ⟨hlt, hinside, hbefore, hp⟩

/-- The end of a run. -/
theorem close (h : Scanned p index (some first) closed) (hp : ¬ p index) :
    Scanned p (index + 1) none (closed ++ [(first, index)]) where
  ordered := by
    rw [List.pairwise_append]
    refine ⟨h.ordered, List.pairwise_singleton _ _, fun r hr s hs => ?_⟩
    obtain rfl := List.mem_singleton.mp hs
    obtain ⟨hrun, hlt⟩ := (h.closed_iff r).mp hr
    obtain ⟨_, hinside, _⟩ := h.busy first rfl
    by_contra hge
    exact hrun.after (hinside _ (Nat.not_lt.mp hge) hlt)
  closed_iff r := by
    rw [List.mem_append, List.mem_singleton, h.closed_iff]
    constructor
    · rintro (⟨hrun, hlt⟩ | rfl)
      · exact ⟨hrun, by omega⟩
      · exact ⟨h.ending hp, Nat.lt_succ_self index⟩
    · rintro ⟨hrun, hlt⟩
      by_cases he : r.2 = index
      · exact Or.inr (hrun.eq_of_end (h.ending hp) he)
      · exact Or.inl ⟨hrun, by omega⟩
  idle _ i hi := by
    obtain rfl : i = index := by omega
    exact hp
  busy _ h := by cases h

/-- No run reaches beyond the end of the property. -/
theorem lists (h : Scanned p (index + 1) none closed) (hend : ∀ j, index ≤ j → ¬ p j) :
    ListsRuns p closed where
  ordered := h.ordered
  mem_iff r := by
    rw [h.closed_iff]
    refine and_iff_left_of_imp fun hr => ?_
    have hnonempty := hr.nonempty
    by_contra hge
    exact hend (r.2 - 1) (by omega) (hr.inside _ (by omega) (by omega))

end Scanned

variable {inside : α → Bool} {enter : σ → σ} {close : σ → ℕ → ℕ → Except ε σ} {p : ℕ → Prop}
  [DecidablePred p] {I : List (ℕ × ℕ) → ℕ → σ → Prop} {xs : List α} {index : ℕ} {start : Option ℕ}
  {closed : List (ℕ × ℕ)} {s : σ}

/-- The invariant `I` relates the runs that were closed and the number of positions inside runs to
the state. -/
theorem scanRuns_rule (hp : ∀ i x, xs[i]? = some x → (p (index + i) ↔ inside x = true))
    (henter : ∀ closed n s, I closed n s → I closed (n + 1) (enter s))
    (hclose : ∀ closed n s a b, I closed n s → a < b → b ≤ index + xs.length →
      ∃ s', close s a b = .ok s' ∧ I (closed ++ [(a, b)]) n s')
    (h : Scanned p index start closed) (hI : I closed (Nat.count p index) s) :
    ∃ start' s' closed', scanRuns inside enter close index start s xs = .ok (start', s') ∧
      Scanned p (index + xs.length) start' closed' ∧
        I closed' (Nat.count p (index + xs.length)) s' := by
  induction xs generalizing index start closed s with
  | nil => exact ⟨start, s, closed, rfl, h, hI⟩
  | cons x xs ih =>
      have hx := hp 0 x rfl
      rw [Nat.add_zero] at hx
      have hlength : index + 1 + xs.length = index + (x :: xs).length := by
        rw [List.length_cons]
        omega
      have hrest : ∀ i y, xs[i]? = some y → (p (index + 1 + i) ↔ inside y = true) := by
        intro i y hy
        rw [Nat.add_assoc, Nat.add_comm 1 i]
        exact hp (i + 1) y hy
      rw [← hlength] at hclose ⊢
      rw [scanRuns.eq_def]
      dsimp only
      by_cases hinside : inside x = true
      · have hindex := hx.mpr hinside
        rw [if_pos hinside]
        refine ih hrest hclose (h.enter hindex) ?_
        rw [Nat.count_succ, if_pos hindex]
        exact henter _ _ _ hI
      · have hindex : ¬ p index := fun h => hinside (hx.mp h)
        have hcount : Nat.count p (index + 1) = Nat.count p index := by
          rw [Nat.count_succ, if_neg hindex, Nat.add_zero]
        rw [if_neg hinside]
        cases start with
        | none =>
            refine ih hrest hclose (h.skip hindex) ?_
            rwa [hcount]
        | some first =>
            obtain ⟨s', hs', hI'⟩ := hclose closed _ s first index hI (h.ending hindex).nonempty
              (by omega)
            dsimp only
            rw [hs']
            refine ih hrest hclose (h.close hindex) ?_
            rwa [hcount]

/-- The loop and the end of the run that it leaves open, over all of a list. -/
theorem scanRuns_lists (hp : ∀ i x, xs[i]? = some x → (p i ↔ inside x = true))
    (hend : ∀ i, xs.length ≤ i → ¬ p i)
    (henter : ∀ closed n s, I closed n s → I closed (n + 1) (enter s))
    (hclose : ∀ closed n s a b, I closed n s → a < b → b ≤ xs.length →
      ∃ s', close s a b = .ok s' ∧ I (closed ++ [(a, b)]) n s') (hI : I [] 0 s) :
    ∃ start' s' s'' runs, scanRuns inside enter close 0 none s xs = .ok (start', s') ∧
      finishRun close start' s' xs.length = .ok s'' ∧ ListsRuns p runs ∧
        I runs (Nat.count p xs.length) s'' := by
  obtain ⟨start', s', closed, hloop, hscanned, hI'⟩ := scanRuns_rule
    (fun i x hx => by rw [Nat.zero_add]; exact hp i x hx) henter
    (fun closed n s a b hI hab hb => hclose closed n s a b hI hab (by omega))
    (.nil : Scanned p 0 none []) (by rwa [Nat.count_zero])
  rw [Nat.zero_add] at hscanned hI'
  have hlast := hend xs.length le_rfl
  cases start' with
  | none => exact ⟨none, s', s', closed, hloop, rfl, (hscanned.skip hlast).lists hend, hI'⟩
  | some first =>
      obtain ⟨s'', hs'', hI''⟩ := hclose closed _ s' first xs.length hI'
        (hscanned.ending hlast).nonempty le_rfl
      exact ⟨some first, s', s'', closed ++ [(first, xs.length)], hloop, hs'',
        (hscanned.close hlast).lists hend, hI''⟩

end scan

end Sequences
