-- A log of two copies. Each record has a generation, and a write goes to the
-- copy of the parity of its generation. So the newest record stands in the
-- other copy while a write is under way, and a torn write loses nothing.
import Mathlib

namespace two_copy_log

/-- What the two copies hold: `none` for an erased or torn copy. -/
structure Copies (R : Type) where
  even : Option R
  odd : Option R

variable {R : Type} (gen : R → Nat)

/-- Each copy holds only records of its own parity. -/
structure Aligned (c : Copies R) : Prop where
  even : ∀ r, c.even = some r → gen r % 2 = 0
  odd : ∀ r, c.odd = some r → gen r % 2 = 1

/-- The record with the larger generation. The even copy wins a tie. -/
def latest (c : Copies R) : Option R :=
  match c.even, c.odd with
  | some a, some b => if gen b ≤ gen a then some a else some b
  | some a, none => some a
  | none, b => b

/-- The copies after the one of parity `n` was written over with `x`. -/
def put (c : Copies R) (n : Nat) (x : Option R) : Copies R :=
  if n % 2 = 0 then { c with even := x } else { c with odd := x }

/-- The copy that the generation `n` is written to. -/
def own (c : Copies R) (n : Nat) : Option R := if n % 2 = 0 then c.even else c.odd

/-- A generation that no record of the copies has reached. -/
def Fresh (c : Copies R) (n : Nat) : Prop := ∀ r, latest gen c = some r → gen r < n

/-! ## The newest record -/

theorem latest_mem {c : Copies R} {r : R} (h : latest gen c = some r) :
    c.even = some r ∨ c.odd = some r := by
  unfold latest at h
  rcases he : c.even with _ | a <;> rcases ho : c.odd with _ | b
  · simp [he, ho] at h
  · simp only [he, ho] at h; exact Or.inr h
  · simp only [he, ho] at h; exact Or.inl h
  · simp only [he, ho] at h
    split at h
    · exact Or.inl h
    · exact Or.inr h

/-- No record of a copy is newer than the newest. -/
theorem le_latest {c : Copies R} {q : R} (h : c.even = some q ∨ c.odd = some q) :
    ∃ r, latest gen c = some r ∧ gen q ≤ gen r := by
  unfold latest
  rcases he : c.even with _ | a <;> rcases ho : c.odd with _ | b
  · simp [he, ho] at h
  · simp only [he, ho, reduceCtorEq, Option.some.injEq, false_or] at h
    exact ⟨b, rfl, by rw [h]⟩
  · simp only [he, ho, reduceCtorEq, Option.some.injEq, or_false] at h
    exact ⟨a, rfl, by rw [h]⟩
  · simp only [he, ho, Option.some.injEq] at h
    dsimp only
    split
    · refine ⟨a, rfl, ?_⟩
      rcases h with rfl | rfl
      · exact Nat.le_refl _
      · assumption
    · refine ⟨b, rfl, ?_⟩
      rcases h with rfl | rfl
      · omega
      · exact Nat.le_refl _

theorem lt_of_fresh {c : Copies R} {n : Nat} {q : R} (hf : Fresh gen c n)
    (h : c.even = some q ∨ c.odd = some q) : gen q < n := by
  obtain ⟨r, hr, hle⟩ := le_latest gen h
  exact Nat.lt_of_le_of_lt hle (hf r hr)

/-- In aligned copies the newest record stands in its own copy. -/
theorem own_latest {c : Copies R} {r : R} (h : Aligned gen c) (hr : latest gen c = some r) :
    own c (gen r) = some r := by
  unfold own
  rcases latest_mem gen hr with hin | hin
  · rw [if_pos (h.even r hin), hin]
  · have hpar := h.odd r hin
    rw [if_neg (by omega), hin]

/-! ## A write -/

theorem own_put (c : Copies R) (n : Nat) (x : Option R) : own (put c n x) n = x := by
  unfold own put
  split <;> rfl

theorem own_put_other {c : Copies R} {m n : Nat} (hmn : n % 2 ≠ m % 2) (x : Option R) :
    own (put c n x) m = own c m := by
  unfold own put
  by_cases hm : m % 2 = 0
  · rw [if_pos hm, if_pos hm, if_neg (by omega)]
  · rw [if_neg hm, if_neg hm, if_pos (by omega)]

/-- Where a copy is erased, nothing is newer than before. -/
theorem latest_put_none {c : Copies R} {n : Nat} {r : R}
    (h : latest gen (put c n none) = some r) : ∃ q, latest gen c = some q ∧ gen r ≤ gen q := by
  apply le_latest gen
  unfold put at h
  split at h
  · rcases latest_mem gen h with hin | hin
    · cases hin
    · exact Or.inr hin
  · rcases latest_mem gen h with hin | hin
    · exact Or.inl hin
    · cases hin

theorem aligned_put {c : Copies R} {n : Nat} {x : Option R} (h : Aligned gen c)
    (hx : ∀ r, x = some r → gen r = n) : Aligned gen (put c n x) := by
  unfold put
  split
  · exact ⟨fun r hr => by rw [hx r hr]; assumption, h.odd⟩
  · exact ⟨h.even, fun r hr => by rw [hx r hr]; omega⟩

/-- A record that is newer than every record of the copies is the newest
once it is written. -/
theorem latest_put {c : Copies R} {r : R} (hf : Fresh gen c (gen r)) :
    latest gen (put c (gen r) (some r)) = some r := by
  unfold put
  split
  · unfold latest
    dsimp only
    rcases ho : c.odd with _ | b
    · rfl
    · have hlt := lt_of_fresh gen hf (Or.inr ho)
      simp [Nat.le_of_lt hlt]
  · unfold latest
    dsimp only
    rcases he : c.even with _ | a
    · rfl
    · have hlt := lt_of_fresh gen hf (Or.inl he)
      simp [hlt]

/-- A write of an older record beside one that stands in its own copy. -/
theorem latest_beside {c : Copies R} {n : Nat} {x : Option R} {r : R} (hr : own c (gen r) = some r)
    (hn : n % 2 ≠ gen r % 2) (hx : ∀ q, x = some q → gen q < gen r) :
    latest gen (put c n x) = some r := by
  unfold own at hr
  unfold put latest
  by_cases hpar : gen r % 2 = 0
  · rw [if_pos hpar] at hr
    rw [if_neg (by omega), hr]
    rcases x with _ | q
    · rfl
    · exact if_pos (Nat.le_of_lt (hx q rfl))
  · rw [if_neg hpar] at hr
    rw [if_pos (by omega), hr]
    rcases x with _ | q
    · rfl
    · exact if_neg (Nat.not_le.mpr (hx q rfl))

/-- A write that left its copy unreadable keeps the record before it. -/
theorem latest_torn {c : Copies R} {n : Nat} (h : Aligned gen c)
    (hn : ∀ r, latest gen c = some r → n = gen r + 1) :
    latest gen (put c n none) = latest gen c := by
  rcases hl : latest gen c with _ | r
  · rcases hp : latest gen (put c n none) with _ | r
    · rfl
    · obtain ⟨q, hq, -⟩ := latest_put_none gen hp
      rw [hl] at hq
      cases hq
  · have hgen := hn r hl
    exact latest_beside gen (own_latest gen h hl) (by omega) nofun

/-- A write to the other copy of the newest record, of an older one, keeps the newest. -/
theorem latest_put_older {c : Copies R} {n : Nat} {x : Option R} {r : R} (h : Aligned gen c)
    (hr : latest gen c = some r) (hn : n % 2 ≠ gen r % 2) (hx : ∀ q, x = some q → gen q < gen r) :
    latest gen (put c n x) = some r :=
  latest_beside gen (own_latest gen h hr) hn hx

/-- A write to the other copy leaves the newest record where it stands. -/
theorem put_keeps {c : Copies R} {n : Nat} {r : R} (h : Aligned gen c)
    (hr : latest gen c = some r) (hn : n % 2 ≠ gen r % 2) (x : Option R) :
    (put c n x).even = some r ∨ (put c n x).odd = some r := by
  have hown := (own_put_other hn x).trans (own_latest gen h hr)
  unfold own at hown
  split at hown
  · exact Or.inl hown
  · exact Or.inr hown

/-- Two writes of different parity leave nothing else. -/
theorem put_two {c : Copies R} {m n : Nat} (hmn : m % 2 ≠ n % 2) (y x : Option R) :
    put (put c m y) n x = ⟨y, x⟩ ∨ put (put c m y) n x = ⟨x, y⟩ := by
  unfold put
  by_cases hm : m % 2 = 0
  · rw [if_pos hm, if_neg (by omega)]
    exact Or.inl rfl
  · rw [if_neg hm, if_pos (by omega)]
    exact Or.inr rfl

/-- After two writes of different parity, the newest record is one of the two. -/
theorem latest_put_two {c : Copies R} {m n : Nat} {r : R} {x : Option R} (hmn : m % 2 ≠ n % 2) :
    ∃ q, latest gen (put (put c m (some r)) n x) = some q ∧ (q = r ∨ x = some q) := by
  rcases put_two hmn (some r) x with h | h
  · rw [h]
    obtain ⟨q, hq, -⟩ := le_latest gen (c := ⟨some r, x⟩) (Or.inl rfl)
    refine ⟨q, hq, ?_⟩
    rcases latest_mem gen hq with hmem | hmem
    · exact Or.inl (Option.some.inj hmem).symm
    · exact Or.inr hmem
  · rw [h]
    obtain ⟨q, hq, -⟩ := le_latest gen (c := ⟨x, some r⟩) (Or.inr rfl)
    refine ⟨q, hq, ?_⟩
    rcases latest_mem gen hq with hmem | hmem
    · exact Or.inr hmem
    · exact Or.inl (Option.some.inj hmem).symm

end two_copy_log
