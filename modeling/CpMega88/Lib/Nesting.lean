import Mathlib.Algebra.BigOperators.Group.List.Basic
import Mathlib.Algebra.Ring.Int.Defs
import Mathlib.Data.List.Basic

/-!
# Well-nested words

Words over the brackets of several kinds, with letters that are no
bracket in between. `WellNested` is the grammar, `Matches` says which
position closes which, and `level` counts the brackets open.

Every bracket that closes in a well-nested word closes one that opened
before it (`WellNested.exists_match`), the level never falls below 0,
and between the two ends of a pair it stays above the level the pair
began at (`Matches.level_lt`). `stray` is a letter that no well-nested
word contains.
-/

namespace Nesting

variable {κ : Type*}

inductive Bracket (κ : Type*) where
  | opens (k : κ)
  | closes (k : κ)
  | plain
  | stray
deriving DecidableEq

def Bracket.weight : Bracket κ → Int
  | .opens _ => 1
  | .closes _ => -1
  | .plain | .stray => 0

/-- The brackets open after a word. -/
def level (l : List (Bracket κ)) : Int := (l.map Bracket.weight).sum

inductive WellNested : List (Bracket κ) → Prop where
  | nil : WellNested []
  | plain {rest : List (Bracket κ)} (hrest : WellNested rest) : WellNested (.plain :: rest)
  | pair {inner rest : List (Bracket κ)} (k : κ) (hinner : WellNested inner)
      (hrest : WellNested rest) : WellNested (.opens k :: (inner ++ .closes k :: rest))

/-- The bracket at `j` closes the one that opens at `i`: they are of one
kind, and what stands between them is well nested. -/
def Matches (l : List (Bracket κ)) (i j : Nat) : Prop :=
  ∃ k pre inner post, l = pre ++ .opens k :: (inner ++ .closes k :: post) ∧ WellNested inner
    ∧ i = pre.length ∧ j = pre.length + 1 + inner.length

/-! ## Levels -/

@[simp] theorem level_nil : level ([] : List (Bracket κ)) = 0 := rfl

@[simp] theorem level_cons (b : Bracket κ) (l : List (Bracket κ)) :
    level (b :: l) = b.weight + level l := by
  simp [level]

@[simp] theorem level_append (l l' : List (Bracket κ)) :
    level (l ++ l') = level l + level l' := by
  simp [level]

namespace WellNested

theorem level_eq {l : List (Bracket κ)} (h : WellNested l) : level l = 0 := by
  induction h with
  | nil => rfl
  | plain _ ih => simp [Bracket.weight, ih]
  | pair k _ _ ihinner ihrest => simp [Bracket.weight, ihinner, ihrest]

theorem level_take_nonneg {l : List (Bracket κ)} (h : WellNested l) :
    ∀ m, 0 ≤ level (l.take m) := by
  induction h with
  | nil => simp
  | plain _ ih =>
      intro m
      cases m with
      | zero => simp
      | succ m => simpa [Bracket.weight] using ih m
  | @pair inner rest k hinner _ ihinner ihrest =>
      intro m
      cases m with
      | zero => simp
      | succ m =>
          rw [List.take_succ_cons, List.take_append, level_cons, level_append]
          cases hm : m - inner.length with
          | zero =>
              have := ihinner m
              simp only [List.take_zero, level_nil, Bracket.weight]
              omega
          | succ p =>
              have hall : inner.take m = inner := List.take_of_length_le (by omega)
              have := ihrest p
              rw [hall, hinner.level_eq, List.take_succ_cons, level_cons]
              simp only [Bracket.weight]
              omega

theorem stray_notMem {l : List (Bracket κ)} (h : WellNested l) : Bracket.stray ∉ l := by
  induction h with
  | nil => simp
  | plain _ ih => simp [ih]
  | pair k _ _ ihinner ihrest => simp [ihinner, ihrest]

end WellNested

/-! ## Matching positions -/

namespace Matches

theorem append_left {l : List (Bracket κ)} {i j : Nat} (h : Matches l i j)
    (pre : List (Bracket κ)) : Matches (pre ++ l) (pre.length + i) (pre.length + j) := by
  obtain ⟨k, pre', inner, post, rfl, hinner, rfl, rfl⟩ := h
  refine ⟨k, pre ++ pre', inner, post, by simp, hinner, by simp, ?_⟩
  simp only [List.length_append]
  omega

theorem append_right {l : List (Bracket κ)} {i j : Nat} (h : Matches l i j)
    (post : List (Bracket κ)) : Matches (l ++ post) i j := by
  obtain ⟨k, pre, inner, post', rfl, hinner, hi, hj⟩ := h
  exact ⟨k, pre, inner, post' ++ post, by simp, hinner, hi, hj⟩

theorem cons {l : List (Bracket κ)} {i j : Nat} (h : Matches l i j) (b : Bracket κ) :
    Matches (b :: l) (i + 1) (j + 1) := by
  have hpre := h.append_left [b]
  rwa [List.length_singleton, Nat.add_comm 1 i, Nat.add_comm 1 j] at hpre

/-- The two letters themselves. -/
theorem letters {l : List (Bracket κ)} {i j : Nat} (h : Matches l i j) :
    i < j ∧ ∃ k, l[i]? = some (.opens k) ∧ l[j]? = some (.closes k) := by
  obtain ⟨k, pre, inner, post, rfl, -, rfl, rfl⟩ := h
  refine ⟨by omega, k, by simp, ?_⟩
  rw [List.getElem?_append_right (by omega), Nat.add_assoc, Nat.add_sub_cancel_left,
    Nat.add_comm, List.getElem?_cons_succ, List.getElem?_append_right (Nat.le_refl _),
    Nat.sub_self, List.getElem?_cons_zero]

/-- Inside a pair the level stays above the one it opened at, and it
closes one above it. -/
theorem level_lt {l : List (Bracket κ)} {i j : Nat} (h : Matches l i j) :
    level (l.take j) = level (l.take i) + 1
      ∧ ∀ m, i < m → m ≤ j → level (l.take i) < level (l.take m) := by
  obtain ⟨k, pre, inner, post, rfl, hinner, rfl, rfl⟩ := h
  have htake : ∀ p, p ≤ inner.length →
      (pre ++ Bracket.opens k :: (inner ++ .closes k :: post)).take (pre.length + 1 + p)
        = pre ++ Bracket.opens k :: inner.take p := by
    intro p hp
    rw [Nat.add_assoc, List.take_length_add_append, Nat.add_comm 1 p, List.take_succ_cons,
      List.take_append_of_le_length hp]
  have hpre : (pre ++ Bracket.opens k :: (inner ++ .closes k :: post)).take pre.length = pre := by
    simp
  refine ⟨?_, fun m hm hj => ?_⟩
  · rw [htake _ (Nat.le_refl _), hpre, List.take_length, level_append, level_cons,
      hinner.level_eq]
    rfl
  · obtain ⟨p, rfl⟩ : ∃ p, m = pre.length + 1 + p := ⟨m - (pre.length + 1), by omega⟩
    have := hinner.level_take_nonneg p
    rw [htake p (by omega), hpre, level_append, level_cons]
    simp only [Bracket.weight]
    omega

end Matches

/-- What closes was opened. -/
theorem WellNested.exists_match {l : List (Bracket κ)} (h : WellNested l) :
    ∀ {j : Nat} {k : κ}, l[j]? = some (.closes k) → ∃ i, Matches l i j := by
  induction h with
  | nil => simp
  | plain _ ih =>
      intro j k hj
      cases j with
      | zero => simp at hj
      | succ j =>
          obtain ⟨i, hi⟩ := ih (by simpa using hj)
          exact ⟨i + 1, hi.cons _⟩
  | @pair inner rest k' hinner _ ihinner ihrest =>
      intro j k hj
      cases j with
      | zero => simp at hj
      | succ j =>
          rw [List.getElem?_cons_succ] at hj
          rcases Nat.lt_trichotomy j inner.length with hlt | rfl | hgt
          · rw [List.getElem?_append_left hlt] at hj
            obtain ⟨i, hi⟩ := ihinner hj
            exact ⟨i + 1, (hi.append_right _).cons _⟩
          · exact ⟨0, k', [], inner, rest, rfl, hinner, rfl, by simp [Nat.add_comm]⟩
          · obtain ⟨p, rfl⟩ : ∃ p, j = inner.length + 1 + p := ⟨j - (inner.length + 1), by omega⟩
            rw [List.getElem?_append_right (by omega), Nat.add_assoc, Nat.add_sub_cancel_left,
              Nat.add_comm 1 p, List.getElem?_cons_succ] at hj
            obtain ⟨i, hi⟩ := ihrest hj
            refine ⟨inner.length + (i + 1) + 1, ?_⟩
            have hpos : inner.length + 1 + p = inner.length + (p + 1) := by omega
            rw [hpos]
            exact ((hi.cons (.closes k')).append_left inner).cons _

end Nesting
