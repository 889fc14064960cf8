import Mathlib.Data.List.Basic

/-!
# Transfers in packets

A list sent in packets of at most `size` elements: full ones, and a last
one that is shorter and may be empty (`cut`). `fill` is how a sender with
one buffer comes to it, element by element.

A receiver that has asked for `want` elements takes the transfer for
complete when it has them or when a packet is short (`collect`). Two
things follow for a sender. What arrives is right in any case
(`collect_cut`); but where full packets bring all that was asked for, the
last packet is one too many (`cut_carries_iff`).
-/

namespace Packets

variable {α : Type*} {size want : Nat}

/-- The packets when `bank` has been filled so far. -/
def fill (size : Nat) : List α → List α → List (List α)
  | bank, [] => [bank]
  | bank, a :: l =>
    if bank.length + 1 = size then (bank ++ [a]) :: fill size [] l else fill size (bank ++ [a]) l

def cut (size : Nat) (l : List α) : List (List α) := fill size [] l

/-! ## The packets -/

theorem fill_ne_nil (bank l : List α) : fill size bank l ≠ [] := by
  induction l generalizing bank with
  | nil => exact List.cons_ne_nil _ _
  | cons a l ih =>
      rw [fill]
      split_ifs
      · exact List.cons_ne_nil _ _
      · exact ih _

/-- Nothing is lost and nothing changes places. -/
theorem fill_flatten (bank l : List α) : (fill size bank l).flatten = bank ++ l := by
  induction l generalizing bank with
  | nil => simp [fill]
  | cons a l ih =>
      rw [fill]
      split_ifs <;> simp [ih]

theorem fill_full (bank l : List α) : ∀ p ∈ (fill size bank l).dropLast, p.length = size := by
  induction l generalizing bank with
  | nil => simp [fill]
  | cons a l ih =>
      rw [fill]
      split_ifs with hfull
      · rw [List.dropLast_cons_of_ne_nil (fill_ne_nil [] l)]
        intro p hp
        rcases List.mem_cons.mp hp with rfl | hp
        · rw [List.length_append, List.length_singleton, hfull]
        · exact ih [] p hp
      · exact ih _

theorem fill_short {bank : List α} (hbank : bank.length < size) (l : List α) :
    ∃ p, (fill size bank l).getLast? = some p ∧ p.length < size := by
  induction l generalizing bank with
  | nil => exact ⟨bank, rfl, hbank⟩
  | cons a l ih =>
      rw [fill]
      split_ifs with hfull
      · obtain ⟨p, hlast, hp⟩ := @ih [] (Nat.zero_lt_of_lt hbank)
        refine ⟨p, ?_, hp⟩
        rw [List.getLast?_cons, hlast]
        rfl
      · refine ih ?_
        rw [List.length_append, List.length_singleton]
        omega

/-- A bank and what fills it up are a packet. -/
theorem fill_append {bank l : List α} (hl : l ≠ []) (hfull : bank.length + l.length = size)
    (l' : List α) : fill size bank (l ++ l') = (bank ++ l) :: fill size [] l' := by
  induction l generalizing bank with
  | nil => exact absurd rfl hl
  | cons a l ih =>
      rw [List.cons_append, fill]
      rw [List.length_cons] at hfull
      rcases l with _ | ⟨b, l⟩
      · rw [if_pos (by simpa using hfull), List.nil_append]
      · have hroom : bank.length + 1 ≠ size := by
          rw [List.length_cons] at hfull
          omega
        have hfull' : (bank ++ [a]).length + (b :: l).length = size := by
          rw [List.length_append, List.length_singleton]
          omega
        have hrest := ih (List.cons_ne_nil b l) hfull'
        rw [if_neg hroom, hrest, List.append_assoc, List.singleton_append]

theorem fill_of_lt {bank l : List α} (h : bank.length + l.length < size) :
    fill size bank l = [bank ++ l] := by
  induction l generalizing bank with
  | nil => rw [fill, List.append_nil]
  | cons a l ih =>
      rw [List.length_cons] at h
      rw [fill, if_neg (by omega), ih (by rw [List.length_append, List.length_singleton]; omega),
        List.append_assoc, List.singleton_append]

theorem cut_of_lt {l : List α} (h : l.length < size) : cut size l = [l] :=
  fill_of_lt (by rwa [List.length_nil, Nat.zero_add])

theorem cut_of_le (hsize : 0 < size) {l : List α} (h : size ≤ l.length) :
    cut size l = l.take size :: cut size (l.drop size) := by
  have hlength : (l.take size).length = size := List.length_take_of_le h
  have hne : l.take size ≠ [] := by
    rw [← List.length_pos_iff]
    omega
  have happend := @fill_append α size [] (l.take size) hne ((Nat.zero_add _).trans hlength)
    (l.drop size)
  rw [List.take_append_drop] at happend
  exact happend

/-! ## Transfers -/

/-- `ps` brings the first `want` elements of `data`, or all it has: in
order, in full packets but for the last, and with a short last packet
exactly when full ones do not end the transfer. -/
structure Carries (size want : Nat) (data : List α) (ps : List (List α)) : Prop where
  bytes : ps.flatten = data.take (min data.length want)
  full : ∀ p ∈ ps.dropLast, p.length = size
  short : (∃ p, ps.getLast? = some p ∧ p.length < size)
    ↔ ¬(min data.length want ≠ 0 ∧ size ∣ min data.length want) ∨ min data.length want < want

/-- The packets, always with a short one last, are what was asked for
unless full ones bring exactly that. -/
theorem cut_carries_iff (hsize : 0 < size) (want : Nat) (data : List α) :
    Carries size want data (cut size (data.take want))
      ↔ ¬(want ≠ 0 ∧ size ∣ want ∧ want ≤ data.length) := by
  have hshort := @fill_short α size [] (by rwa [List.length_nil]) (data.take want)
  constructor
  · rintro ⟨-, -, hends⟩ ⟨hne, hdvd, hle⟩
    have hmin : min data.length want = want := Nat.min_eq_right hle
    rw [hmin] at hends
    rcases hends.mp hshort with hno | hlt
    · exact hno ⟨hne, hdvd⟩
    · exact Nat.lt_irrefl _ hlt
  · intro hno
    refine ⟨?_, fill_full [] _, iff_of_true hshort ?_⟩
    · rw [cut, fill_flatten, List.nil_append, List.take_eq_take_min, Nat.min_comm]
    · by_cases hle : want ≤ data.length
      · rw [Nat.min_eq_right hle]
        exact .inl fun h => hno ⟨h.1, h.2, hle⟩
      · exact .inr (by omega)

/-! ## The receiver -/

/-- What a receiver gets that wants `want` elements, and the packets that
it has no use for. -/
def collect (size : Nat) : Nat → List (List α) → List α × List (List α)
  | _, [] => ([], [])
  | want, p :: ps =>
    if p.length < size ∨ want ≤ p.length then (p, ps)
    else (p ++ (collect size (want - p.length) ps).1, (collect size (want - p.length) ps).2)

theorem collect_short {p : List α} (h : p.length < size) (want : Nat) (ps : List (List α)) :
    collect size want (p :: ps) = (p, ps) :=
  if_pos (.inl h)

theorem collect_last {p : List α} (h : want ≤ p.length) (ps : List (List α)) :
    collect size want (p :: ps) = (p, ps) :=
  if_pos (.inr h)

theorem collect_more {p : List α} (hp : p.length = size) (hmore : size < want)
    (ps : List (List α)) : collect size want (p :: ps)
      = (p ++ (collect size (want - size) ps).1, (collect size (want - size) ps).2) := by
  rw [collect, if_neg (by omega), hp]

/-- The receiver gets what it asked for, and one packet is left over
exactly where full ones bring all of it. -/
theorem collect_cut (hsize : 0 < size) (want : Nat) (data : List α) :
    collect size want (cut size (data.take want)) = (data.take want,
      if want ≠ 0 ∧ size ∣ want ∧ want ≤ data.length then [[]] else []) := by
  induction want using Nat.strongRecOn generalizing data with
  | ind want ih =>
      have hlength : (data.take want).length = min want data.length := List.length_take
      by_cases hshort : (data.take want).length < size
      · have hno : ¬(want ≠ 0 ∧ size ∣ want ∧ want ≤ data.length) := by
          rintro ⟨hne, hdvd, hle⟩
          have := Nat.le_of_dvd (Nat.pos_of_ne_zero hne) hdvd
          omega
        rw [cut_of_lt hshort, collect_short hshort, if_neg hno]
      · have hfirst : ((data.take want).take size).length = size :=
          List.length_take_of_le (Nat.le_of_not_lt hshort)
        rw [cut_of_le hsize (Nat.le_of_not_lt hshort)]
        by_cases hmore : size < want
        · have hrest : (data.take want).drop size = (data.drop size).take (want - size) :=
            List.drop_take
          have hsame : want - size ≠ 0 ∧ size ∣ want - size ∧ want - size ≤ (data.drop size).length
              ↔ want ≠ 0 ∧ size ∣ want ∧ want ≤ data.length := by
            rw [Nat.dvd_sub_iff_left (Nat.le_of_lt hmore) (Nat.dvd_refl size), List.length_drop]
            omega
          rw [collect_more hfirst hmore, hrest, ih (want - size) (by omega), ← hrest,
            List.take_append_drop]
          simp only [hsame]
        · have hwant : want = size := by omega
          have hall : want ≠ 0 ∧ size ∣ want ∧ want ≤ data.length :=
            ⟨by omega, hwant ▸ Nat.dvd_refl size, by omega⟩
          have hempty : (data.take want).drop size = [] :=
            List.drop_of_length_le (by omega)
          rw [collect_last (by omega), hempty, cut_of_lt hsize, if_pos hall,
            List.take_of_length_le (by omega)]

end Packets
