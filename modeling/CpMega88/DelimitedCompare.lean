import CpMega88.Machine
import Mathlib.Data.List.TakeWhile

/-!
# Delimited comparison

`strdcmp` over arrays of characters: a pointer is what is left of its
array, and a read past the end of an array returns nothing. Every turn of
the loop reads through both pointers, so a result means that neither has
left its array.

`strdcmp_delimited` is about arrays that end with the NUL of their
string. What the rest of the development uses, `Machine.strdcmp` on lists
whose end stands for the NUL, is the same function (`strdcmp_nul`), so
that it compares fields as well (`strdcmp_eq_zero_iff`).
-/

namespace CpMega88

open Bytes

namespace CharArray

/-- `strdcmp`: where the characters that end both strings are reached, 0;
where characters differ, -1. -/
def strdcmp : List Byte → List Byte → Byte → Option Int
  | c1 :: s1, c2 :: s2, s =>
    if (c1 = 0 ∨ c1 = s) ∧ (c2 = 0 ∨ c2 = s) then some 0
    else if c1 ≠ c2 then some (-1)
    else strdcmp s1 s2 s
  | _, _, _ => none

/-! ## Fields -/

/-- What a string has before the first delimiter or NUL. -/
def field (d : Byte) (s : List Byte) : List Byte := s.takeWhile fun c => c ≠ 0 ∧ c ≠ d

theorem field_end {d c : Byte} (h : c = 0 ∨ c = d) (s : List Byte) : field d (c :: s) = [] := by
  have hstop : ¬(c ≠ 0 ∧ c ≠ d) := by
    rintro ⟨h0, hd⟩
    exact h.elim h0 hd
  rw [field, List.takeWhile_cons, if_neg (mt of_decide_eq_true hstop)]

theorem field_cons {d c : Byte} (h : ¬(c = 0 ∨ c = d)) (s : List Byte) :
    field d (c :: s) = c :: field d s := by
  rw [field, List.takeWhile_cons, if_pos (decide_eq_true (not_or.mp h)), field]

/-- A NUL ends the field, whatever lies behind it. -/
theorem field_append_nul (d : Byte) (s r : List Byte) : field d (s ++ 0 :: r) = field d s := by
  induction s with
  | nil => exact field_end (.inl rfl) r
  | cons c s ih =>
      rw [List.cons_append]
      by_cases h : c = 0 ∨ c = d
      · rw [field_end h, field_end h]
      · rw [field_cons h, field_cons h, ih]

/-- Arrays with a NUL in them: the result is that of comparing the
fields. -/
theorem strdcmp_fields (d : Byte) {s1 s2 : List Byte} (h1 : 0 ∈ s1) (h2 : 0 ∈ s2) :
    strdcmp s1 s2 d = some (if field d s1 = field d s2 then 0 else -1) := by
  induction s1 generalizing s2 with
  | nil => exact absurd h1 List.not_mem_nil
  | cons c1 s1 ih =>
      rcases s2 with _ | ⟨c2, s2⟩
      · exact absurd h2 List.not_mem_nil
      rw [strdcmp]
      by_cases hend1 : c1 = 0 ∨ c1 = d <;> by_cases hend2 : c2 = 0 ∨ c2 = d
      · rw [if_pos ⟨hend1, hend2⟩, field_end hend1, field_end hend2, if_pos rfl]
      · -- the character that is no end of the second field cannot be the one that ends the first
        have hne : c1 ≠ c2 := by
          rintro rfl
          exact hend2 hend1
        rw [if_neg fun h => hend2 h.2, if_pos hne, field_end hend1, field_cons hend2,
          if_neg (List.cons_ne_nil _ _).symm]
      · have hne : c1 ≠ c2 := by
          rintro rfl
          exact hend1 hend2
        rw [if_neg fun h => hend1 h.1, if_pos hne, field_cons hend1, field_end hend2,
          if_neg (List.cons_ne_nil _ _)]
      · rw [if_neg fun h => hend1 h.1, field_cons hend1, field_cons hend2]
        have hnul1 : 0 ∈ s1 := (List.mem_cons.mp h1).resolve_left fun h => hend1 (.inl h.symm)
        have hnul2 : 0 ∈ s2 := (List.mem_cons.mp h2).resolve_left fun h => hend2 (.inl h.symm)
        by_cases hne : c1 = c2
        · simp only [hne, ne_eq, not_true, if_false, ih hnul1 hnul2, List.cons_inj_right]
        · rw [if_pos hne, if_neg fun h => hne (List.cons.inj h).1]

/-! ## Strings -/

/-- The characters of a string, without the NUL. -/
structure CString where
  bytes : List Byte
  noNul : 0 ∉ bytes

/-- The array that ends with the NUL. -/
def CString.array (s : CString) : List Byte := s.bytes ++ [0]

theorem CString.nul_mem (s : CString) : 0 ∈ s.array :=
  List.mem_append_right _ List.mem_cons_self

theorem CString.array_append (s : CString) (r : List Byte) : s.array ++ r = s.bytes ++ 0 :: r :=
  List.append_assoc ..

theorem CString.field_array (s : CString) (d : Byte) : field d s.array = field d s.bytes :=
  field_append_nul d s.bytes []

/-- `strdcmp` of two strings tells whether they have the same before the
first delimiter or NUL, and reads neither array past its NUL: there may be
nothing behind it, and what there is does not matter. -/
theorem strdcmp_delimited (s1 s2 : CString) (d : Byte) :
    strdcmp s1.array s2.array d
        = some (if field d s1.bytes = field d s2.bytes then 0 else -1)
      ∧ ∀ r1 r2, strdcmp (s1.array ++ r1) (s2.array ++ r2) d = strdcmp s1.array s2.array d := by
  have hexact := strdcmp_fields d s1.nul_mem s2.nul_mem
  refine ⟨?_, fun r1 r2 => ?_⟩
  · rw [hexact, s1.field_array, s2.field_array]
  · have hnul1 : 0 ∈ s1.array ++ r1 := List.mem_append_left _ s1.nul_mem
    have hnul2 : 0 ∈ s2.array ++ r2 := List.mem_append_left _ s2.nul_mem
    rw [hexact, strdcmp_fields d hnul1 hnul2, s1.array_append, s2.array_append, field_append_nul,
      field_append_nul, s1.field_array, s2.field_array]

end CharArray

namespace Machine

open CharArray (field)

/-! ## Lists whose end stands for the NUL -/

/-- The comparison of the monitor is that of the arrays. -/
theorem strdcmp_nul (d : Byte) (s1 s2 r1 r2 : List Byte) :
    CharArray.strdcmp (s1 ++ 0 :: r1) (s2 ++ 0 :: r2) d = some (strdcmp s1 s2 d) := by
  induction s1 generalizing s2 with
  | nil =>
      rcases s2 with _ | ⟨c2, s2⟩
      · simp [CharArray.strdcmp, strdcmp]
      · rw [List.nil_append, List.cons_append, CharArray.strdcmp, strdcmp, List.headD_cons]
        by_cases hend : c2 = 0 ∨ c2 = d
        · rw [if_pos ⟨.inl rfl, hend⟩, if_pos hend]
        · rw [if_neg fun h => hend h.2, if_pos fun h => hend (.inl h.symm), if_neg hend]
  | cons c1 s1 ih =>
      rcases s2 with _ | ⟨c2, s2⟩
      · rw [List.nil_append, List.cons_append, CharArray.strdcmp, strdcmp, List.headD_nil]
        by_cases hend : c1 = 0 ∨ c1 = d
        · rw [if_pos ⟨hend, .inl rfl⟩, if_pos ⟨hend, .inl rfl⟩]
        · have hne : c1 ≠ 0 := fun h => hend (.inl h)
          have hno (p : Prop) : ¬((c1 = 0 ∨ c1 = d) ∧ p) := fun h => hend h.1
          rw [if_neg (hno _), if_neg (hno _), if_pos hne, if_pos hne]
      · rw [List.cons_append, List.cons_append, CharArray.strdcmp, strdcmp, List.headD_cons,
          List.tail_cons, ih]
        split_ifs <;> rfl

/-- It is 0 where the fields are the same. -/
theorem strdcmp_eq_zero_iff (d : Byte) (s1 s2 : List Byte) :
    strdcmp s1 s2 d = 0 ↔ field d s1 = field d s2 := by
  have hnul (s : List Byte) : 0 ∈ s ++ [0] := List.mem_append_right s List.mem_cons_self
  have hfields := CharArray.strdcmp_fields d (hnul s1) (hnul s2)
  rw [strdcmp_nul, CharArray.field_append_nul, CharArray.field_append_nul, Option.some_inj]
    at hfields
  rw [hfields]
  split_ifs with h
  · exact iff_of_true rfl h
  · exact iff_of_false (by decide) h

/-- How `prompt` finds a command: its name is the first word of the line. -/
theorem names_command {d : Byte} {name : List Byte} (hname : ∀ c ∈ name, c ≠ 0 ∧ c ≠ d)
    (line : List Byte) : strdcmp name line d = 0 ↔ field d line = name := by
  have hself : field d name = name := by
    rw [field, List.takeWhile_eq_self_iff]
    intro c hc
    exact decide_eq_true (hname c hc)
  rw [strdcmp_eq_zero_iff, hself, eq_comm]

end Machine

end CpMega88
