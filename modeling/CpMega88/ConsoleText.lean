import CpMega88.Boot
import Mathlib.Data.List.TakeWhile

/-!
# What the printers print

Every routine of `con_base.c` sends some text to the console and changes
nothing else (`Console.said`). A number comes out in decimal digits,
padded with zeros (`decimals`), a byte in two hexadecimal ones
(`hexText`).
-/

namespace CpMega88

open Bytes Runs

namespace Con

/-- The console once a text has been sent to it. -/
def Console.said (con : Console) (text : List Byte) : Console :=
  { con with stdout := con.stdout ++ text }

@[simp] theorem said_nil (con : Console) : con.said [] = con := by
  simp [Console.said]

@[simp] theorem said_said (con : Console) (text text' : List Byte) :
    (con.said text).said text' = con.said (text ++ text') := by
  simp [Console.said]

/-! ## Strings -/

theorem putchar_run (c : Byte) (con : Console) : putchar c con = ((), con.said [c]) := rfl

theorem forM_putchar_run (text : List Byte) (con : Console) :
    (text.forM putchar : ConM PUnit) con = ((), con.said text) := by
  induction text generalizing con with
  | nil => simp [pure_run]
  | cons c text ih =>
      rw [List.forM_eq_forM, List.forM_cons, bind_of_run (putchar_run c con)]
      simpa [List.forM_eq_forM] using ih (con.said [c])

/-- A string is printed up to its NUL. -/
theorem puts_run (text : List Byte) (con : Console) :
    puts text con = ((), con.said (text.takeWhile (· ≠ 0))) :=
  forM_putchar_run _ con

theorem putsln_run (text : List Byte) (con : Console) :
    putsln text con = ((), con.said (text.takeWhile (· ≠ 0) ++ ascii "\r\n")) := by
  rw [putsln, bind_of_run (puts_run text con), puts_run, said_said]
  rfl

/-! ## Hexadecimal digits -/

/-- What `put_halfhex` prints. -/
def halfhex (c : Byte) : Byte := if c.toNat < 10 then 0x30#8 + c else 0x41#8 - 10#8 + c

/-- What `con_puthex` prints. -/
def hexText (c : Byte) : List Byte := [halfhex (c >>> 4), halfhex (c &&& 15#8)]

theorem putHalfhex_run (c : Byte) (con : Console) :
    putHalfhex c con = ((), con.said [halfhex c]) := by
  rw [putHalfhex, halfhex, ite_run]
  split <;> rfl

theorem puthex_run (c : Byte) (con : Console) : puthex c con = ((), con.said (hexText c)) := by
  rw [puthex, bind_of_run (putHalfhex_run _ con), putHalfhex_run, said_said]
  rfl

/-! ## Decimal digits -/

/-- So many decimal digits of a number, padded with zeros. -/
def decimals : Nat → Nat → List Byte
  | 0, _ => []
  | k + 1, n => BitVec.ofNat 8 (0x30 + n / 10 ^ k) :: decimals k (n % 10 ^ k)

theorem ofNat_digit (n d : Word) :
    0x30#8 + (n / d).setWidth 8 = BitVec.ofNat 8 (0x30 + n.toNat / d.toNat) := by
  apply BitVec.eq_of_toNat_eq
  simp only [BitVec.toNat_add, BitVec.toNat_setWidth, BitVec.toNat_udiv, BitVec.toNat_ofNat]
  omega

/-- The loop begins at the power of ten that the first digit stands for. -/
theorem putnumLoop_run {k left : Nat} (hk : k < left) {d : Word} (hd : d.toNat = 10 ^ k) (n : Word)
    (con : Console) :
    putnumLoop left n d con = some ((), con.said (decimals (k + 1) n.toNat)) := by
  have hne : d ≠ 0 := by
    rintro rfl
    exact absurd hd (Nat.pow_pos (by decide)).ne
  induction left generalizing k n d con with
  | zero => omega
  | succ left ih =>
      have hput : Prog.lift (putchar (0x30#8 + (n / d).setWidth 8)) con
          = some ((), con.said [BitVec.ofNat 8 (0x30 + n.toNat / 10 ^ k)]) := by
        rw [ofNat_digit, hd]
        rfl
      rw [putnumLoop, Prog.ite_run, if_neg hne, Prog.bind_of_run hput, Prog.ite_run]
      have hten : (d / 10).toNat = 10 ^ k / 10 := by
        rw [BitVec.toNat_udiv, hd]
        rfl
      cases k with
      | zero =>
          have hlast : d / 10 = 0 := BitVec.eq_of_toNat_eq hten
          rw [if_pos hlast]
          rfl
      | succ k =>
          have hnext : (d / 10).toNat = 10 ^ k := by
            rw [hten, Nat.pow_succ, Nat.mul_div_cancel _ (by decide)]
          have hmore : d / 10 ≠ 0 := by
            intro h0
            rw [h0] at hnext
            exact absurd hnext (Nat.pow_pos (by decide)).ne
          rw [if_neg hmore, ih (by omega) hnext _ _ hmore, said_said, BitVec.toNat_umod, hd]
          rfl

/-- Without a number of digits there are five. -/
theorem putnumU16_run {digit : Int} (hdigit : digit < 6) (n : Word) (con : Console) :
    putnumU16 n digit con = some ((), con.said
      (decimals (if 0 < digit then digit.toNat else 5) n.toNat)) := by
  rw [putnumU16]
  split
  case isTrue hpos =>
    obtain ⟨k, hk⟩ : ∃ k, digit.toNat = k + 1 := Nat.exists_eq_succ_of_ne_zero (by omega)
    have hsmall : k = 0 ∨ k = 1 ∨ k = 2 ∨ k = 3 ∨ k = 4 := by omega
    rw [hk]
    refine putnumLoop_run (by omega) ?_ n con
    rcases hsmall with rfl | rfl | rfl | rfl | rfl <;> rfl
  case isFalse => exact putnumLoop_run (by decide) rfl n con

/-- What is printed of a string without a NUL. -/
theorem takeWhile_text {text : List Byte} (h : ∀ c ∈ text, c ≠ 0) :
    text.takeWhile (· ≠ 0) = text :=
  List.takeWhile_eq_self_iff.mpr fun c hc => decide_eq_true (h c hc)

/-! ## Which bytes are printed -/

/-- No `x` and no bracket. -/
def Clean (text : List Byte) : Prop := ∀ c ∈ text, c ≠ 0x78 ∧ c ≠ 0x28

instance (text : List Byte) : Decidable (Clean text) :=
  inferInstanceAs (Decidable (∀ c ∈ text, _))

theorem clean_nil : Clean [] := by
  simp [Clean]

theorem Clean.append {text text' : List Byte} (h : Clean text) (h' : Clean text') :
    Clean (text ++ text') := List.forall_mem_append.mpr ⟨h, h'⟩

theorem Clean.ite {c : Prop} [Decidable c] {text : List Byte} (h : Clean text) :
    Clean (if c then text else []) := by
  split_ifs
  · exact h
  · exact clean_nil

theorem clean_decimals {k n : Nat} (h : n < 10 ^ k) : Clean (decimals k n) := by
  have hdigits : ∀ c ∈ decimals k n, c.toNat < 0x3a ∧ 0x30 ≤ c.toNat := by
    induction k generalizing n with
    | zero => simp [decimals]
    | succ k ih =>
        intro c hc
        rw [decimals, List.mem_cons] at hc
        rcases hc with rfl | hc
        · have hdigit : n / 10 ^ k < 10 := by
            rw [Nat.div_lt_iff_lt_mul (Nat.pow_pos (by decide)), Nat.mul_comm, ← Nat.pow_succ]
            exact h
          rw [BitVec.toNat_ofNat]
          generalize n / 10 ^ k = digit at hdigit
          omega
        · exact ih (Nat.mod_lt _ (Nat.pow_pos (by decide))) c hc
  intro c hc
  obtain ⟨hlt, hle⟩ := hdigits c hc
  constructor
  · rintro rfl
    exact absurd hlt (by decide)
  · rintro rfl
    exact absurd hle (by decide)

end Con

/-! ## The printers on a state with a console -/

namespace HasConsole

variable {σ : Type} [HasConsole σ]

/-- The state once a text has been sent to its console. -/
def said (s : σ) (text : List Byte) : σ := setConsole s ((console s).said text)

theorem onConsole_said {α : Type} {x : Prog Con.Console α} {s : σ} {a : α} {text : List Byte}
    (h : x (console s) = some (a, (console s).said text)) :
    onConsole x s = some (a, said s text) := by
  rw [onConsole, h]
  rfl

theorem lift_said {x : Con.ConM Unit} {s : σ} {text : List Byte}
    (h : x (console s) = ((), (console s).said text)) :
    onConsole (Prog.lift x) s = some ((), said s text) :=
  onConsole_said (congrArg some h)

theorem putchar_said (c : Byte) (s : σ) : putchar c s = some ((), said s [c]) := rfl

theorem puts_said (text : List Byte) (s : σ) :
    puts text s = some ((), said s (text.takeWhile (· ≠ 0))) :=
  lift_said (Con.puts_run text _)

theorem putsln_said (text : List Byte) (s : σ) :
    putsln text s = some ((), said s (text.takeWhile (· ≠ 0) ++ ascii "\r\n")) :=
  lift_said (Con.putsln_run text _)

theorem puthex_said (c : Byte) (s : σ) : puthex c s = some ((), said s (Con.hexText c)) :=
  lift_said (Con.puthex_run c _)

theorem putnumU16_said {digit : Int} (h : digit < 6) (n : Word) (s : σ) :
    putnumU16 n digit s
      = some ((), said s (Con.decimals (if 0 < digit then digit.toNat else 5) n.toNat)) :=
  onConsole_said (Con.putnumU16_run h n _)

end HasConsole

namespace Machine

/-- The machine once a text has been sent to the console. -/
def State.said (s : State) (text : List Byte) : State := { s with console := s.console.said text }

@[simp] theorem said_said (s : State) (text text' : List Byte) :
    (s.said text).said text' = s.said (text ++ text') := by
  simp [State.said]

@[simp] theorem said_nil (s : State) : s.said [] = s := by
  simp [State.said]

theorem putchar_said (c : Byte) (s : State) : putchar c s = some ((), s.said [c]) :=
  HasConsole.putchar_said c s

theorem puts_said {text : List Byte} (h : ∀ c ∈ text, c ≠ 0) (s : State) :
    puts text s = some ((), s.said text) := by
  rw [HasConsole.puts_said, Con.takeWhile_text h]
  rfl

theorem putsln_said {text : List Byte} (h : ∀ c ∈ text, c ≠ 0) (s : State) :
    putsln text s = some ((), s.said (text ++ ascii "\r\n")) := by
  rw [HasConsole.putsln_said, Con.takeWhile_text h]
  rfl

theorem puthex_said (c : Byte) (s : State) : puthex c s = some ((), s.said (Con.hexText c)) :=
  HasConsole.puthex_said c s

theorem putnumU16_said {digit : Int} (h : digit < 6) (n : Word) (s : State) :
    putnumU16 n digit s
      = some ((), s.said (Con.decimals (if 0 < digit then digit.toNat else 5) n.toNat)) :=
  HasConsole.putnumU16_said h n s

end Machine

end CpMega88
