import CpMega88.ConsoleText
import CpMega88.Lib.CellWrites

/-!
# Which address faults the memory test finds

`mem_chk` is given a memory in which several addresses may select one
cell. The test writes a pattern at every address and looks for it
afterwards, so it finds out exactly when two addresses of a cell have
different patterns: first the low byte at even addresses and the high one
at odd ones (`halfOf`), then both, xored (`blend`).

No pattern tells two addresses apart that have their bytes swapped and are
one even and one odd (`Mirrored`). These the test does not find:
`mem_chk_reports_iff`.
-/

namespace CpMega88

open Bytes CellWrites
open HasConsole (puts putsln puthex putnumU16)

namespace MemTest

/-! ## A memory with shared cells -/

structure Ram (κ : Type) where
  cells : κ → Byte
  console : Con.Console

instance (κ : Type) : HasConsole (Ram κ) where
  console r := r.console
  setConsole r con := { r with console := con }

section Ram

variable {κ : Type}

/-- The memory once a text has been sent to the console. -/
def Ram.said (r : Ram κ) (text : List Byte) : Ram κ := { r with console := r.console.said text }

@[simp] theorem said_said (r : Ram κ) (text text' : List Byte) :
    (r.said text).said text' = r.said (text ++ text') := by
  simp [Ram.said]

@[simp] theorem said_nil (r : Ram κ) : r.said [] = r := by
  simp [Ram.said]

@[simp] theorem said_cells (r : Ram κ) (text : List Byte) : (r.said text).cells = r.cells := rfl

theorem puts_said {text : List Byte} (h : ∀ c ∈ text, c ≠ 0) (r : Ram κ) :
    puts text r = some ((), r.said text) := by
  rw [HasConsole.puts_said, Con.takeWhile_text h]
  rfl

theorem putsln_said {text : List Byte} (h : ∀ c ∈ text, c ≠ 0) (r : Ram κ) :
    putsln text r = some ((), r.said (text ++ ascii "\r\n")) := by
  rw [HasConsole.putsln_said, Con.takeWhile_text h]
  rfl

theorem puthex_said (c : Byte) (r : Ram κ) :
    puthex c r = some ((), r.said (Con.hexText c)) :=
  HasConsole.puthex_said c r

theorem putnumU16_said {digit : Int} (h : digit < 6) (n : Word) (r : Ram κ) :
    putnumU16 n digit r
      = some ((), r.said (Con.decimals (if 0 < digit then digit.toNat else 5) n.toNat)) :=
  HasConsole.putnumU16_said h n r

end Ram

section Shared

variable {κ : Type} [DecidableEq κ] (cell : Word → κ)

/-- Each address selects a cell, and the cell keeps what is written. -/
def ramBus : Bus (Ram κ) where
  sramRead addr := return (← get).cells (cell addr)
  sramWrite addr data := modify fun r =>
    { r with cells := Function.update r.cells (cell addr) data }

/-- The memory once these writes have been made. -/
def Ram.wrote (r : Ram κ) (ws : List (κ × Byte)) : Ram κ := { r with cells := apply ws r.cells }

@[simp] theorem wrote_cells (r : Ram κ) (ws : List (κ × Byte)) :
    (r.wrote ws).cells = apply ws r.cells := rfl

@[simp] theorem wrote_console (r : Ram κ) (ws : List (κ × Byte)) :
    (r.wrote ws).console = r.console := rfl

theorem wrote_said (r : Ram κ) (ws : List (κ × Byte)) (text : List Byte) :
    (r.wrote ws).said text = (r.said text).wrote ws := rfl

theorem wrote_wrote (r : Ram κ) (ws ws' : List (κ × Byte)) :
    (r.wrote ws).wrote ws' = r.wrote (ws ++ ws') := by
  simp [Ram.wrote, apply_append]

theorem wrote_self (r : Ram κ) (a : κ) (v : Byte) : (r.wrote [(a, v)]).cells a = v :=
  Function.update_self ..

theorem read_run (addr : Word) (r : Ram κ) :
    (ramBus cell).sramRead addr r = some (r.cells (cell addr), r) := rfl

theorem write_run (addr : Word) (data : Byte) (r : Ram κ) :
    (ramBus cell).sramWrite addr data r = some ((), r.wrote [(cell addr, data)]) := rfl

end Shared

theorem onlyIf_said {κ : Type} {c : Prop} [Decidable c] {x : Prog (Ram κ) Unit} {r : Ram κ}
    {text : List Byte} (h : x r = some ((), r.said text)) :
    Prog.onlyIf c x r = some ((), r.said (if c then text else [])) := by
  rw [Prog.onlyIf, Prog.ite_run, h, Prog.pure_run]
  split_ifs
  · rfl
  · rw [said_nil]

/-! ## What is printed -/

/-- A failing address, or a number of errors that is not zero. -/
def Reports (text : List Byte) : Prop :=
  ascii "failed at 0x" <:+: text ∨ ascii " w/ error(s) " <:+: text

theorem Reports.append_right {text : List Byte} (h : Reports text) (text' : List Byte) :
    Reports (text ++ text') :=
  h.imp (·.trans (List.prefix_append _ _).isInfix) (·.trans (List.prefix_append _ _).isInfix)

theorem Reports.append_left {text : List Byte} (h : Reports text) (text' : List Byte) :
    Reports (text' ++ text) :=
  h.imp (·.trans (List.suffix_append _ _).isInfix) (·.trans (List.suffix_append _ _).isInfix)

theorem not_reports {text : List Byte} (h : Con.Clean text) : ¬Reports text := by
  rintro (hfailed | herror)
  · exact (h 0x78 (hfailed.subset (by decide))).1 rfl
  · exact (h 0x28 (herror.subset (by decide))).2 rfl

/-! ## The first two passes -/

/-- What is written at an address: half of it. -/
def halfOf (addr : Word) : Byte := if addr &&& 1 = 0 then loByte addr else hiByte addr

theorem addrErr_zero_iff (addr : Word) (c : Byte) :
    addrErr addr c = 0 ↔ c = halfOf addr := by
  rw [addrErr, halfOf]
  by_cases heven : addr &&& 1 = 0
  · simp only [heven, ne_eq, true_and, not_true_eq_false, false_and, or_false, if_true]
    split_ifs with hc
    · exact iff_of_true rfl hc.symm
    · exact iff_of_false (by decide) (Ne.symm hc)
  · simp only [heven, ne_eq, not_false_eq_true, true_and, false_and, false_or, if_false]
    split_ifs with hc
    · exact iff_of_true rfl hc.symm
    · exact iff_of_false (by decide) (Ne.symm hc)

/-- So many addresses from a number on. -/
def addresses (k n : Nat) : List Word := (List.range' k n).map (BitVec.ofNat 16)

theorem addresses_succ (k n : Nat) :
    addresses k (n + 1) = BitVec.ofNat 16 k :: addresses (k + 1) n := by
  simp [addresses, List.range'_succ]

theorem ofNat_succ (k : Nat) : BitVec.ofNat 16 k + 1 = BitVec.ofNat 16 (k + 1) :=
  (BitVec.ofNat_add k 1).symm

theorem mem_addresses (addr : Word) : addr ∈ addresses 0 65536 := by
  refine List.mem_map.mpr ⟨addr.toNat, ?_, by rw [BitVec.ofNat_toNat, BitVec.setWidth_eq]⟩
  exact List.mem_range'_1.mpr ⟨Nat.zero_le _, (Nat.zero_add 65536).symm ▸ addr.isLt⟩

section Passes

variable {κ : Type} [DecidableEq κ] (cell : Word → κ)

theorem memProbe_write (addr : Word) (r : Ram κ) : memProbe (ramBus cell) 0 addr r
    = some ((0, halfOf addr), r.wrote [(cell addr, halfOf addr)]) := by
  have hrun : memProbe (ramBus cell) 0 addr r
      = some ((addrErr addr (halfOf addr), halfOf addr),
        r.wrote [(cell addr, 0xaa), (cell addr, 0x55), (cell addr, halfOf addr)]) := by
    rw [memProbe, Prog.ite_run, if_pos rfl, Prog.bind_of_run (write_run ..),
      Prog.bind_of_run (read_run ..), Prog.bind_of_run (write_run ..),
      Prog.bind_of_run (read_run ..), Prog.bind_of_run (write_run ..),
      Prog.bind_of_run (read_run ..), Prog.pure_run]
    simp only [wrote_self]
    simp [wrote_wrote, halfOf]
  rw [hrun, (addrErr_zero_iff addr _).mpr rfl]
  simp [Ram.wrote, apply, Function.update_idem]

theorem memProbe_address (addr : Word) (r : Ram κ) : memProbe (ramBus cell) 1 addr r
    = some ((addrErr addr (r.cells (cell addr)), r.cells (cell addr)), r) := rfl

/-- What a pass prints at an address where it finds no error. -/
def progress (test : Nat) (addr : Word) : List Byte :=
  (if addr &&& 0xfff = 0xfff then
    ascii (if test = 0 then "memory write test: " else "memory address test: ")
      ++ (Con.decimals 5 addr.toNat ++ ascii "/65535\r")
  else []) ++ if addr = 0xffff then ascii "\n" else []

theorem clean_progress (test : Nat) (addr : Word) : Con.Clean (progress test addr) := by
  have hnum : Con.Clean (Con.decimals 5 addr.toNat) :=
    Con.clean_decimals (addr.isLt.trans_le (by decide))
  have htitle : Con.Clean (ascii (if test = 0 then "memory write test: "
      else "memory address test: ")) := by
    split_ifs <;> simp [Con.Clean, ascii]
  have htotal : Con.Clean (ascii "/65535\r") := by simp [Con.Clean, ascii]
  have hfeed : Con.Clean (ascii "\n") := by simp [Con.Clean, ascii]
  exact (htitle.append (hnum.append htotal)).ite.append hfeed.ite

theorem memPass_go {test : Nat} {addr : Word} {r t : Ram κ} {c : Byte}
    (h : memProbe (ramBus cell) test addr r = some ((0, c), t)) (left : Nat) :
    memPass (ramBus cell) test (left + 1) addr r
      = memPass (ramBus cell) test left (addr + 1) (t.said (progress test addr)) := by
  have htitle : ∀ c ∈ ascii (if test = 0 then "memory write test: " else "memory address test: "),
      c ≠ 0 := by
    split_ifs <;> simp [ascii]
  have hline : (do
      puts (ascii (if test = 0 then "memory write test: "
        else "memory address test: "))
      putnumU16 addr 5
      puts (ascii "/65535\r") : Prog (Ram κ) Unit) t
      = some ((), t.said (ascii (if test = 0 then "memory write test: "
        else "memory address test: ") ++ (Con.decimals 5 addr.toNat ++ ascii "/65535\r"))) := by
    rw [Prog.bind_of_run (puts_said htitle t),
      Prog.bind_of_run (putnumU16_said (by decide) addr _), puts_said (by simp [ascii]),
      said_said, said_said]
    rfl
  rw [memPass, Prog.bind_of_run h]
  dsimp only
  rw [Prog.ite_run, if_neg (not_not_intro rfl), Prog.bind_of_run (onlyIf_said hline),
    Prog.bind_of_run (onlyIf_said (puts_said (by simp [ascii]) _)), said_said]
  rfl

/-- What a pass prints where it finds an error. -/
def faultText (test : Nat) (addr : Word) (c : Byte) : List Byte :=
  ascii (if test = 0 then "write failed at 0x" else "address failed at 0x")
    ++ (Con.hexText (hiByte addr) ++ (Con.hexText (loByte addr) ++ (ascii " ("
      ++ (Con.hexText c ++ (ascii ")" ++ ascii "\r\n")))))

theorem faultText_reports (test : Nat) (addr : Word) (c : Byte) :
    Reports (faultText test addr c) := by
  have htitle : ascii "failed at 0x"
      <:+: ascii (if test = 0 then "write failed at 0x" else "address failed at 0x") := by
    split_ifs <;> decide
  exact .inl (htitle.trans (List.prefix_append _ _).isInfix)

theorem memPass_stop {test : Nat} {addr : Word} {r t : Ram κ} {err c : Byte}
    (h : memProbe (ramBus cell) test addr r = some ((err, c), t)) (herr : err ≠ 0) (left : Nat) :
    memPass (ramBus cell) test (left + 1) addr r
      = some (false, t.said (faultText test addr (if test = 0 then err else c))) := by
  have htitle : ∀ c ∈ ascii (if test = 0 then "write failed at 0x" else "address failed at 0x"),
      c ≠ 0 := by
    split_ifs <;> simp [ascii]
  rw [memPass, Prog.bind_of_run h]
  dsimp only
  rw [Prog.ite_run, if_pos herr, Prog.bind_of_run (puts_said htitle t),
    Prog.bind_of_run (puthex_said _ _), Prog.bind_of_run (puthex_said _ _),
    Prog.bind_of_run (puts_said (by simp [ascii]) _), Prog.bind_of_run (puthex_said _ _),
    Prog.bind_of_run (putsln_said (by simp [ascii]) _), Prog.pure_run]
  simp only [said_said, List.append_assoc, faultText]

/-- The first pass finds nothing, and leaves half of its address at each. -/
theorem memPass_write (left k : Nat) (r : Ram κ) : ∃ text, Con.Clean text
    ∧ memPass (ramBus cell) 0 left (BitVec.ofNat 16 k) r
      = some (true, (r.said text).wrote (marks cell halfOf (addresses k left))) := by
  induction left generalizing k r with
  | zero => exact ⟨[], Con.clean_nil, by rw [said_nil]; rfl⟩
  | succ left ih =>
      obtain ⟨text, hclean, hrest⟩ := ih (k + 1)
        ((r.wrote [(cell (BitVec.ofNat 16 k), halfOf (BitVec.ofNat 16 k))]).said
          (progress 0 (BitVec.ofNat 16 k)))
      refine ⟨progress 0 (BitVec.ofNat 16 k) ++ text, (clean_progress _ _).append hclean, ?_⟩
      rw [memPass_go cell (memProbe_write cell _ r), ofNat_succ, hrest, addresses_succ,
        said_said, wrote_said, wrote_wrote]
      rfl

theorem memPass_address {left k : Nat} {r : Ram κ} : ∃ text,
    ((∀ addr ∈ addresses k left, r.cells (cell addr) = halfOf addr)
      ∧ memPass (ramBus cell) 1 left (BitVec.ofNat 16 k) r = some (true, r.said text)
      ∧ Con.Clean text)
    ∨ ((¬∀ addr ∈ addresses k left, r.cells (cell addr) = halfOf addr)
      ∧ memPass (ramBus cell) 1 left (BitVec.ofNat 16 k) r = some (false, r.said text)
      ∧ Reports text) := by
  induction left generalizing k r with
  | zero => exact ⟨[], .inl ⟨by simp [addresses], by rw [said_nil]; rfl, Con.clean_nil⟩⟩
  | succ left ih =>
      rw [addresses_succ, List.forall_mem_cons]
      have hprobe := memProbe_address cell (BitVec.ofNat 16 k) r
      by_cases hkept : r.cells (cell (BitVec.ofNat 16 k)) = halfOf (BitVec.ofNat 16 k)
      · rw [(addrErr_zero_iff _ _).mpr hkept] at hprobe
        rw [memPass_go cell hprobe, ofNat_succ]
        obtain ⟨text, hrest⟩ := ih (k := k + 1) (r := r.said (progress 1 (BitVec.ofNat 16 k)))
        rw [said_said, said_cells] at hrest
        refine ⟨progress 1 (BitVec.ofNat 16 k) ++ text, ?_⟩
        rcases hrest with ⟨hall, hrun, hclean⟩ | ⟨hsome, hrun, hreports⟩
        · exact .inl ⟨⟨hkept, hall⟩, hrun, (clean_progress _ _).append hclean⟩
        · exact .inr ⟨fun h => hsome h.2, hrun, hreports.append_left _⟩
      · have herr := mt (addrErr_zero_iff _ _).mp hkept
        rw [memPass_stop cell hprobe herr]
        exact ⟨_, .inr ⟨fun h => hkept h.1, rfl, faultText_reports ..⟩⟩

/-! ## The passes under a seed -/

/-- What is written at an address: its bytes, xored. -/
def blend (addr : Word) : Byte := hiByte addr ^^^ loByte addr

def seeded (seed : Nat) (addr : Word) : Byte := blend addr + BitVec.ofNat 8 (seed / 2)

theorem seeded_inj {seed : Nat} {a b : Word} : seeded seed a = seeded seed b ↔ blend a = blend b :=
  BitVec.add_left_inj _

theorem memFullPass_succ {seed : Nat} {addr : Word} {r t : Ram κ}
    (h : Prog.onlyIf (seed % 2 = 0) ((ramBus cell).sramWrite addr (seeded seed addr)) r
      = some ((), t)) (left : Nat) (err : Int) : memFullPass (ramBus cell) seed (left + 1) addr err r
      = memFullPass (ramBus cell) seed left (addr + 1)
        (if seeded seed addr ≠ t.cells (cell addr) then err + 1 else err) t :=
  Prog.bind_of_run h _

theorem memFullPass_write {seed : Nat} (hseed : seed % 2 = 0) (left k : Nat) (err : Int)
    (r : Ram κ) : memFullPass (ramBus cell) seed left (BitVec.ofNat 16 k) err r
      = some (err, r.wrote (marks cell (seeded seed) (addresses k left))) := by
  induction left generalizing k r with
  | zero => rfl
  | succ left ih =>
      have hwrite := Prog.onlyIf_run hseed (write_run cell (BitVec.ofNat 16 k)
        (seeded seed (BitVec.ofNat 16 k)) r)
      rw [memFullPass_succ cell hwrite, wrote_self, if_neg (not_not_intro rfl), ofNat_succ, ih,
        wrote_wrote, addresses_succ]
      rfl

/-- The addresses at which something else is found. -/
def faults (seed : Nat) (cells : κ → Byte) (l : List Word) : Nat :=
  l.countP fun addr => seeded seed addr ≠ cells (cell addr)

theorem memFullPass_compare {seed : Nat} (hseed : seed % 2 ≠ 0) (left k : Nat) (err : Int)
    (r : Ram κ) : memFullPass (ramBus cell) seed left (BitVec.ofNat 16 k) err r
      = some (err + faults cell seed r.cells (addresses k left), r) := by
  induction left generalizing k err with
  | zero => simp [memFullPass, faults, addresses, Prog.pure_run]
  | succ left ih =>
      rw [memFullPass_succ cell (Prog.onlyIf_skip hseed _ r), ofNat_succ, ih, faults, faults,
        addresses_succ, List.countP_cons]
      split_ifs with hc <;> simp_all
      omega

/-- What is printed after a pass. -/
def tally (seed : Nat) (err : Int) : List Byte :=
  ascii "memory full test: " ++ (Con.decimals 3 (BitVec.ofNat 16 (seed / 2)).toNat
    ++ (ascii "/256" ++ ((if err ≠ 0 then
      ascii " w/ error(s) " ++ Con.decimals 5 (BitVec.ofInt 16 err).toNat else [])
      ++ ascii "\r")))

theorem memFull_succ {seed : Nat} {err err' : Int} {r t : Ram κ}
    (h : memFullPass (ramBus cell) seed 65536 0 err r = some (err', t)) (left : Nat) :
    memFull (ramBus cell) (left + 1) seed err r
      = memFull (ramBus cell) left (seed + 1) err' (t.said (tally seed err')) := by
  have herror (u : Ram κ) : (do
      puts (ascii " w/ error(s) ")
      putnumU16 (BitVec.ofInt 16 err') 5 : Prog (Ram κ) Unit) u
      = some ((), u.said
        (ascii " w/ error(s) " ++ Con.decimals 5 (BitVec.ofInt 16 err').toNat)) := by
    rw [Prog.bind_of_run (puts_said (by simp [ascii]) u), putnumU16_said (by decide),
      said_said]
    rfl
  rw [memFull, Prog.bind_of_run h, Prog.bind_of_run (puts_said (by simp [ascii]) t),
    Prog.bind_of_run (putnumU16_said (by decide) _ _),
    Prog.bind_of_run (puts_said (by simp [ascii]) _),
    Prog.bind_of_run (onlyIf_said (herror _)),
    Prog.bind_of_run (puts_said (by simp [ascii]) _)]
  simp only [said_said, List.append_assoc]
  rfl

/-- Two addresses of a cell have different patterns. -/
def Clash (pat : Word → Byte) : Prop := ∃ a b, cell a = cell b ∧ pat a ≠ pat b

theorem marks_kept {l : List Word} (hall : ∀ addr, addr ∈ l) (pat : Word → Byte)
    (cells : κ → Byte) :
    (∀ addr ∈ l, apply (marks cell pat l) cells (cell addr) = pat addr) ↔ ¬Clash cell pat := by
  rw [marks_kept_iff]
  constructor
  · rintro h ⟨a, b, hcell, hpat⟩
    exact hpat (h a (hall a) b (hall b) hcell)
  · intro h a _ b _ hcell
    by_contra hpat
    exact h ⟨a, b, hcell, hpat⟩

theorem seeded_odd (j : Nat) : seeded (2 * j + 1) = seeded (2 * j) := by
  have hhalf : (2 * j + 1) / 2 = 2 * j / 2 := by omega
  funext addr
  rw [seeded, seeded, hhalf]

omit [DecidableEq κ] in
theorem clash_seeded (seed : Nat) : Clash cell (seeded seed) ↔ Clash cell blend := by
  simp only [Clash, ne_eq, seeded_inj]

/-- The odd seed finds what the even one has left to find. -/
theorem faults_zero_iff {l : List Word} (hall : ∀ addr, addr ∈ l) (j : Nat) (cells : κ → Byte) :
    faults cell (2 * j + 1) (apply (marks cell (seeded (2 * j)) l) cells) l = 0
      ↔ ¬Clash cell blend := by
  rw [← clash_seeded cell (2 * j), ← marks_kept cell hall (seeded (2 * j)) cells, faults,
    seeded_odd, List.countP_eq_zero]
  refine forall₂_congr fun addr _ => ?_
  rw [decide_eq_true_iff, ne_eq, not_not]
  exact eq_comm

/-- A seed, even and odd, with the errors there are so far. -/
theorem memFull_turn (j left : Nat) {err : Int} (herr : 0 ≤ err) (r : Ram κ) :
    ∃ (err' : Int) (u : Ram κ), 0 ≤ err' ∧ (Clash cell blend → err' ≠ 0)
      ∧ (¬Clash cell blend → err' = err) ∧ u.console = r.console
      ∧ memFull (ramBus cell) (left + 2) (2 * j) err r
        = memFull (ramBus cell) left (2 * (j + 1)) err'
          (u.said (tally (2 * j) err ++ tally (2 * j + 1) err')) := by
  have heven : 2 * j % 2 = 0 := by omega
  have hodd : (2 * j + 1) % 2 ≠ 0 := by omega
  have hwrite := memFullPass_write cell heven 65536 0 err r
  have hcompare := memFullPass_compare cell hodd 65536 0 err
    ((r.wrote (marks cell (seeded (2 * j)) (addresses 0 65536))).said (tally (2 * j) err))
  have hall := mem_addresses
  generalize addresses 0 65536 = l at hwrite hcompare hall
  have hzero := faults_zero_iff cell hall j r.cells
  rw [said_cells, wrote_cells] at hcompare
  generalize faults cell (2 * j + 1) (apply (marks cell (seeded (2 * j)) l) r.cells) l = n
    at hzero hcompare
  refine ⟨err + n, r.wrote (marks cell (seeded (2 * j)) l), by omega, fun hclash => ?_,
    fun hclash => ?_, wrote_console r _, ?_⟩
  · have hpos := mt hzero.mp (not_not_intro hclash)
    omega
  · rw [hzero.mpr hclash]
    simp
  · have hnext : 2 * (j + 1) = 2 * j + 1 + 1 := rfl
    rw [memFull_succ cell hwrite, memFull_succ cell hcompare, said_said, hnext]

theorem clean_tally {seed : Nat} (h : seed < 512) : Con.Clean (tally seed 0) := by
  have hnum : Con.Clean (Con.decimals 3 (BitVec.ofNat 16 (seed / 2)).toNat) := by
    refine Con.clean_decimals ?_
    rw [BitVec.toNat_ofNat]
    omega
  have hhead : Con.Clean (ascii "memory full test: ") := by simp [Con.Clean, ascii]
  have htail : Con.Clean (ascii "/256" ++ ascii "\r") := by simp [Con.Clean, ascii]
  exact hhead.append (hnum.append htail)

theorem tally_reports {seed : Nat} {err : Int} (h : err ≠ 0) : Reports (tally seed err) := by
  have herror : Reports (ascii " w/ error(s) " ++ Con.decimals 5 (BitVec.ofInt 16 err).toNat) :=
    .inr (List.prefix_append _ _).isInfix
  rw [tally, if_pos h]
  exact (((herror.append_right _).append_left _).append_left _).append_left _

/-- From an even seed on. -/
theorem memFull_run (m j : Nat) {err : Int} (herr : 0 ≤ err) (r : Ram κ) :
    ∃ (text : List Byte) (t : Ram κ), memFull (ramBus cell) (2 * m) (2 * j) err r = some ((), t)
      ∧ t.console = r.console.said text
      ∧ (Clash cell blend → 0 < m → Reports text)
      ∧ (¬Clash cell blend → err = 0 → j + m ≤ 256 → Con.Clean text) := by
  induction m generalizing j err r with
  | zero =>
      refine ⟨ascii "\r\n", _, putsln_said (by simp) r, rfl, ?_, fun _ _ _ => by decide⟩
      exact fun _ h => absurd h (lt_irrefl 0)
  | succ m ih =>
      obtain ⟨err', u, herr', hclash, hnone, hu, hturn⟩ := memFull_turn cell j (2 * m) herr r
      obtain ⟨text, t, hrun, ht, hreports, hclean⟩ := ih (j + 1) herr'
        (u.said (tally (2 * j) err ++ tally (2 * j + 1) err'))
      refine ⟨tally (2 * j) err ++ tally (2 * j + 1) err' ++ text, t, hturn.trans hrun, ?_, ?_, ?_⟩
      · rw [ht, ← hu]
        exact Con.said_said u.console _ text
      · exact fun hc _ => ((tally_reports (hclash hc)).append_left _).append_right _
      · rintro hc rfl hle
        have hnone := hnone hc
        subst hnone
        exact ((clean_tally (by omega)).append (clean_tally (by omega))).append
          (hclean hc rfl (by omega))

/-- The whole test. -/
theorem memChk_run (r : Ram κ) : ∃ (text : List Byte) (t : Ram κ),
    memChk (ramBus cell) r = some ((), t) ∧ t.console = r.console.said text
      ∧ (Reports text ↔ Clash cell halfOf ∨ Clash cell blend) := by
  obtain ⟨text, hclean, hwrite⟩ := memPass_write cell 65536 0 r
  obtain ⟨text', haddress⟩ := @memPass_address κ _ cell 65536 0
    ((r.said text).wrote (marks cell halfOf (addresses 0 65536)))
  have hall := mem_addresses
  generalize addresses 0 65536 = l at hwrite haddress hall
  rw [wrote_cells, marks_kept cell hall, wrote_said, said_said] at haddress
  have hfirst : memChk (ramBus cell) r = (do
      if ← memPass (ramBus cell) 1 65536 0 then memFull (ramBus cell) 0x200 0 0
      else pure () : Prog (Ram κ) Unit) ((r.said text).wrote (marks cell halfOf l)) :=
    Prog.bind_of_run hwrite _
  rw [hfirst]
  rcases haddress with ⟨hkept, hrun, hclean'⟩ | ⟨hclash, hrun, hreports⟩
  · obtain ⟨text'', t, hfull, ht, hreports, hclean''⟩ := memFull_run cell 256 0 le_rfl
      ((r.said (text ++ text')).wrote (marks cell halfOf l))
    refine ⟨text ++ text' ++ text'', t, (Prog.bind_of_run hrun _).trans hfull, ?_, ?_⟩
    · rw [ht]
      exact Con.said_said ..
    · by_cases hblend : Clash cell blend
      · exact iff_of_true ((hreports hblend (by decide)).append_left _) (.inr hblend)
      · have hquiet := (hclean.append hclean').append (hclean'' hblend rfl le_rfl)
        exact iff_of_false (not_reports hquiet) (not_or.mpr ⟨hkept, hblend⟩)
  · refine ⟨text ++ text', _, (Prog.bind_of_run hrun _).trans rfl, rfl, ?_⟩
    exact iff_of_true (hreports.append_left _) (.inl (not_not.mp hclash))

end Passes

/-! ## Which addresses have the same patterns -/

/-- The bytes are swapped, and one of the addresses is even, one odd. -/
def Mirrored (a b : Word) : Prop := b = word (loByte a) (hiByte a) ∧ a &&& 1 ≠ b &&& 1

instance (a b : Word) : Decidable (Mirrored a b) := inferInstanceAs (Decidable (_ ∧ _))

theorem and_one_cases (a : Word) : a &&& 1 = 0 ∨ a &&& 1 = 1 := by
  have hbit : a &&& 1 = (BitVec.ofBool (a.getLsbD 0)).setWidth 16 :=
    BitVec.and_one_eq_setWidth_ofBool_getLsbD
  rw [hbit]
  cases a.getLsbD 0
  · exact .inl rfl
  · exact .inr rfl

theorem halfOf_even {a : Word} (h : a &&& 1 = 0) : halfOf a = loByte a := if_pos h

theorem halfOf_odd {a : Word} (h : a &&& 1 = 1) : halfOf a = hiByte a :=
  if_neg (h.trans_ne (by decide))

theorem eq_of_bytes {a b : Word} (hhi : hiByte a = hiByte b) (hlo : loByte a = loByte b) :
    a = b := by
  rw [← word_hiByte_loByte a, hhi, hlo, word_hiByte_loByte]

/-- With the same parity, the patterns give both bytes. -/
theorem eq_of_patterns {a b : Word} (hparity : a &&& 1 = b &&& 1) (hhalf : halfOf a = halfOf b)
    (hblend : blend a = blend b) : a = b := by
  rw [blend, blend] at hblend
  rcases and_one_cases b with hb | hb
  · rw [halfOf_even (hparity.trans hb), halfOf_even hb] at hhalf
    rw [hhalf, BitVec.xor_left_inj] at hblend
    exact eq_of_bytes hblend hhalf
  · rw [halfOf_odd (hparity.trans hb), halfOf_odd hb] at hhalf
    rw [hhalf, BitVec.xor_right_inj] at hblend
    exact eq_of_bytes hhalf hblend

/-- With different ones they give the bytes the other way round. -/
theorem mirrored_iff {a b : Word} (ha : a &&& 1 = 0) (hb : b &&& 1 = 1) :
    halfOf a = halfOf b ∧ blend a = blend b ↔ b = word (loByte a) (hiByte a) := by
  rw [halfOf_even ha, halfOf_odd hb, blend, blend]
  constructor
  · rintro ⟨hhalf, hblend⟩
    rw [hhalf, BitVec.xor_comm, BitVec.xor_right_inj] at hblend
    rw [hhalf, hblend, word_hiByte_loByte]
  · rintro rfl
    rw [hiByte_word, loByte_word]
    exact ⟨rfl, BitVec.xor_comm _ _⟩

theorem word_swap {a b : Word} :
    b = word (loByte a) (hiByte a) ↔ a = word (loByte b) (hiByte b) := by
  constructor
  · rintro rfl
    rw [loByte_word, hiByte_word, word_hiByte_loByte]
  · rintro rfl
    rw [loByte_word, hiByte_word, word_hiByte_loByte]

theorem same_patterns_iff {a b : Word} :
    halfOf a = halfOf b ∧ blend a = blend b ↔ a = b ∨ Mirrored a b := by
  by_cases hparity : a &&& 1 = b &&& 1
  · have hno : ¬Mirrored a b := fun h => h.2 hparity
    rw [or_iff_left hno]
    constructor
    · exact fun h => eq_of_patterns hparity h.1 h.2
    · rintro rfl
      exact ⟨rfl, rfl⟩
  · have hne : a ≠ b := fun h => hparity (congrArg (· &&& 1) h)
    rw [or_iff_right hne, Mirrored, and_iff_left hparity]
    rcases and_one_cases a with ha | ha <;> rcases and_one_cases b with hb | hb
    · exact absurd (ha.trans hb.symm) hparity
    · exact mirrored_iff ha hb
    · rw [eq_comm, eq_comm (a := blend a), word_swap]
      exact mirrored_iff hb ha
    · exact absurd (ha.trans hb.symm) hparity

/-- Every pair of addresses that share a cell is told apart by a pattern,
but for those that are mirrored. -/
theorem clash_iff {κ : Type} (cell : Word → κ) : Clash cell halfOf ∨ Clash cell blend
    ↔ ∃ a b, a ≠ b ∧ cell a = cell b ∧ ¬Mirrored a b := by
  constructor
  · rintro (⟨a, b, hcell, hpat⟩ | ⟨a, b, hcell, hpat⟩)
    · have hdiff := mt same_patterns_iff.mpr fun h => hpat h.1
      exact ⟨a, b, fun h => hdiff (.inl h), hcell, fun h => hdiff (.inr h)⟩
    · have hdiff := mt same_patterns_iff.mpr fun h => hpat h.2
      exact ⟨a, b, fun h => hdiff (.inl h), hcell, fun h => hdiff (.inr h)⟩
  · rintro ⟨a, b, hne, hcell, hmirror⟩
    have hdiff := mt same_patterns_iff.mp (not_or.mpr ⟨hne, hmirror⟩)
    rcases not_and_or.mp hdiff with hpat | hpat
    · exact .inl ⟨a, b, hcell, hpat⟩
    · exact .inr ⟨a, b, hcell, hpat⟩

/-- An error is reported if and only if two different addresses select the
same cell, other than two that are mirrored. -/
theorem mem_chk_reports_iff {κ : Type} [DecidableEq κ] (cell : Word → κ) (r : Ram κ) :
    ∃ (text : List Byte) (t : Ram κ), memChk (ramBus cell) r = some ((), t)
      ∧ t.console = r.console.said text
      ∧ (Reports text ↔ ∃ a b, a ≠ b ∧ cell a = cell b ∧ ¬Mirrored a b) := by
  obtain ⟨text, t, hrun, ht, hreports⟩ := memChk_run cell r
  exact ⟨text, t, hrun, ht, hreports.trans (clash_iff cell)⟩

/-- Two addresses that share a cell unnoticed. -/
def shared (addr : Word) : Word := if addr = 0x0001 then 0x0100 else addr

theorem shared_cases {a b : Word} (h : shared a = shared b) :
    a = b ∨ a = 0x0001 ∧ b = 0x0100 ∨ a = 0x0100 ∧ b = 0x0001 := by
  rw [shared, shared] at h
  split_ifs at h with ha hb hb
  · exact .inl (ha.trans hb.symm)
  · exact .inr (.inl ⟨ha, h.symm⟩)
  · exact .inr (.inr ⟨h, hb⟩)
  · exact .inl h

theorem shared_unreported : (∃ a b, a ≠ b ∧ shared a = shared b) ∧ ∀ r : Ram Word,
    ∃ (text : List Byte) (t : Ram Word), memChk (ramBus shared) r = some ((), t)
      ∧ t.console = r.console.said text ∧ ¬Reports text := by
  refine ⟨⟨0x0001, 0x0100, by decide, rfl⟩, fun r => ?_⟩
  obtain ⟨text, t, hrun, ht, hreports⟩ := memChk_run shared r
  refine ⟨text, t, hrun, ht, fun h => ?_⟩
  obtain ⟨a, b, hne, hcell, hmirror⟩ := (clash_iff shared).mp (hreports.mp h)
  rcases shared_cases hcell with rfl | ⟨rfl, rfl⟩ | ⟨rfl, rfl⟩
  · exact hne rfl
  · exact hmirror (by decide)
  · exact hmirror (by decide)

end MemTest

end CpMega88
