import CpMega88.ConsoleInput
import CpMega88.ConsoleText

/-!
# The line editor

`prompt` of `machine.c`, up to where the command is looked up. The buffer
is an array of `MAX_PROMPT` + 1 bytes that nothing has set; an access
outside of it returns nothing.

`Draft` is what is being edited: a line of at most `MAX_PROMPT` bytes that
lies at the front of the buffer. `prompt` stays inside the buffer, and
leaves the draft in it, exactly when every recall finds a NUL there
(`line_kept_iff`).
-/

namespace CpMega88

open Bytes CpMega88.Con

namespace Prompt

def maxPrompt : Nat := 16

structure Editor where
  buffer : Vector Byte (maxPrompt + 1)
  size : Byte
  console : Console

abbrev EditM := Prog Editor

/-! ## The code -/

def load (i : Nat) : EditM Byte := fun e => e.buffer[i]?.map (·, e)

def store (i : Nat) (c : Byte) : EditM Unit := fun e =>
  if h : i < maxPrompt + 1 then some ((), { e with buffer := e.buffer.set i c h }) else none

instance : HasConsole Editor where
  console e := e.console
  setConsole e con := { e with console := con }

export HasConsole (onConsole putchar puts putsln)

/-- `do c = con_getchar(); while (c < 0)`, with `left` bytes of input to
come. -/
def waitKey : Nat → Prog Console Int
  | 0 => failure
  | left + 1 => do
    let c ← Prog.lift Con.getchar
    if c < 0 then waitKey left else return c

/-- The string that begins at an index. A load fails before the fuel is
used up. -/
def string : Nat → Nat → EditM (List Byte)
  | 0, _ => failure
  | left + 1, p => do
    let c ← load p
    if c = 0 then return [] else return c :: (← string left (p + 1))

/-- `for (p = buffer; 0 != *p; p++) size++`. -/
def countLoop : Nat → Nat → EditM Unit
  | 0, _ => failure
  | left + 1, p => do
    if (← load p) = 0 then pure ()
    else
      modify fun e => { e with size := e.size + 1 }
      countLoop left (p + 1)

/-- `split`, with indices for pointers. -/
def split (c : Byte) : Nat → Nat → EditM (Option Nat)
  | 0, _ => failure
  | left + 1, p => do
    let b ← load p
    if b = 0 then return none
    else if c = b then return some (p + 1)
    else split c left (p + 1)

def erase : EditM Unit := do
  if (← get).size = 0 then pure ()
  else
    modify fun e => { e with size := e.size - 1 }
    putchar 0x08
    putchar 0x20
    putchar 0x08

def recallLine : EditM Unit := do
  countLoop (maxPrompt + 2) 0
  puts (← string (maxPrompt + 2) 0)

def type (c : Byte) : EditM Unit := do
  if (← get).size.toNat = maxPrompt then pure ()
  else
    store (← get).size.toNat c
    modify fun e => { e with size := e.size + 1 }
    putchar c

/-- What a key does; is it the last one? -/
def key (c : Int) : EditM Bool := do
  if c = 0x08 ∨ c = 0x7f then
    erase
    return false
  else if c = 0x0a then return false
  else if c = 0x0d then
    putsln []
    return true
  else if (← get).size = 0 ∧ c = 0x10 then
    recallLine
    return false
  else
    type (BitVec.ofInt 8 c)
    return false

/-- A turn of the loop. -/
def turn : EditM Bool := do
  key (← onConsole (waitKey ((← get).console.stdin.length + 1)))

/-- The loop makes at most `left` turns. -/
def editLoop : Nat → EditM Unit
  | 0 => failure
  | left + 1 => do
    if ← turn then pure () else editLoop left

def start : EditM Unit := do
  modify fun e => { e with size := 0 }
  puts (ascii "CP/Mega88>")

/-- The command and its argument as the commands find them: what `strdcmp`,
`split`, `getnum` and `mount` do from here on is to read these strings,
none of them past the NUL. -/
def strings : EditM (List Byte × Option (List Byte)) := do
  let arg ← split 0x20 (maxPrompt + 2) 0
  let cmd ← string (maxPrompt + 2) 0
  match arg with
  | none => return (cmd, none)
  | some p => return (cmd, some (← string (maxPrompt + 2) p))

/-- `prompt`. -/
def prompt : EditM (List Byte × Option (List Byte)) := do
  start
  editLoop ((← get).console.stdin.length + 2)
  store (← get).size.toNat 0
  strings

/-! ## What is being edited -/

/-- The line lies at the front of the buffer. -/
structure Draft where
  cells : Vector Byte (maxPrompt + 1)
  line : List Byte
  fits : line.length ≤ maxPrompt
  kept : line = cells.toList.take line.length

namespace Draft

def blank (cells : Vector Byte (maxPrompt + 1)) : Draft := ⟨cells, [], by decide, rfl⟩

theorem dropLast_kept {line cells : List Byte} (h : line = cells.take line.length) :
    line.dropLast = cells.take line.dropLast.length := by
  have hcut : cells.take line.dropLast.length
      = (cells.take line.length).take (line.length - 1) := by
    rw [List.take_take, List.length_dropLast, Nat.min_eq_left (Nat.sub_le _ _)]
  rw [hcut, ← h, List.dropLast_eq_take]

theorem append_kept {line cells : List Byte} (h : line = cells.take line.length)
    (hroom : line.length < cells.length) (c : Byte) :
    line ++ [c] = (cells.set line.length c).take (line ++ [c]).length := by
  rw [List.length_append, List.length_singleton, List.take_add_one, List.take_set_of_le le_rfl,
    ← h, List.getElem?_set_self hroom, Option.toList_some]

def erase (d : Draft) : Draft where
  cells := d.cells
  line := d.line.dropLast
  fits := (List.dropLast_prefix d.line).length_le.trans d.fits
  kept := dropLast_kept d.kept

@[simp] theorem erase_line (d : Draft) : d.erase.line = d.line.dropLast := rfl

/-- What is in the buffer up to a NUL is the line again. -/
def recalled (d : Draft) : Draft where
  cells := d.cells
  line := (d.cells.toList.takeWhile (· ≠ 0)).take maxPrompt
  fits := List.length_take_le _ _
  kept := List.prefix_iff_eq_take.mp ((List.take_prefix _ _).trans (List.takeWhile_prefix _))

@[simp] theorem recalled_line (d : Draft) :
    d.recalled.line = (d.cells.toList.takeWhile (· ≠ 0)).take maxPrompt := rfl

theorem room {d : Draft} : d.line.length < maxPrompt + 1 := Nat.lt_succ_of_le d.fits

/-- A full line stays as it is. -/
def type (d : Draft) (c : Byte) : Draft :=
  if h : d.line.length = maxPrompt then d
  else
    { cells := d.cells.set d.line.length c room
      line := d.line ++ [c]
      fits := by
        rw [List.length_append, List.length_singleton]
        exact Nat.lt_of_le_of_ne d.fits h
      kept := by
        rw [Vector.toList_set]
        exact append_kept d.kept (by simpa using room) c }

def key (d : Draft) (k : Byte) : Draft :=
  if k = 0x08 ∨ k = 0x7f then d.erase
  else if k = 0x0a then d
  else if d.line = [] ∧ k = 0x10 then d.recalled
  else d.type k

/-- There is a NUL to end what is recalled. -/
def Ends (d : Draft) : Prop := 0 ∈ d.cells.toList

theorem takeWhile_lt {cs : List Byte} (hnul : 0 ∈ cs) :
    (cs.takeWhile (· ≠ 0)).length < cs.length := by
  have hbegins := List.takeWhile_prefix (l := cs) (fun c : Byte => decide (c ≠ 0))
  refine Nat.lt_of_le_of_ne hbegins.length_le fun heq => ?_
  have hall := List.takeWhile_eq_self_iff.mp (hbegins.eq_of_length heq) 0 hnul
  simp at hall

theorem recalled_length {d : Draft} (hends : d.Ends) :
    d.recalled.line.length = (d.cells.toList.takeWhile (· ≠ 0)).length := by
  have hlt := takeWhile_lt hends
  rw [Vector.length_toList] at hlt
  rw [recalled_line, List.length_take, Nat.min_eq_right (Nat.le_of_lt_succ hlt)]

/-- The key can be carried out: a recall has an end. -/
def Takes (d : Draft) (k : Byte) : Prop := d.line = [] ∧ k = 0x10 → d.Ends

/-- So can all of these keys. -/
def TakesAll (d : Draft) : List Byte → Prop
  | [] => True
  | k :: ks => d.Takes k ∧ (d.key k).TakesAll ks

theorem takesAll_iff {d : Draft} {keys : List Byte} : d.TakesAll keys
    ↔ ∀ pre post, keys = pre ++ 0x10 :: post → (pre.foldl key d).line = [] →
      (pre.foldl key d).Ends := by
  induction keys generalizing d with
  | nil => simp [TakesAll]
  | cons k ks ih =>
      rw [TakesAll, ih]
      constructor
      · rintro ⟨hk, hks⟩ (_ | ⟨k', pre⟩) post hsplit hline
        · obtain ⟨rfl, -⟩ := List.cons.inj hsplit
          exact hk ⟨hline, rfl⟩
        · obtain ⟨rfl, hrest⟩ := List.cons.inj hsplit
          exact hks pre post hrest hline
      · intro h
        refine ⟨?_, fun pre post hsplit => h (k :: pre) post (congrArg (k :: ·) hsplit)⟩
        rintro ⟨hline, rfl⟩
        exact h [] ks rfl hline

theorem TakesAll.left {d : Draft} {pre post : List Byte} (h : d.TakesAll (pre ++ post)) :
    d.TakesAll pre := by
  refine takesAll_iff.mpr fun p q hsplit => takesAll_iff.mp h p (q ++ post) ?_
  rw [hsplit, List.append_assoc, List.cons_append]

end Draft

/-- The draft after some keys. -/
def draft (cells : Vector Byte (maxPrompt + 1)) (keys : List Byte) : Draft :=
  keys.foldl Draft.key (.blank cells)

/-! ## Reading the buffer -/

theorem load_run {e : Editor} {p : Nat} {c : Byte} {cs : List Byte}
    (h : e.buffer.toList.drop p = c :: cs) : load p e = some (c, e) := by
  have hget : e.buffer[p]? = some c := by
    rw [← Vector.getElem?_toList, ← Nat.add_zero p, ← List.getElem?_drop, h]
    rfl
  rw [load, hget]
  rfl

theorem load_out {e : Editor} {p : Nat} (h : e.buffer.toList.drop p = []) : load p e = none := by
  have hget : e.buffer[p]? = none := by
    rw [← Vector.getElem?_toList, ← Nat.add_zero p, ← List.getElem?_drop, h]
    rfl
  rw [load, hget]
  rfl

theorem drop_succ {cells : List Byte} {p : Nat} {c : Byte} {cs : List Byte}
    (h : cells.drop p = c :: cs) : cells.drop (p + 1) = cs := by
  rw [← List.tail_drop, h, List.tail_cons]

theorem nul_later {c : Byte} {cs : List Byte} (h : 0 ∈ c :: cs) (hc : c ≠ 0) : 0 ∈ cs :=
  (List.mem_cons.mp h).resolve_left (Ne.symm hc)

theorem string_run {cs : List Byte} (hnul : 0 ∈ cs) {p left : Nat} {e : Editor}
    (hp : e.buffer.toList.drop p = cs) (hleft : cs.length < left) :
    ∃ text, string left p e = some (text, e) := by
  induction cs generalizing p left with
  | nil => exact absurd hnul List.not_mem_nil
  | cons c cs ih =>
      rcases left with _ | left
      · exact absurd hleft (Nat.not_lt_zero _)
      rw [string, Prog.bind_of_run (load_run hp), Prog.ite_run]
      split_ifs with hc
      · exact ⟨[], rfl⟩
      · obtain ⟨text, htext⟩ := ih (nul_later hnul hc) (drop_succ hp) (Nat.lt_of_succ_lt_succ hleft)
        exact ⟨c :: text, Prog.bind_of_run htext _⟩

/-- What `split` returns is inside the string again. -/
theorem split_run (sep : Byte) {cs : List Byte} (hnul : 0 ∈ cs) {p left : Nat} {e : Editor}
    (hp : e.buffer.toList.drop p = cs) (hleft : cs.length < left) :
    ∃ found, split sep left p e = some (found, e)
      ∧ ∀ q, found = some q → 0 ∈ e.buffer.toList.drop q := by
  induction cs generalizing p left with
  | nil => exact absurd hnul List.not_mem_nil
  | cons c cs ih =>
      rcases left with _ | left
      · exact absurd hleft (Nat.not_lt_zero _)
      rw [split, Prog.bind_of_run (load_run hp), Prog.ite_run, Prog.ite_run]
      split_ifs with hc hsep
      · exact ⟨none, rfl, by simp⟩
      · refine ⟨some (p + 1), rfl, ?_⟩
        rintro q ⟨⟩
        rw [drop_succ hp]
        exact nul_later hnul hc
      · exact ih (nul_later hnul hc) (drop_succ hp) (Nat.lt_of_succ_lt_succ hleft)

theorem countLoop_run {cs : List Byte} (hnul : 0 ∈ cs) {p left : Nat} {e : Editor}
    (hp : e.buffer.toList.drop p = cs) (hleft : cs.length < left) :
    countLoop left p e = some ((), { e with
      size := e.size + BitVec.ofNat 8 (cs.takeWhile (· ≠ 0)).length }) := by
  induction cs generalizing p left e with
  | nil => exact absurd hnul List.not_mem_nil
  | cons c cs ih =>
      rcases left with _ | left
      · exact absurd hleft (Nat.not_lt_zero _)
      rw [countLoop, Prog.bind_of_run (load_run hp), Prog.ite_run]
      split_ifs with hc
      · subst hc
        simp [Prog.pure_run]
      · have hrest := ih (e := { e with size := e.size + 1 }) (nul_later hnul hc) (drop_succ hp)
          (Nat.lt_of_succ_lt_succ hleft)
        rw [Prog.modify_bind_run, hrest, List.takeWhile_cons_of_pos (by simpa using hc)]
        simp [BitVec.ofNat_add, BitVec.add_assoc, BitVec.add_comm]

/-- Without a NUL the loop runs out of the buffer. -/
theorem countLoop_out {cs : List Byte} (hnul : 0 ∉ cs) {p left : Nat} {e : Editor}
    (hp : e.buffer.toList.drop p = cs) : countLoop left p e = none := by
  induction cs generalizing p left e with
  | nil =>
      rcases left with _ | left
      · rfl
      · rw [countLoop, Prog.bind_run, load_out hp]
        rfl
  | cons c cs ih =>
      rcases left with _ | left
      · rfl
      have hc : c ≠ 0 := fun h => hnul (h ▸ List.mem_cons_self)
      rw [countLoop, Prog.bind_of_run (load_run hp), Prog.ite_run, if_neg hc,
        Prog.modify_bind_run]
      exact ih (fun h => hnul (List.mem_cons_of_mem _ h)) (drop_succ hp)

theorem strings_run {e : Editor} (hnul : 0 ∈ e.buffer.toList) :
    ∃ found, strings e = some (found, e) := by
  have hleft (p : Nat) : (e.buffer.toList.drop p).length < maxPrompt + 2 := by
    rw [List.length_drop, Vector.length_toList]
    omega
  obtain ⟨arg, harg, hinside⟩ := split_run 0x20 (p := 0) hnul rfl (hleft 0)
  obtain ⟨cmd, hcmd⟩ := string_run (p := 0) hnul rfl (hleft 0)
  rw [strings, Prog.bind_of_run harg, Prog.bind_of_run hcmd]
  cases arg with
  | none => exact ⟨(cmd, none), rfl⟩
  | some p =>
      obtain ⟨text, htext⟩ := string_run (hinside p rfl) rfl (hleft p)
      exact ⟨(cmd, some text), Prog.bind_of_run htext _⟩

/-! ## The keyboard -/

/-- The bytes that `con_getchar` has yet to return. -/
def ahead (con : Console) : List Int := con.held ++ Con.bytes con.stdin

theorem ahead_length (con : Console) : (ahead con).length ≤ con.stdin.length + 1 := by
  have hheld : con.held.length ≤ 1 := by
    rw [Console.held, present]
    split_ifs <;> simp
  have hbytes : (Con.bytes con.stdin).length ≤ con.stdin.length := List.length_filterMap_le _ _
  rw [ahead, List.length_append]
  omega

theorem ahead_empty {con : Console} (h : con.fifoFlag = -1) :
    ahead con = present (orEof con.next) ++ Con.bytes con.stdin.tail := by
  rw [ahead, Console.held, h, present_none, List.nil_append, Console.next, ← bytes_take_one,
    ← bytes_append, ← List.drop_one, List.take_append_drop]

theorem waitKey_run {con : Console} {k : Byte} {ks : List Int}
    (h : ahead con = (k.toNat : Int) :: ks) {left : Nat} (hleft : con.stdin.length < left) :
    ∃ con', waitKey left con = some ((k.toNat : Int), con') ∧ ahead con' = ks := by
  induction left generalizing con with
  | zero => exact absurd hleft (Nat.not_lt_zero _)
  | succ left ih =>
      have hrun {c : Int} {con' : Console} (hget : Con.getchar con = (c, con')) :
          waitKey (left + 1) con = if c < 0 then waitKey left con' else some (c, con') := by
        have hlift : Prog.lift Con.getchar con = some (c, con') := congrArg some hget
        rw [waitKey, Prog.bind_of_run hlift, Prog.ite_run, Prog.pure_run]
      have hnonneg : ¬((k.toNat : Int) < 0) := by omega
      by_cases hheld : con.fifoFlag = -1
      · have hget := getchar_run con
        rw [if_pos hheld] at hget
        have hsplit := (ahead_empty hheld).symm.trans h
        by_cases hnone : orEof con.next = -1
        · -- nothing yet
          rw [hnone, present_none, List.nil_append] at hsplit
          have hpos : con.stdin ≠ [] := by
            intro hnil
            simp [hnil, Con.bytes] at hsplit
          have htail : con.stdin.tail.length < left := by
            have := List.length_pos_iff.mpr hpos
            rw [List.length_tail]
            omega
          rw [hrun hget, hnone, if_pos (by decide)]
          exact ih hsplit htail
        · rw [present_some hnone, List.singleton_append] at hsplit
          obtain ⟨hk, hks⟩ := List.cons.inj hsplit
          rw [hrun hget, hk, if_neg hnonneg]
          exact ⟨_, rfl, hks⟩
      · have hget := getchar_run con
        rw [if_neg hheld] at hget
        have hsplit := h
        rw [ahead, Console.held, present_some hheld, List.singleton_append] at hsplit
        obtain ⟨hk, hks⟩ := List.cons.inj hsplit
        rw [hrun hget, hk, if_neg hnonneg]
        exact ⟨_, rfl, hks⟩

/-! ## One key -/

/-- The editor once a text has been sent to the console. -/
def Editor.said (e : Editor) (text : List Byte) : Editor :=
  { e with console := e.console.said text }

theorem putchar_said (c : Byte) (e : Editor) : putchar c e = some ((), e.said [c]) :=
  HasConsole.putchar_said c e

theorem puts_said (text : List Byte) (e : Editor) :
    puts text e = some ((), e.said (text.takeWhile (· ≠ 0))) :=
  HasConsole.puts_said text e

theorem putsln_said (text : List Byte) (e : Editor) :
    putsln text e = some ((), e.said (text.takeWhile (· ≠ 0) ++ ascii "\r\n")) :=
  HasConsole.putsln_said text e

theorem key_code (k c : Byte) : (k.toNat : Int) = (c.toNat : Int) ↔ k = c :=
  Nat.cast_inj.trans BitVec.toNat_inj

/-- The tests of `prompt`, on bytes. -/
theorem key_eq (k : Byte) (e : Editor) : key (k.toNat : Int) e =
    if k = 0x08 ∨ k = 0x7f then (do erase; return false : EditM Bool) e
    else if k = 0x0a then some (false, e)
    else if k = 0x0d then (do putsln []; return true : EditM Bool) e
    else if e.size = 0 ∧ k = 0x10 then (do recallLine; return false : EditM Bool) e
    else (do type k; return false : EditM Bool) e := by
  have h08 : (k.toNat : Int) = 0x08 ↔ k = 0x08 := key_code k 0x08
  have h7f : (k.toNat : Int) = 0x7f ↔ k = 0x7f := key_code k 0x7f
  have h0a : (k.toNat : Int) = 0x0a ↔ k = 0x0a := key_code k 0x0a
  have h0d : (k.toNat : Int) = 0x0d ↔ k = 0x0d := key_code k 0x0d
  have h10 : (k.toNat : Int) = 0x10 ↔ k = 0x10 := key_code k 0x10
  simp only [key, h08, h7f, h0a, h0d, h10, Prog.ite_run, Prog.get_bind_run, BitVec.ofInt_natCast,
    BitVec.ofNat_toNat, BitVec.setWidth_eq, Prog.pure_run]

/-- The draft is in the buffer, and these bytes are to come. -/
structure Holds (d : Draft) (ks : List Int) (e : Editor) : Prop where
  buffer : e.buffer = d.cells
  size : e.size.toNat = d.line.length
  input : ahead e.console = ks

section Key

variable {d : Draft} {ks : List Int} {e : Editor} (h : Holds d ks e)

include h

theorem Holds.said (text : List Byte) : Holds d ks (e.said text) := ⟨h.buffer, h.size, h.input⟩

theorem Holds.size_zero : e.size = 0 ↔ d.line = [] := by
  rw [← List.length_eq_zero_iff, ← h.size]
  exact ⟨fun h0 => by rw [h0]; rfl, fun h0 => BitVec.eq_of_toNat_eq h0⟩

theorem erase_run : ∃ e', erase e = some ((), e') ∧ Holds d.erase ks e' := by
  rw [erase, Prog.get_bind_run, Prog.ite_run]
  split_ifs with hempty
  · have hline := h.size_zero.mp hempty
    refine ⟨e, rfl, h.buffer, ?_, h.input⟩
    rw [h.size, Draft.erase_line, hline, List.dropLast_nil]
  · have hsize : (e.size - 1).toNat = d.line.dropLast.length := by
      have hpos : e.size.toNat ≠ 0 := fun h0 => hempty (BitVec.eq_of_toNat_eq h0)
      have hlt := e.size.isLt
      rw [List.length_dropLast, ← h.size, BitVec.toNat_sub]
      simp
      omega
    exact ⟨_, rfl, h.buffer, hsize, h.input⟩

theorem recallLine_run (hline : d.line = []) (hends : d.Ends) :
    ∃ e', recallLine e = some ((), e') ∧ Holds d.recalled ks e' := by
  have hnul : 0 ∈ e.buffer.toList.drop 0 := by
    rw [h.buffer]
    exact hends
  have hleft : (e.buffer.toList.drop 0).length < maxPrompt + 2 := by simp
  have hcount := countLoop_run hnul rfl hleft
  generalize hn : ((e.buffer.toList.drop 0).takeWhile (· ≠ 0)).length = n at hcount
  obtain ⟨text, htext⟩ := string_run (e := { e with size := e.size + BitVec.ofNat 8 n })
    hnul rfl hleft
  have hlength : d.recalled.line.length = n := by
    rw [Draft.recalled_length hends, ← hn, h.buffer]
    rfl
  have hsize : (e.size + BitVec.ofNat 8 n).toNat = d.recalled.line.length := by
    have hfits := d.recalled.fits
    rw [hlength] at hfits ⊢
    rw [h.size_zero.mpr hline, zero_add, BitVec.toNat_ofNat]
    exact Nat.mod_eq_of_lt (hfits.trans_lt (by decide))
  rw [recallLine, Prog.bind_of_run hcount, Prog.bind_of_run htext]
  exact ⟨_, puts_said text _, h.buffer, hsize, h.input⟩

theorem recallLine_out (hends : ¬d.Ends) : recallLine e = none := by
  have hnul : 0 ∉ e.buffer.toList.drop 0 := by
    rw [h.buffer]
    exact hends
  rw [recallLine, Prog.bind_run, countLoop_out hnul rfl]
  rfl

theorem type_run (c : Byte) : ∃ e', type c e = some ((), e') ∧ Holds (d.type c) ks e' := by
  rw [type, Prog.get_bind_run, Prog.ite_run, h.size]
  split_ifs with hfull
  · rw [Draft.type, dif_pos hfull]
    exact ⟨e, rfl, h⟩
  · have hstore : store d.line.length c e
        = some ((), { e with buffer := e.buffer.set d.line.length c Draft.room }) :=
      dif_pos Draft.room
    have hbuffer : e.buffer.set d.line.length c Draft.room
        = d.cells.set d.line.length c Draft.room := by rw [h.buffer]
    have hsize : (e.size + 1).toNat = (d.line ++ [c]).length := by
      have hroom := Draft.room (d := d)
      rw [maxPrompt] at hroom
      rw [List.length_append, BitVec.toNat_add, h.size]
      simp
      omega
    rw [Prog.get_bind_run, h.size, Prog.bind_of_run hstore, Prog.modify_bind_run, Draft.type,
      dif_neg hfull]
    exact ⟨_, putchar_said c _, hbuffer, hsize, h.input⟩

theorem key_run {k : Byte} (hcr : k ≠ 0x0d) (htakes : d.Takes k) :
    ∃ e', key (k.toNat : Int) e = some (false, e') ∧ Holds (d.key k) ks e' := by
  have hgo {x : EditM Unit} {d' : Draft} (hx : ∃ e', x e = some ((), e') ∧ Holds d' ks e') :
      ∃ e', (do x; return false : EditM Bool) e = some (false, e') ∧ Holds d' ks e' := by
    obtain ⟨e', hrun, hd'⟩ := hx
    exact ⟨e', Prog.bind_of_run hrun _, hd'⟩
  simp only [key_eq, Draft.key, if_neg hcr, h.size_zero]
  split_ifs with herase hlf hrecall
  · exact hgo (erase_run h)
  · exact ⟨e, rfl, h⟩
  · exact hgo (recallLine_run h hrecall.1 (htakes hrecall))
  · exact hgo (type_run h k)

theorem key_out {k : Byte} (htakes : ¬d.Takes k) : key (k.toNat : Int) e = none := by
  obtain ⟨⟨hline, rfl⟩, hends⟩ := Classical.not_imp.mp htakes
  rw [key_eq, if_neg (by decide), if_neg (by decide), if_neg (by decide),
    if_pos ⟨h.size_zero.mpr hline, rfl⟩, Prog.bind_run, recallLine_out h hends]
  rfl

theorem key_last : ∃ e', key ((0x0d : Byte).toNat : Int) e = some (true, e') ∧ Holds d ks e' := by
  rw [key_eq, if_neg (by decide), if_neg (by decide), if_pos rfl,
    Prog.bind_of_run (putsln_said [] e)]
  exact ⟨_, rfl, h.said _⟩

end Key

/-! ## The keys one after the other -/

section Run

variable {d : Draft} {e : Editor} {k : Byte} {ks : List Int}

theorem turn_key (h : Holds d ((k.toNat : Int) :: ks) e) :
    ∃ e', turn e = key (k.toNat : Int) e' ∧ Holds d ks e' := by
  obtain ⟨con, hwait, hcon⟩ := waitKey_run h.input (Nat.lt_succ_self _)
  have hrun : onConsole (waitKey (e.console.stdin.length + 1)) e
      = some ((k.toNat : Int), { e with console := con }) := by
    show (waitKey _ e.console).map (fun r => (r.1, { e with console := r.2 })) = _
    rw [hwait]
    rfl
  rw [turn, Prog.get_bind_run, Prog.bind_of_run hrun]
  exact ⟨_, rfl, h.buffer, h.size, hcon⟩

theorem turn_run (h : Holds d ((k.toNat : Int) :: ks) e) (hcr : k ≠ 0x0d) (htakes : d.Takes k) :
    ∃ e', turn e = some (false, e') ∧ Holds (d.key k) ks e' := by
  obtain ⟨u, hturn, hu⟩ := turn_key h
  rw [hturn]
  exact key_run hu hcr htakes

theorem turn_out (h : Holds d ((k.toNat : Int) :: ks) e) (htakes : ¬d.Takes k) : turn e = none := by
  obtain ⟨u, hturn, hu⟩ := turn_key h
  rw [hturn]
  exact key_out hu htakes

theorem turn_last (h : Holds d (((0x0d : Byte).toNat : Int) :: ks) e) :
    ∃ e', turn e = some (true, e') ∧ Holds d ks e' := by
  obtain ⟨u, hturn, hu⟩ := turn_key h
  rw [hturn]
  exact key_last hu

end Run

/-- A turn for each key. -/
def turns (keys : List Byte) : EditM Unit := Prog.runAll (fun _ => discard turn) keys

/-- What `con_getchar` returns for them. -/
def codes (keys : List Byte) : List Int := keys.map fun k => (k.toNat : Int)

theorem turns_cons {e u : Editor} {last : Bool} (h : turn e = some (last, u)) (k : Byte)
    (keys : List Byte) : turns (k :: keys) e = turns keys u := by
  have hrun : (discard turn : EditM PUnit) e = some ((), u) := Prog.discard_eq_some.mpr ⟨last, h⟩
  exact Prog.bind_of_run hrun _

theorem turns_run {d : Draft} {e : Editor} {keys : List Byte} {more : List Int}
    (h : Holds d (codes keys ++ more) e) (hcr : 0x0d ∉ keys) (htakes : d.TakesAll keys) :
    ∃ e', turns keys e = some ((), e') ∧ Holds (keys.foldl Draft.key d) more e' := by
  induction keys generalizing d e with
  | nil => exact ⟨e, rfl, h⟩
  | cons k keys ih =>
      rw [List.mem_cons, not_or] at hcr
      obtain ⟨u, hturn, hu⟩ := turn_run h (Ne.symm hcr.1) htakes.1
      obtain ⟨e', hrest, he'⟩ := ih hu hcr.2 htakes.2
      exact ⟨e', (turns_cons hturn k keys).trans hrest, he'⟩

theorem turns_taken {d : Draft} {e e' : Editor} {keys : List Byte} {more : List Int}
    (h : Holds d (codes keys ++ more) e) (hcr : 0x0d ∉ keys)
    (hrun : turns keys e = some ((), e')) : d.TakesAll keys := by
  induction keys generalizing d e with
  | nil => trivial
  | cons k keys ih =>
      rw [List.mem_cons, not_or] at hcr
      by_cases htakes : d.Takes k
      · obtain ⟨u, hturn, hu⟩ := turn_run h (Ne.symm hcr.1) htakes
        exact ⟨htakes, ih hu hcr.2 ((turns_cons hturn k keys).symm.trans hrun)⟩
      · obtain ⟨_, u, hturn, -⟩ := Prog.bind_eq_some.mp hrun
        obtain ⟨last, hlast⟩ := Prog.discard_eq_some.mp hturn
        rw [turn_out h htakes] at hlast
        cases hlast

theorem editLoop_run {d : Draft} {e : Editor} {keys : List Byte} {rest : List Int} {left : Nat}
    (h : Holds d (codes keys ++ ((0x0d : Byte).toNat : Int) :: rest) e) (hcr : 0x0d ∉ keys)
    (htakes : d.TakesAll keys) (hleft : keys.length < left) :
    ∃ e', editLoop left e = some ((), e') ∧ Holds (keys.foldl Draft.key d) rest e' := by
  induction keys generalizing d e left with
  | nil =>
      obtain ⟨left, rfl⟩ := Nat.exists_eq_add_of_lt hleft
      obtain ⟨e', hturn, he'⟩ := turn_last h
      exact ⟨e', Prog.bind_of_run hturn _, he'⟩
  | cons k keys ih =>
      rcases left with _ | left
      · exact absurd hleft (Nat.not_lt_zero _)
      rw [List.mem_cons, not_or] at hcr
      obtain ⟨u, hturn, hu⟩ := turn_run h (Ne.symm hcr.1) htakes.1
      obtain ⟨e', hrest, he'⟩ := ih hu hcr.2 htakes.2 (Nat.lt_of_succ_lt_succ hleft)
      exact ⟨e', (Prog.bind_of_run hturn _).trans hrest, he'⟩

/-! ## The whole prompt -/

theorem start_run {e : Editor} {ks : List Int} (h : ahead e.console = ks) :
    ∃ e', start e = some ((), e') ∧ Holds (.blank e.buffer) ks e' := by
  rw [start, Prog.modify_bind_run]
  exact ⟨_, puts_said _ _, rfl, rfl, h⟩

/-- Nothing outside of the buffer is read or written, the size stays within
it after every key, and in the end the line is there, with its NUL. -/
structure LineKept (keys : List Byte) (e : Editor) : Prop where
  sizes : ∀ pre post, keys = pre ++ post →
    ∃ e', (do start; turns pre : EditM Unit) e = some ((), e') ∧ e'.size.toNat ≤ maxPrompt
  ends : ∃ strings e', prompt e = some (strings, e') ∧ e'.size.toNat ≤ maxPrompt
    ∧ e'.size.toNat = (draft e.buffer keys).line.length
    ∧ e'.buffer.toList.take (e'.size.toNat + 1) = (draft e.buffer keys).line ++ [0]

theorem prompt_run {e : Editor} {keys : List Byte} {rest : List Int}
    (h : ahead e.console = codes keys ++ ((0x0d : Byte).toNat : Int) :: rest) (hcr : 0x0d ∉ keys)
    (htakes : (Draft.blank e.buffer).TakesAll keys) :
    ∃ found e', prompt e = some (found, e')
      ∧ e'.size.toNat = (draft e.buffer keys).line.length
      ∧ e'.buffer = (draft e.buffer keys).cells.set (draft e.buffer keys).line.length 0
        Draft.room := by
  obtain ⟨e₀, hstart, h₀⟩ := start_run h
  have hfuel : keys.length < e₀.console.stdin.length + 2 := by
    have hlength := ahead_length e₀.console
    rw [h₀.input] at hlength
    simp [codes] at hlength
    omega
  obtain ⟨e₁, hloop, h₁⟩ := editLoop_run h₀ hcr htakes hfuel
  generalize hd : keys.foldl Draft.key (.blank e.buffer) = d at h₁
  have hdraft : draft e.buffer keys = d := hd
  rw [hdraft]
  have hstore : store d.line.length 0 e₁
      = some ((), { e₁ with buffer := e₁.buffer.set d.line.length 0 Draft.room }) :=
    dif_pos Draft.room
  have hnul : 0 ∈ (e₁.buffer.set d.line.length 0 Draft.room).toList := by
    rw [Vector.mem_toList_iff]
    exact Vector.mem_set _
  obtain ⟨found, hfound⟩ := strings_run
    (e := { e₁ with buffer := e₁.buffer.set d.line.length 0 Draft.room }) hnul
  have hrun : prompt e = some (found,
      { e₁ with buffer := e₁.buffer.set d.line.length 0 Draft.room }) := by
    rw [prompt, Prog.bind_of_run hstart, Prog.get_bind_run, Prog.bind_of_run hloop,
      Prog.get_bind_run, h₁.size, Prog.bind_of_run hstore, hfound]
  exact ⟨found, _, hrun, h₁.size, by rw [h₁.buffer]⟩

/-- The line is kept if and only if each recall finds a NUL. -/
theorem line_kept_iff (e : Editor) (keys : List Byte) (rest : List Int) (hcr : 0x0d ∉ keys)
    (h : ahead e.console = codes keys ++ ((0x0d : Byte).toNat : Int) :: rest) :
    LineKept keys e ↔ ∀ pre post, keys = pre ++ 0x10 :: post →
      (draft e.buffer pre).line = [] → 0 ∈ (draft e.buffer pre).cells.toList := by
  obtain ⟨e₀, hstart, h₀⟩ := start_run h
  refine Iff.trans ?_ Draft.takesAll_iff
  constructor
  · rintro ⟨hsizes, -⟩
    obtain ⟨e', hrun, -⟩ := hsizes keys [] (List.append_nil _).symm
    rw [Prog.bind_of_run hstart] at hrun
    exact turns_taken h₀ hcr hrun
  · intro htakes
    refine ⟨?_, ?_⟩
    · rintro pre post rfl
      rw [codes, List.map_append, List.append_assoc] at h₀
      obtain ⟨e', hrun, he'⟩ := turns_run h₀ (fun hmem => hcr (List.mem_append_left post hmem))
        htakes.left
      exact ⟨e', (Prog.bind_of_run hstart _).trans hrun, he'.size ▸ Draft.fits _⟩
    · obtain ⟨found, e', hrun, hsize, hbuffer⟩ := prompt_run h hcr htakes
      have hfits := (draft e.buffer keys).fits
      refine ⟨found, e', hrun, hsize ▸ hfits, hsize, ?_⟩
      have hlength := (draft e.buffer keys).cells.length_toList
      have hroom := (Draft.room (d := draft e.buffer keys)).trans_eq hlength.symm
      have hline := Draft.append_kept (draft e.buffer keys).kept hroom 0
      rw [hbuffer, hsize, Vector.toList_set, hline, List.length_append, List.length_singleton]

/-- A buffer with some bytes left over in it, and keys to come. -/
def leftOver (buffer : Vector Byte (maxPrompt + 1)) (keys : List Byte) : Editor :=
  ⟨buffer, 0, [], keys.map some, -1⟩

/-- A line is recalled and has a letter added. -/
theorem line_kept_recalled :
    LineKept [0x10, 0x43] (leftOver #v[0x41, 0x42, 0, 0, 0, 0, 0, 0, 0, 0, 0, 0, 0, 0, 0, 0, 0]
      [0x10, 0x43, 0x0d]) := by
  refine (line_kept_iff _ [0x10, 0x43] [] (by decide) (by decide)).mpr ?_
  rintro (_ | ⟨k, pre⟩) post hsplit -
  · decide
  · simp [List.cons_eq_append_iff] at hsplit

/-- Nothing ends the recall. -/
theorem recall_overruns : (0x0d : Byte) ∉ [0x10#8]
    ∧ ahead (leftOver (.replicate 17 0x41) [0x10, 0x0d]).console = codes [0x10, 0x0d]
    ∧ ¬LineKept [0x10] (leftOver (.replicate 17 0x41) [0x10, 0x0d]) := by
  refine ⟨by decide, rfl, fun h => ?_⟩
  obtain ⟨e₀, hstart, h₀⟩ := start_run (e := leftOver (.replicate 17 0x41) [0x10, 0x0d]) rfl
  obtain ⟨e', hrun, -⟩ := h.sizes [0x10] [] rfl
  rw [Prog.bind_of_run hstart] at hrun
  have htakes := @turns_taken _ _ _ [0x10] (codes [0x0d]) h₀ (by decide) hrun
  have hends : (0 : Byte) ∈ (Vector.replicate 17 (0x41 : Byte)).toList := htakes.1 ⟨rfl, rfl⟩
  exact absurd hends (by decide)

end Prompt

end CpMega88
