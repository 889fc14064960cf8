import CpMega88.ConsoleText
import CpMega88.Monitor

/-!
# The terminal

What the guest sends to port 1 is translated by a machine of four states.
Its input is a sequence of items (`Item`): single bytes, clearing the
screen, placing the cursor, and escapes that mean nothing; at the end an
item may be incomplete (`Tail`). Every stream is such a sequence in one
way (`parse_unique`, `exists_parse`), and `terminal_translates` says that
what comes out is the text of its items.

The cursor sequence is sent in two pieces: the row is out before the
column has come.
-/

namespace CpMega88

open Bytes CpMega88.Con

namespace Machine

/-! ## The grammar -/

inductive Item where
  | plain (b : Byte) (h : b ≠ 0x1a#8 ∧ b ≠ 0x1b#8)
  | wipe
  | clear
  | cursor (row col : Byte)
  | swallowed (b : Byte) (h : b ≠ 0x3d#8 ∧ b ≠ 0x3b#8)

namespace Item

def bytes : Item → List Byte
  | plain b _ => [b]
  | wipe => [0x1a#8]
  | clear => [0x1b#8, 0x3b#8]
  | cursor row col => [0x1b#8, 0x3d#8, row, col]
  | swallowed b _ => [0x1b#8, b]

/-- The bytes that stand for a row or a column. -/
def args : Item → List Byte
  | cursor row col => [row, col]
  | _ => []

end Item

/-- `ESC [ 2 J`. -/
def clearText : List Byte := ascii "\x1b[2J"

/-- The two pieces of `ESC [ row ; col H`. -/
def rowText (row : Byte) : List Byte := ascii "\x1b[" ++ decimals 5 (row.toNat - 31)

def colText (col : Byte) : List Byte := 0x3b#8 :: decimals 5 (col.toNat - 31) ++ [0x48#8]

def Item.text : Item → List Byte
  | plain b _ => [b]
  | wipe => clearText
  | clear => clearText
  | cursor row col => rowText row ++ colText col
  | swallowed _ _ => []

/-- What there is of an item that is not complete. -/
inductive Tail where
  | none
  | esc
  | escEq
  | escRow (row : Byte)

namespace Tail

def bytes : Tail → List Byte
  | none => []
  | esc => [0x1b#8]
  | escEq => [0x1b#8, 0x3d#8]
  | escRow row => [0x1b#8, 0x3d#8, row]

def args : Tail → List Byte
  | escRow row => [row]
  | _ => []

/-- The row is out already. -/
def text : Tail → List Byte
  | escRow row => rowText row
  | _ => []

/-- The state it leaves. -/
def state : Tail → Byte
  | none => 0
  | esc => 1
  | escEq => 2
  | escRow _ => 3

end Tail

structure Parse where
  items : List Item
  tail : Tail

namespace Parse

def bytes (p : Parse) : List Byte := p.items.flatMap Item.bytes ++ p.tail.bytes

def args (p : Parse) : List Byte := p.items.flatMap Item.args ++ p.tail.args

def text (p : Parse) : List Byte := p.items.flatMap Item.text ++ p.tail.text

def cons (item : Item) (p : Parse) : Parse := ⟨item :: p.items, p.tail⟩

@[simp] theorem bytes_cons (item : Item) (p : Parse) :
    (cons item p).bytes = item.bytes ++ p.bytes := by
  simp [bytes, cons]

@[simp] theorem args_cons (item : Item) (p : Parse) :
    (cons item p).args = item.args ++ p.args := by
  simp [args, cons]

@[simp] theorem text_cons (item : Item) (p : Parse) :
    (cons item p).text = item.text ++ p.text := by
  simp [text, cons]

end Parse

/-! ## Every stream has one parse -/

theorem item_unique {item item' : Item} {xs ys : List Byte}
    (h : item.bytes ++ xs = item'.bytes ++ ys) : item = item' ∧ xs = ys := by
  cases item <;> cases item' <;> simp_all [Item.bytes]
  -- a byte of the one is a mark of the other
  all_goals
    obtain ⟨rfl, -⟩ := h
    simp_all

theorem item_not_tail (item : Item) (xs : List Byte) (tail : Tail) :
    item.bytes ++ xs ≠ tail.bytes := by
  cases item <;> cases tail <;> simp_all [Item.bytes, Tail.bytes]

theorem tail_unique {tail tail' : Tail} (h : tail.bytes = tail'.bytes) : tail = tail' := by
  cases tail <;> cases tail' <;> simp_all [Tail.bytes]

theorem parse_unique {p p' : Parse} (h : p.bytes = p'.bytes) : p = p' := by
  obtain ⟨items, tail⟩ := p
  obtain ⟨items', tail'⟩ := p'
  induction items generalizing items' with
  | nil =>
      rcases items' with _ | ⟨item', items'⟩
      · have htail : tail.bytes = tail'.bytes := h
        rw [tail_unique htail]
      · have hcons := Parse.bytes_cons item' ⟨items', tail'⟩
        exact absurd (hcons.symm.trans h.symm) (item_not_tail item' _ tail)
  | cons item items ih =>
      have hcons := Parse.bytes_cons item ⟨items, tail⟩
      rcases items' with _ | ⟨item', items'⟩
      · exact absurd (hcons.symm.trans h) (item_not_tail item _ tail')
      · have hcons' := Parse.bytes_cons item' ⟨items', tail'⟩
        obtain ⟨rfl, hrest⟩ := item_unique (hcons.symm.trans (h.trans hcons'))
        have hsame := ih items' hrest
        cases hsame
        rfl

theorem exists_parse (stream : List Byte) : ∃ p : Parse, p.bytes = stream := by
  induction hn : stream.length using Nat.strong_induction_on generalizing stream with
  | _ n ih =>
      -- an item and a shorter stream
      have hmore (item : Item) (rest : List Byte) (hstream : stream = item.bytes ++ rest)
          (hlt : rest.length < n) : ∃ p : Parse, p.bytes = stream := by
        obtain ⟨p, hp⟩ := ih rest.length hlt rest rfl
        exact ⟨p.cons item, by rw [Parse.bytes_cons, hp, hstream]⟩
      rcases stream with _ | ⟨b, rest⟩
      · exact ⟨⟨[], .none⟩, rfl⟩
      rw [List.length_cons] at hn
      by_cases hwipe : b = 0x1a#8
      · exact hmore .wipe rest (by rw [hwipe]; rfl) (by omega)
      by_cases hesc : b = 0x1b#8
      · subst hesc
        rcases rest with _ | ⟨c, rest⟩
        · exact ⟨⟨[], .esc⟩, rfl⟩
        rw [List.length_cons] at hn
        by_cases hclear : c = 0x3b#8
        · exact hmore .clear rest (by rw [hclear]; rfl) (by omega)
        by_cases heq : c = 0x3d#8
        · subst heq
          rcases rest with _ | ⟨row, _ | ⟨col, rest⟩⟩
          · exact ⟨⟨[], .escEq⟩, rfl⟩
          · exact ⟨⟨[], .escRow row⟩, rfl⟩
          · simp only [List.length_cons] at hn
            exact hmore (.cursor row col) rest rfl (by omega)
        · exact hmore (.swallowed c ⟨heq, hclear⟩) rest rfl (by omega)
      · exact hmore (.plain b ⟨hwipe, hesc⟩) rest rfl (by omega)

/-! ## The machine -/

/-- The machine in one of the four states. -/
def State.inEsc (s : State) (esc : Byte) : State := { s with esc := esc }

@[simp] theorem inEsc_inEsc (s : State) (esc esc' : Byte) :
    (s.inEsc esc).inEsc esc' = s.inEsc esc' := rfl

@[simp] theorem inEsc_said (s : State) (esc : Byte) (text : List Byte) :
    (s.inEsc esc).said text = (s.said text).inEsc esc := rfl

theorem inEsc_self {s : State} {esc : Byte} (h : s.esc = esc) : s.inEsc esc = s := by
  rw [← h]
  rfl

theorem terminal_first {s : State} (hvt : s.vtCnv = 1) (hesc : s.esc = 0) (b : Byte) :
    terminal b s = some ((), if b = 0x1a#8 then s.said clearText
      else if b = 0x1b#8 then s.inEsc 1 else s.said [b]) := by
  have hrun : terminal b s = (if s.vtCnv = 0 then putchar b
      else if b = 0x1a#8 then (if s.vtCnv = 1 then puts clearText else pure ())
      else if b = 0x1b#8 then setEsc 1 else putchar b : MachineM Unit) s := by
    rw [terminal, Prog.get_bind_run, Prog.get_bind_run, hesc]
    rfl
  have hon : ¬s.vtCnv = 0 := by
    rw [hvt]
    decide
  rw [hrun, if_neg hon, if_pos hvt]
  split_ifs
  · exact puts_said (by decide) s
  · rfl
  · rfl

theorem terminal_second {s : State} (hvt : s.vtCnv = 1) (hesc : s.esc = 1) (b : Byte) :
    terminal b s = some ((), if b = 0x3d#8 then s.inEsc 2
      else if b = 0x3b#8 then (s.said clearText).inEsc 0 else s.inEsc 0) := by
  have hrun : terminal b s = (if b = 0x3d#8 then setEsc 2
      else if b = 0x3b#8 then (if s.vtCnv = 1 then do puts clearText; setEsc 0 else setEsc 0)
      else setEsc 0 : MachineM Unit) s := by
    rw [terminal, Prog.get_bind_run, Prog.get_bind_run, hesc]
    rfl
  rw [hrun, if_pos hvt]
  split_ifs
  · rfl
  · exact Prog.bind_of_run (puts_said (by decide) s) _
  · rfl

/-- The number of a row or a column. -/
theorem putnum_arg {b : Byte} (h : 0x20 ≤ b.toNat) (s : State) :
    putnumU16 (b.setWidth 16 - 0x20 + 1) (-1) s
      = some ((), s.said (decimals 5 (b.toNat - 31))) := by
  have hlt := b.isLt
  have hnum : (b.setWidth 16 - 0x20 + 1 : Word).toNat = b.toNat - 31 := by
    simp [BitVec.toNat_add, BitVec.toNat_sub]
    omega
  rw [← hnum]
  exact putnumU16_said (by decide) _ s

theorem terminal_row {s : State} (hvt : s.vtCnv = 1) (hesc : s.esc = 2) {b : Byte}
    (hb : 0x20 ≤ b.toNat) : terminal b s = some ((), (s.said (rowText b)).inEsc 3) := by
  have hrun : terminal b s = (if s.vtCnv = 1 then do
        puts (ascii "\x1b[")
        putnumU16 (b.setWidth 16 - 0x20 + 1) (-1)
        setEsc 3
      else setEsc 3 : MachineM Unit) s := by
    rw [terminal, Prog.get_bind_run, Prog.get_bind_run, hesc]
    rfl
  rw [hrun, if_pos hvt, Prog.bind_of_run (puts_said (by decide) s),
    Prog.bind_of_run (putnum_arg hb _), said_said]
  rfl

theorem terminal_col {s : State} (hvt : s.vtCnv = 1) (hesc : s.esc = 3) {b : Byte}
    (hb : 0x20 ≤ b.toNat) : terminal b s = some ((), (s.said (colText b)).inEsc 0) := by
  have hrun : terminal b s = (if s.vtCnv = 1 then do
        putchar 0x3b
        putnumU16 (b.setWidth 16 - 0x20 + 1) (-1)
        putchar 0x48
        setEsc 0
      else setEsc 0 : MachineM Unit) s := by
    rw [terminal, Prog.get_bind_run, Prog.get_bind_run, hesc]
    rfl
  rw [hrun, if_pos hvt, Prog.bind_of_run (putchar_said _ s), Prog.bind_of_run (putnum_arg hb _),
    Prog.bind_of_run (putchar_said _ _), said_said, said_said]
  rfl

/-! ## Streams -/

/-- What the guest sends to port 1. -/
def sendAll (fuel : Nat) (stream : List Byte) : MachineM Unit := Prog.runAll (out fuel 1) stream

theorem sendAll_cons {fuel : Nat} {b : Byte} {s t : State} (h : terminal b s = some ((), t))
    (rest : List Byte) : sendAll fuel (b :: rest) s = sendAll fuel rest t :=
  Prog.bind_of_run h _

section Run

variable {s : State} (hvt : s.vtCnv = 1) (hesc : s.esc = 0)

include hvt hesc

/-- An item comes out as its text, and leaves the first state again. -/
theorem item_run (fuel : Nat) (item : Item) (hargs : ∀ b ∈ item.args, 0x20 ≤ b.toNat)
    (rest : List Byte) :
    sendAll fuel (item.bytes ++ rest) s = sendAll fuel rest (s.said item.text) := by
  have hescape : terminal 0x1b s = some ((), s.inEsc 1) := terminal_first hvt hesc 0x1b
  cases item with
  | plain b h =>
      have hrun := terminal_first hvt hesc b
      rw [if_neg h.1, if_neg h.2] at hrun
      exact sendAll_cons hrun rest
  | wipe => exact sendAll_cons (terminal_first hvt hesc 0x1a) rest
  | clear =>
      have hrun : terminal 0x3b (s.inEsc 1) = some ((), ((s.inEsc 1).said clearText).inEsc 0) :=
        terminal_second (s := s.inEsc 1) hvt rfl 0x3b
      simp only [inEsc_said, inEsc_inEsc, inEsc_self (s := s.said clearText) hesc] at hrun
      exact (sendAll_cons hescape _).trans (sendAll_cons hrun rest)
  | cursor row col =>
      have heq : terminal 0x3d (s.inEsc 1) = some ((), (s.inEsc 1).inEsc 2) :=
        terminal_second (s := s.inEsc 1) hvt rfl 0x3d
      have hrow := terminal_row (s := s.inEsc 2) hvt rfl (hargs row (by simp [Item.args]))
      have hcol := terminal_col (s := (s.said (rowText row)).inEsc 3) hvt rfl
        (hargs col (by simp [Item.args]))
      simp only [inEsc_said, inEsc_inEsc, said_said] at heq hrow hcol
      rw [inEsc_self (s := s.said (rowText row ++ colText col)) hesc] at hcol
      exact (sendAll_cons hescape _).trans ((sendAll_cons heq _).trans ((sendAll_cons hrow _).trans
        (sendAll_cons hcol rest)))
  | swallowed b h =>
      have hrun := terminal_second (s := s.inEsc 1) hvt rfl b
      rw [if_neg h.1, if_neg h.2, inEsc_inEsc, inEsc_self hesc] at hrun
      rw [Item.text, said_nil]
      exact (sendAll_cons hescape _).trans (sendAll_cons hrun rest)

theorem tail_run (fuel : Nat) (tail : Tail) (hargs : ∀ b ∈ tail.args, 0x20 ≤ b.toNat) :
    sendAll fuel tail.bytes s = some ((), (s.said tail.text).inEsc tail.state) := by
  have hescape : terminal 0x1b s = some ((), s.inEsc 1) := terminal_first hvt hesc 0x1b
  have heq : terminal 0x3d (s.inEsc 1) = some ((), s.inEsc 2) :=
    terminal_second (s := s.inEsc 1) hvt rfl 0x3d
  cases tail with
  | none =>
      have hself : (s.said []).inEsc 0 = s := by rw [said_nil, inEsc_self hesc]
      exact congrArg (fun t => some ((), t)) hself.symm
  | esc =>
      have hself : (s.said []).inEsc 1 = s.inEsc 1 := by rw [said_nil]
      exact (sendAll_cons hescape []).trans (congrArg (fun t => some ((), t)) hself.symm)
  | escEq =>
      have hself : (s.said []).inEsc 2 = s.inEsc 2 := by rw [said_nil]
      exact (sendAll_cons hescape _).trans ((sendAll_cons heq []).trans
        (congrArg (fun t => some ((), t)) hself.symm))
  | escRow row =>
      have hrow := terminal_row (s := s.inEsc 2) hvt rfl (hargs row (by simp [Tail.args]))
      exact (sendAll_cons hescape _).trans ((sendAll_cons heq _).trans (sendAll_cons hrow []))

theorem parse_run (fuel : Nat) (p : Parse) (hargs : ∀ b ∈ p.args, 0x20 ≤ b.toNat) :
    sendAll fuel p.bytes s = some ((), (s.said p.text).inEsc p.tail.state) := by
  obtain ⟨items, tail⟩ := p
  induction items generalizing s with
  | nil => exact tail_run hvt hesc fuel tail hargs
  | cons item items ih =>
      have hsplit : ∀ b ∈ item.args ++ Parse.args ⟨items, tail⟩, 0x20 ≤ b.toNat := by
        rw [← Parse.args_cons]
        exact hargs
      have hitem := item_run hvt hesc fuel item
        (fun b hb => hsplit b (List.mem_append_left _ hb)) (Parse.bytes ⟨items, tail⟩)
      have hrest := ih (s := s.said item.text) hvt hesc
        (fun b hb => hsplit b (List.mem_append_right _ hb))
      rw [said_said, ← Parse.text_cons] at hrest
      rw [← Parse.bytes_cons] at hitem
      exact hitem.trans hrest

end Run

/-- Every stream of bytes has one parse, and the console gets its text.
What is sent afterwards goes on as if the stream had come whole. -/
theorem terminal_translates (fuel : Nat) (s : State) (hvt : s.vtCnv = 1) (hesc : s.esc = 0)
    (stream : List Byte) :
    (∃! p : Parse, p.bytes = stream)
      ∧ ∀ p : Parse, p.bytes = stream → (∀ b ∈ p.args, 0x20 ≤ b.toNat) →
        ∃ t, sendAll fuel stream s = some ((), t) ∧ t = (s.said p.text).inEsc p.tail.state
          ∧ ∀ later (p' : Parse), p'.bytes = stream ++ later → (∀ b ∈ p'.args, 0x20 ≤ b.toNat) →
            sendAll fuel later t = some ((), (s.said p'.text).inEsc p'.tail.state) := by
  constructor
  · obtain ⟨p, hp⟩ := exists_parse stream
    exact ⟨p, hp, fun p' hp' => parse_unique (hp'.trans hp.symm)⟩
  · rintro p rfl hargs
    have hrun := parse_run hvt hesc fuel p hargs
    refine ⟨_, hrun, rfl, fun later p' hp' hargs' => ?_⟩
    have hwhole := parse_run hvt hesc fuel p' hargs'
    rw [hp'] at hwhole
    exact (Prog.runAll_append hrun).symm.trans hwhole

/-- The machine before its first byte. -/
def quiet : State := State.initial (Fat.blankCard [])

/-- A letter and a place for the cursor. -/
theorem terminal_translates_cursor :
    ∃ t, sendAll 0 [0x41, 0x1b, 0x3d, 0x21, 0x22] quiet = some ((), t)
      ∧ t.console.stdout = ascii "A\x1b[00002;00003H" := by
  obtain ⟨t, hrun, ht, -⟩ := (terminal_translates 0 quiet rfl rfl
    [0x41, 0x1b, 0x3d, 0x21, 0x22]).2
    ⟨[.plain 0x41 (by decide), .cursor 0x21 0x22], .none⟩ rfl (by decide)
  refine ⟨t, hrun, ?_⟩
  rw [ht]
  decide +kernel

/-- The row of a cursor sequence is not held back. -/
theorem row_sent_at_once : (⟨[], .escRow 0x21⟩ : Parse).bytes = [0x1b, 0x3d, 0x21]
    ∧ ∃ t, sendAll 0 [0x1b, 0x3d, 0x21] quiet = some ((), t)
      ∧ t.console.stdout = ascii "\x1b[00002" := by
  have hrun := parse_run (s := quiet) rfl rfl 0 ⟨[], .escRow 0x21⟩ (by decide)
  exact ⟨rfl, _, hrun, by decide +kernel⟩

end Machine

end CpMega88
