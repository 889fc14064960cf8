import CpMega88.Lib.Bytes
import CpMega88.Lib.Ring
import CpMega88.Lib.Runs

/-!
# The receive queue of the software UART

`con_avr_uart.c`: the bytes received wait in a ring of eight slots. The
test for a full ring compares the read index with the write index plus
one before that is cut to three bits, so with the read index at 0 it
never fires, and the eighth byte makes the ring look empty.

`uart_queue_iff` says that this is all that is wrong: the calls behave as
a bounded queue of seven bytes exactly as long as no byte comes to a full
ring whose read index is 0.
-/

namespace CpMega88

open Bytes Runs Ring

namespace Uart

structure Fifo where
  fifo : Nat → Byte
  fifoRdptr : Byte
  fifoWrptr : Byte

def Fifo.initial : Fifo := ⟨fun _ => 0, 0, 0⟩

abbrev UartM := StateM Fifo

/-- `uart_push`; the comparison is made in `int`. -/
def uartPush (c : Byte) : UartM Unit := do
  let s ← get
  if s.fifoRdptr.toNat ≠ s.fifoWrptr.toNat + 1 then
    modify fun s => { s with
      fifo := Function.update s.fifo s.fifoWrptr.toNat c
      fifoWrptr := (s.fifoWrptr + 1) &&& 7 }

def getchar : UartM Int := do
  let s ← get
  if s.fifoRdptr = s.fifoWrptr then return -1
  else
    modify fun s => { s with fifoRdptr := (s.fifoRdptr + 1) &&& 7 }
    return (s.fifo s.fifoRdptr.toNat).toNat

def peek : UartM Int := return (((← get).fifoWrptr - (← get).fifoRdptr) &&& 7).toNat

/-! ## Calls -/

/-- A byte comes in, or one is asked for. -/
inductive Call where
  | push (c : Byte)
  | getchar

def Call.run : Call → UartM (List Int)
  | .push c => do
    uartPush c
    return []
  | .getchar => return [← Uart.getchar]

/-- What `con_getchar` returns in a sequence of calls. -/
def answers : List Call → UartM (List Int)
  | [] => return []
  | c :: cs => return (← c.run) ++ (← answers cs)

/-- What the call means for a queue. -/
def Call.op : Call → BQueue.Op Byte
  | .push c => .push c
  | .getchar => .pop

/-- -1 if there is nothing. -/
def orEmpty : Option Byte → Int
  | some c => c.toNat
  | none => -1

/-- The calls do what a queue of seven bytes does. -/
structure Queued (cs : List Call) : Prop where
  answers : (answers cs .initial).1 = (BQueue.run 7 (cs.map Call.op) []).1.map orEmpty
  peek : (peek (Uart.answers cs .initial).2).1 = (BQueue.run 7 (cs.map Call.op) []).2.length

/-- The byte comes to a full ring whose read index is 0. -/
def Overruns (s : Fifo) : Call → Prop
  | .push _ => s.fifoRdptr = 0 ∧ s.fifoWrptr = 7
  | .getchar => False

/-- No call overruns the ring. -/
def Fits : List Call → Fifo → Prop
  | [], _ => True
  | c :: cs, s => ¬Overruns s c ∧ Fits cs (c.run s).2

/-! ## One call -/

/-- The ring holds the bytes of the queue. -/
structure Holds (s : Fifo) (q : List Byte) : Prop where
  rd : s.fifoRdptr.toNat < 8
  wr : s.fifoWrptr.toNat < 8
  contents : contents 8 s.fifo s.fifoRdptr.toNat s.fifoWrptr.toNat = q

theorem toNat_wrap {i : Byte} (h : i.toNat < 8) : ((i + 1) &&& 7).toNat = next 8 i.toNat :=
  toNat_next (k := 3) rfl (by decide) h

theorem Holds.length {s : Fifo} {q : List Byte} (h : Holds s q) :
    q.length = count 8 s.fifoRdptr.toNat s.fifoWrptr.toNat := by
  rw [← h.contents, contents_length]

theorem Holds.peek {s : Fifo} {q : List Byte} (h : Holds s q) :
    (Uart.peek s).1 = q.length := by
  have hcount := toNat_count (k := 3) (m := 7) rfl (by decide) h.rd h.wr
  rw [h.length]
  exact congrArg Int.ofNat hcount

theorem uartPush_run (c : Byte) (s : Fifo) : uartPush c s
    = ((), if s.fifoRdptr.toNat ≠ s.fifoWrptr.toNat + 1 then { s with
        fifo := Function.update s.fifo s.fifoWrptr.toNat c
        fifoWrptr := (s.fifoWrptr + 1) &&& 7 } else s) := by
  rw [uartPush, get_bind_run, ite_run]
  split <;> rfl

theorem getchar_run (s : Fifo) : Uart.getchar s
    = if s.fifoRdptr = s.fifoWrptr then ((-1 : Int), s)
      else (((s.fifo s.fifoRdptr.toNat).toNat : Int),
        { s with fifoRdptr := (s.fifoRdptr + 1) &&& 7 }) := by
  rw [Uart.getchar, get_bind_run, ite_run]
  rfl

theorem push_run (c : Byte) (s : Fifo) : (Call.push c).run s = ([], (uartPush c s).2) := rfl

theorem pop_run (s : Fifo) :
    Call.getchar.run s = ([(Uart.getchar s).1], (Uart.getchar s).2) := rfl

/-- The test for a full ring is right but for one position. -/
theorem full_test {s : Fifo} {q : List Byte} (h : Holds s q) :
    s.fifoRdptr.toNat = s.fifoWrptr.toNat + 1 ∨ s.fifoRdptr = 0 ∧ s.fifoWrptr = 7
      ↔ next 8 s.fifoWrptr.toNat = s.fifoRdptr.toNat := by
  have hrd : s.fifoRdptr = 0 ↔ s.fifoRdptr.toNat = 0 := BitVec.toNat_inj.symm
  have hwr : s.fifoWrptr = 7 ↔ s.fifoWrptr.toNat = 7 := BitVec.toNat_inj.symm
  have hlt := h.rd
  rw [hrd, hwr]
  rcases next_cases h.wr with ⟨hnext, hin⟩ | ⟨hnext, hend⟩
  · rw [hnext]
    omega
  · rw [hnext]
    omega

/-- A call that does not overrun the ring does what the queue does. -/
theorem call_holds {s : Fifo} {q : List Byte} (h : Holds s q) {c : Call} (hfits : ¬Overruns s c) :
    (c.run s).1 = (BQueue.step 7 q c.op).1.map orEmpty
      ∧ Holds (c.run s).2 (BQueue.step 7 q c.op).2 := by
  have hlength := h.length
  cases c with
  | push c =>
      have hfits : ¬(s.fifoRdptr = 0 ∧ s.fifoWrptr = 7) := hfits
      have hfull := full_iff h.rd h.wr
      rw [← full_test h, or_iff_left hfits] at hfull
      rw [push_run, uartPush_run]
      refine ⟨rfl, ?_⟩
      by_cases hroom : s.fifoRdptr.toNat = s.fifoWrptr.toNat + 1
      · have hadmitted : BQueue.admitted 7 q c = [] := by
          have := hfull.mp hroom
          exact if_neg (by omega)
        rw [if_neg (not_not_intro hroom)]
        show Holds s (q ++ BQueue.admitted 7 q c)
        rw [hadmitted, List.append_nil]
        exact h
      · have hfree : next 8 s.fifoWrptr.toNat ≠ s.fifoRdptr.toNat := fun hnext =>
          hroom (((full_test h).mpr hnext).resolve_right hfits)
        have hadmitted : BQueue.admitted 7 q c = [c] := by
          have hlt : count 8 s.fifoRdptr.toNat s.fifoWrptr.toNat < 8 := count_lt h.wr
          exact if_pos (by omega)
        rw [if_pos hroom]
        refine ⟨h.rd, (toNat_wrap h.wr).trans_lt (next_lt h.wr), ?_⟩
        show contents 8 _ _ ((s.fifoWrptr + 1) &&& 7).toNat = q ++ BQueue.admitted 7 q c
        rw [toNat_wrap h.wr, contents_push h.rd h.wr hfree (Function.update_self _ _ _),
          contents_store h.rd, h.contents, hadmitted]
  | getchar =>
      rw [pop_run, getchar_run]
      have hempty : count 8 s.fifoRdptr.toNat s.fifoWrptr.toNat = 0
          ↔ s.fifoRdptr.toNat = s.fifoWrptr.toNat := count_eq_zero h.rd
      rw [BitVec.toNat_inj] at hempty
      split_ifs with hsame
      · have hnil : q = [] := List.length_eq_zero_iff.mp (hlength.trans (hempty.mpr hsame))
        subst hnil
        exact ⟨rfl, h⟩
      · have hne : s.fifoRdptr.toNat ≠ s.fifoWrptr.toNat := fun he =>
          hsame (BitVec.eq_of_toNat_eq he)
        have hpop := contents_pop h.rd h.wr hne s.fifo
        rw [h.contents] at hpop
        subst hpop
        refine ⟨rfl, (toNat_wrap h.rd).trans_lt (next_lt h.rd), h.wr, ?_⟩
        show contents 8 s.fifo ((s.fifoRdptr + 1) &&& 7).toNat _ = _
        rw [toNat_wrap h.rd]
        rfl

/-- A call that does makes the ring look empty. -/
theorem call_overruns {s : Fifo} {q : List Byte} (h : Holds s q) {c : Call} (hover : Overruns s c) :
    (Uart.peek (c.run s).2).1 ≠ (BQueue.step 7 q c.op).2.length := by
  cases c with
  | getchar => exact absurd hover id
  | push c =>
      obtain ⟨hrd, hwr⟩ := hover
      have hlength := h.length
      rw [hrd, hwr] at hlength
      have hfull : q.length = 7 := hlength
      have hqueue : (BQueue.step 7 q (Call.push c).op).2.length = 7 := by
        show (q ++ BQueue.admitted 7 q c).length = 7
        rw [BQueue.admitted, if_neg (by omega), List.append_nil, hfull]
      have hpeek : (Uart.peek ((Call.push c).run s).2).1 = 0 := by
        rw [push_run, uartPush_run, hrd, hwr, if_pos (by decide)]
        exact (by decide : ((((((7 : Byte) + 1) &&& 7) - 0) &&& 7).toNat : Int) = 0)
      rw [hqueue, hpeek]
      decide

/-! ## Any number of calls -/

/-- From a state that holds the queue's bytes, the calls do what the queue
does. -/
def Agrees (cs : List Call) (s : Fifo) (q : List Byte) : Prop :=
  (answers cs s).1 = (BQueue.run 7 (cs.map Call.op) q).1.map orEmpty
    ∧ (Uart.peek (answers cs s).2).1 = (BQueue.run 7 (cs.map Call.op) q).2.length

theorem agrees_cons {s : Fifo} {q : List Byte} (h : Holds s q) {c : Call}
    (hfits : ¬Overruns s c) (cs : List Call) :
    Agrees (c :: cs) s q ↔ Agrees cs (c.run s).2 (BQueue.step 7 q c.op).2 := by
  have hrun : answers (c :: cs) s
      = ((c.run s).1 ++ (answers cs (c.run s).2).1, (answers cs (c.run s).2).2) := rfl
  rw [Agrees, Agrees, hrun, List.map_cons, BQueue.run, List.map_append, (call_holds h hfits).1,
    List.append_cancel_left_eq]

/-- As long as every call so far has done what the queue does, none has
overrun the ring, and the other way around. -/
theorem agrees_iff (cs : List Call) {s : Fifo} {q : List Byte} (h : Holds s q) :
    (∀ cs', cs' <+: cs → Agrees cs' s q) ↔ Fits cs s := by
  induction cs generalizing s q with
  | nil =>
      refine ⟨fun _ => trivial, fun _ cs' hcs' => ?_⟩
      rw [List.prefix_nil.mp hcs']
      exact ⟨rfl, h.peek⟩
  | cons c cs ih =>
      constructor
      · intro hall
        have hfits : ¬Overruns s c := by
          intro hover
          have hone := hall [c] ⟨cs, rfl⟩
          exact call_overruns h hover hone.2
        refine ⟨hfits, (ih (call_holds h hfits).2).mp fun cs' hcs' => ?_⟩
        have hbegins : c :: cs' <+: c :: cs := List.prefix_cons_iff.mpr (.inr ⟨cs', rfl, hcs'⟩)
        exact (agrees_cons h hfits cs').mp (hall _ hbegins)
      · rintro ⟨hfits, hrest⟩ cs' hcs'
        rcases List.prefix_cons_iff.mp hcs' with rfl | ⟨cs'', rfl, hcs''⟩
        · exact ⟨rfl, h.peek⟩
        · exact (agrees_cons h hfits cs'').mpr ((ih (call_holds h hfits).2).mpr hrest cs'' hcs'')

theorem initial_holds : Holds .initial [] := ⟨by decide, by decide, rfl⟩

/-- At every moment of a run the calls have done what a queue of seven
bytes does, if and only if no byte has come to a full ring whose read
index is 0. -/
theorem uart_queue_iff (cs : List Call) :
    (∀ cs', cs' <+: cs → Queued cs') ↔ Fits cs .initial := by
  rw [← agrees_iff cs initial_holds]
  constructor
  · intro h cs' hcs'
    exact ⟨(h cs' hcs').answers, (h cs' hcs').peek⟩
  · intro h cs' hcs'
    exact ⟨(h cs' hcs').1, (h cs' hcs').2⟩

/-- The eighth byte empties the queue. -/
theorem eighth_byte_empties :
    ¬Queued [.push 1, .push 2, .push 3, .push 4, .push 5, .push 6, .push 7, .push 8, .getchar] :=
  fun h => absurd h.answers (by decide)

end Uart

end CpMega88
