import CpMega88.Machine

/-!
# Input on the console

The guest polls port 0 and reads port 1, the monitor calls `con_peek` and
`con_getchar` itself: all of it is some interleaving of these two calls
(`input_calls`). Between them stands one byte of look-ahead.

`con_getchar` asks for a byte only if none is held; `con_peek` asks
without looking, and what it held is gone. `none_lost_iff` says that this
is the only way a byte gets lost: input arrives unharmed exactly when no
`con_peek` finds a byte already held.
-/

namespace CpMega88

open Bytes Runs

namespace Con

inductive Call where
  | peek
  | getchar
deriving DecidableEq

def Call.run : Call → ConM Int
  | .peek => Con.peek
  | .getchar => Con.getchar

/-- The calls, one after the other, with what each of them returns. -/
def answers : List Call → ConM (List (Call × Int))
  | [] => return []
  | c :: cs => do
    let r ← c.run
    return (c, r) :: (← answers cs)

/-- A byte, or -1 for none. -/
def present (c : Int) : List Int := if c = -1 then [] else [c]

/-- What `con_getchar` has returned other than -1. -/
def delivered (rs : List (Call × Int)) : List Int :=
  rs.flatMap fun r => if r.1 = .getchar then present r.2 else []

/-- The byte that `con_peek` has found and nobody has read. -/
def Console.held (con : Console) : List Int := present con.fifoFlag

/-- The bytes among what `fgetc` finds. -/
def bytes (found : List (Option Byte)) : List Int :=
  found.filterMap fun c => c.map fun b => (b.toNat : Int)

/-- The bytes taken from the input between two of its states. -/
def consumed (stdin stdin' : List (Option Byte)) : List Int :=
  bytes (stdin.take (stdin.length - stdin'.length))

/-- `con_init`. -/
def start (stdin : List (Option Byte)) : Console := ⟨[], stdin, -1⟩

/-- Every byte consumed has been delivered, in order, or is held; and a
byte that `con_peek` has announced is the one that `con_getchar` returns,
however often `con_peek` is called in between. -/
structure NoneLost (stdin : List (Option Byte)) (cs : List Call) : Prop where
  conserved : delivered (answers cs (start stdin)).1 ++ (answers cs (start stdin)).2.held
    = consumed stdin (answers cs (start stdin)).2.stdin
  announced : ∀ cs₁ k cs₂, cs = cs₁ ++ .peek :: (List.replicate k .peek ++ .getchar :: cs₂) →
    let found := Con.peek (answers cs₁ (start stdin)).2
    found.1 = 1 → (Con.getchar (answers (List.replicate k .peek) found.2).2).1 = found.2.fifoFlag

/-- No `con_peek` finds a byte already held. -/
def Unheld : List Call → Console → Prop
  | [], _ => True
  | c :: cs, con => (c = .peek → con.fifoFlag = -1) ∧ Unheld cs (c.run con).2

/-! ## One call -/

/-- What `fgetc` finds. -/
def Console.next (con : Console) : Option Byte := con.stdin.headD none

def orEof : Option Byte → Int
  | some c => c.toNat
  | none => -1

theorem orEof_eq_neg_one {c : Option Byte} : orEof c = -1 ↔ c = none := by
  cases c with
  | none => simp [orEof]
  | some c => simp [orEof]

theorem fgetc_run (con : Console) :
    fgetc con = (orEof con.next, { con with stdin := con.stdin.tail }) := by
  have hrun : fgetc con = ((match con.next with
      | some c => c.toNat
      | none => -1), { con with stdin := con.stdin.tail }) := rfl
  rw [hrun]
  cases con.next <;> rfl

theorem peek_run (con : Console) : Con.peek con
    = (if orEof con.next ≠ -1 then 1 else 0,
      { con with stdin := con.stdin.tail, fifoFlag := orEof con.next }) := by
  rw [Con.peek, bind_of_run (fgetc_run con), modify_bind_run, pure_run]

theorem getchar_run (con : Console) : Con.getchar con
    = if con.fifoFlag = -1 then
        (orEof con.next, { con with stdin := con.stdin.tail, fifoFlag := -1 })
      else (con.fifoFlag, { con with fifoFlag := -1 }) := by
  have hend (con : Console) : (do
      let rc := (← get).fifoFlag
      if rc ≠ -1 then
        modify fun con => { con with fifoFlag := -1 }
        return rc
      else return -1 : ConM Int) con
      = if con.fifoFlag = -1 then (-1, con) else (con.fifoFlag, { con with fifoFlag := -1 }) := by
    rw [get_bind_run, ite_run, modify_bind_run, pure_run, pure_run, ite_not]
  have hpeek : (discard Con.peek : ConM PUnit) con
      = ((), { con with stdin := con.stdin.tail, fifoFlag := orEof con.next }) := by
    rw [discard_run, peek_run]
  rw [Con.getchar, get_bind_run, ite_run, bind_of_run hpeek]
  split_ifs with hempty
  · refine (hend _).trans ?_
    by_cases hnone : orEof con.next = -1
    · rw [if_pos hnone, hnone]
    · rw [if_neg hnone]
  · exact (hend con).trans (if_neg hempty)

theorem bytes_append (l l' : List (Option Byte)) : bytes (l ++ l') = bytes l ++ bytes l' :=
  List.filterMap_append

theorem bytes_take_one (l : List (Option Byte)) :
    bytes (l.take 1) = present (orEof (l.headD none)) := by
  rcases l with _ | ⟨_ | c, l⟩
  · rfl
  · rfl
  · rw [List.headD_cons, present, if_neg (mt orEof_eq_neg_one.mp (Option.some_ne_none c))]
    rfl

theorem consumed_append (taken stdin' : List (Option Byte)) :
    consumed (taken ++ stdin') stdin' = bytes taken := by
  rw [consumed, List.length_append, Nat.add_sub_cancel, List.take_left]

theorem delivered_peek (r : Int) : delivered [(.peek, r)] = [] := rfl

theorem delivered_getchar (r : Int) : delivered [(.getchar, r)] = present r :=
  List.append_nil _

theorem present_none : present (-1) = [] := rfl

theorem present_some {c : Int} (h : c ≠ -1) : present c = [c] := if_neg h

/-- The call loses a byte. -/
def Loses (c : Call) (con : Console) : Prop := c = .peek ∧ con.fifoFlag ≠ -1

/-- The bytes a call takes from the input, and what becomes of them and of
the byte held. -/
theorem call_step (c : Call) (con : Console) : ∃ taken,
    con.stdin = taken ++ (c.run con).2.stdin
      ∧ (¬Loses c con → delivered [(c, (c.run con).1)] ++ (c.run con).2.held
        = con.held ++ bytes taken)
      ∧ (Loses c con → (delivered [(c, (c.run con).1)] ++ (c.run con).2.held).length
        < (con.held ++ bytes taken).length) := by
  have htake : con.stdin = con.stdin.take 1 ++ con.stdin.tail := by
    rw [← List.drop_one, List.take_append_drop]
  have hbytes : bytes (con.stdin.take 1) = present (orEof con.next) := bytes_take_one con.stdin
  cases c with
  | peek =>
      have hrun : Call.peek.run con = _ := peek_run con
      refine ⟨con.stdin.take 1, by rw [hrun]; exact htake, fun hkeep => ?_, fun hlose => ?_⟩
      · have hempty : con.fifoFlag = -1 := not_not.mp fun h => hkeep ⟨rfl, h⟩
        rw [hrun, hbytes, delivered_peek, Console.held, Console.held, hempty]
        rfl
      · rw [hrun, hbytes, delivered_peek, Console.held, Console.held, present_some hlose.2,
          List.nil_append, List.singleton_append, List.length_cons]
        exact Nat.lt_succ_self _
  | getchar =>
      have hrun : Call.getchar.run con = _ := getchar_run con
      have hno : ¬Loses .getchar con := fun h => absurd h.1 (by decide)
      split_ifs at hrun with hempty
      · refine ⟨con.stdin.take 1, by rw [hrun]; exact htake, fun _ => ?_, fun h => absurd h hno⟩
        rw [hrun, hbytes, delivered_getchar, Console.held, Console.held, hempty, present_none,
          List.append_nil, List.nil_append]
      · refine ⟨[], by rw [hrun]; rfl, fun _ => ?_, fun h => absurd h hno⟩
        rw [hrun, delivered_getchar]
        rfl

/-! ## Any number of calls -/

theorem answers_cons (c : Call) (cs : List Call) (con : Console) :
    answers (c :: cs) con = ((c, (c.run con).1) :: (answers cs (c.run con).2).1,
      (answers cs (c.run con).2).2) := rfl

theorem delivered_cons (r : Call × Int) (rs : List (Call × Int)) :
    delivered (r :: rs) = delivered [r] ++ delivered rs := by
  rw [delivered, delivered, delivered, List.flatMap_cons, List.flatMap_singleton]

theorem unheld_cons {c : Call} {cs : List Call} {con : Console} :
    Unheld (c :: cs) con ↔ ¬Loses c con ∧ Unheld cs (c.run con).2 := by
  rw [Unheld, Loses, not_and_not_right]

theorem answers_step (cs : List Call) (con : Console) : ∃ taken,
    con.stdin = taken ++ (answers cs con).2.stdin
      ∧ (Unheld cs con →
        delivered (answers cs con).1 ++ (answers cs con).2.held = con.held ++ bytes taken)
      ∧ (¬Unheld cs con → (delivered (answers cs con).1 ++ (answers cs con).2.held).length
        < (con.held ++ bytes taken).length) := by
  induction cs generalizing con with
  | nil => exact ⟨[], rfl, fun _ => (List.append_nil _).symm, fun h => absurd trivial h⟩
  | cons c cs ih =>
      obtain ⟨taken, hin, hkeep, hlose⟩ := call_step c con
      obtain ⟨taken', hin', hkeep', hlose'⟩ := ih (c.run con).2
      refine ⟨taken ++ taken', ?_, fun h => ?_, fun h => ?_⟩
      · rw [hin, hin', List.append_assoc]
        rfl
      · obtain ⟨hc, hcs⟩ := unheld_cons.mp h
        rw [answers_cons, delivered_cons, List.append_assoc, hkeep' hcs, ← List.append_assoc,
          hkeep hc, bytes_append, List.append_assoc]
      · have hrest : (delivered (answers cs (c.run con).2).1
            ++ (answers cs (c.run con).2).2.held).length
            ≤ ((c.run con).2.held ++ bytes taken').length := by
          by_cases hcs : Unheld cs (c.run con).2
          · exact (congrArg List.length (hkeep' hcs)).le
          · exact (hlose' hcs).le
        rw [answers_cons, delivered_cons, bytes_append]
        simp only [List.length_append] at hrest hlose hlose' ⊢
        by_cases hc : Loses c con
        · have := hlose hc
          omega
        · have := hlose' fun hcs => h (unheld_cons.mpr ⟨hc, hcs⟩)
          have := congrArg List.length (hkeep hc)
          simp only [List.length_append] at this
          omega

theorem unheld_append {cs cs' : List Call} {con : Console} :
    Unheld (cs ++ cs') con ↔ Unheld cs con ∧ Unheld cs' (answers cs con).2 := by
  induction cs generalizing con with
  | nil => exact (and_iff_right trivial).symm
  | cons c cs ih => rw [List.cons_append, unheld_cons, unheld_cons, ih, and_assoc]; rfl

/-- No byte of the input is lost if and only if no `con_peek` finds a byte
already held. -/
theorem none_lost_iff (stdin : List (Option Byte)) (cs : List Call) :
    NoneLost stdin cs ↔ Unheld cs (start stdin) := by
  obtain ⟨taken, hin, hkeep, hlose⟩ := answers_step cs (start stdin)
  have hin : stdin = taken ++ (answers cs (start stdin)).2.stdin := hin
  have hconsumed : consumed stdin (answers cs (start stdin)).2.stdin = bytes taken := by
    rw [← consumed_append taken (answers cs (start stdin)).2.stdin, ← hin]
  constructor
  · intro h
    by_contra hno
    have hlt := hlose hno
    rw [h.conserved, hconsumed] at hlt
    exact absurd hlt (lt_irrefl _)
  · intro h
    refine ⟨(hkeep h).trans hconsumed.symm, ?_⟩
    intro cs₁ k cs₂ hcs found hfound
    rw [hcs, unheld_append, unheld_cons] at h
    obtain ⟨-, -, hrest⟩ := h
    have hrun : found = _ := peek_run _
    have hheld : found.2.fifoFlag ≠ -1 := by
      intro hnone
      rw [hrun] at hfound hnone
      rw [if_neg (not_not_intro hnone)] at hfound
      exact absurd hfound (by decide : ¬(0 : Int) = 1)
    cases k with
    | zero =>
        have hget : Con.getchar found.2 = _ := getchar_run found.2
        rw [if_neg hheld] at hget
        exact congrArg Prod.fst hget
    | succ k =>
        rw [List.replicate_succ, List.cons_append, unheld_cons] at hrest
        exact absurd ⟨rfl, hheld⟩ hrest.1

/-- Two polls, and the byte that arrived is gone. -/
theorem second_peek_loses : ¬NoneLost [some 0x41, none] [.peek, .peek, .getchar] :=
  fun h => absurd h.conserved (by decide)

/-! ## The ports -/

theorem waitChar_calls {left : Nat} {con con' : Console} {c : Int}
    (h : Machine.waitChar left con = some (c, con')) : ∃ n,
    (answers (List.replicate n .getchar) con).2 = con'
      ∧ delivered (answers (List.replicate n .getchar) con).1 = [c] := by
  induction left generalizing con with
  | zero => cases h
  | succ left ih =>
      have hget : Prog.lift Con.getchar con
          = some ((Call.getchar.run con).1, (Call.getchar.run con).2) := rfl
      rw [Machine.waitChar, Prog.bind_of_run hget, Prog.ite_run] at h
      split_ifs at h with hnone
      · obtain ⟨n, hrun, hdelivered⟩ := ih h
        refine ⟨n + 1, hrun, ?_⟩
        rw [List.replicate_succ, answers_cons, delivered_cons, delivered_getchar, hnone,
          present_none]
        exact hdelivered
      · cases h
        exact ⟨1, rfl, (delivered_getchar _).trans (present_some hnone)⟩

end Con

namespace Machine

open CpMega88.Con (answers delivered)

/-- Reading port 0 is one `con_peek`, reading port 1 some number of calls
of `con_getchar`, the last of which returns a byte. -/
theorem input_calls {s s' : State} {b : Byte} :
    (input 0 s = some (b, s') → s'.console = (answers [.peek] s.console).2)
      ∧ (input 1 s = some (b, s') → ∃ n c,
        s'.console = (answers (List.replicate n .getchar) s.console).2
          ∧ delivered (answers (List.replicate n .getchar) s.console).1 = [c]
          ∧ b = BitVec.ofInt 8 c) := by
  constructor
  · intro h
    have hpeek : onConsole (Prog.lift Con.peek) s
        = some ((Con.peek s.console).1, { s with console := (Con.peek s.console).2 }) := rfl
    have hinput : input 0 = do
        if (← onConsole (Prog.lift Con.peek)) ≠ 0 then return 0xff else return 0 := rfl
    rw [hinput, Prog.bind_of_run hpeek, Prog.ite_run] at h
    split_ifs at h <;> cases h <;> rfl
  · intro h
    have hinput : input 1 = do
        let c ← onConsole (waitChar ((← get).console.stdin.length + 1))
        return BitVec.ofInt 8 c := rfl
    rw [hinput, Prog.get_bind_run] at h
    obtain ⟨c, t, hwait, hend⟩ := Prog.bind_eq_some.mp h
    rw [onConsole_run, Option.map_eq_some_iff] at hwait
    obtain ⟨⟨c', con⟩, hwait, hr⟩ := hwait
    cases hr
    cases hend
    obtain ⟨n, hrun, hdelivered⟩ := Con.waitChar_calls hwait
    exact ⟨n, c', hrun.symm, hdelivered, rfl⟩

end Machine

end CpMega88
