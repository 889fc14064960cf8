import CpMega88.SdcardAvr
import Mathlib.Logic.Relation

/-!
# A card that falls silent

`sdcard_open` of the AVR sends one of six commands at a time, and which it
sends next depends on the answer alone (`Stage.next`). A command that is
not answered in time yields FFFFFFFFh. CMD0, CMD8 and CMD1 give up on it;
but CMD55 and ACMD41 are repeated, and CMD58 takes it for the answer of a
card that is ready: `open_gives_up_iff`.
-/

namespace CpMega88

open Bytes Prog

namespace SdcardAvr

/-- The command to be sent. -/
inductive Stage where
  | cmd0
  | cmd8
  | cmd1
  | cmd55
  | acmd41
  | cmd58
deriving DecidableEq

namespace Stage

def command : Stage → AvrM ULong32
  | cmd0 => SdcardAvr.cmd0
  | cmd8 => SdcardAvr.cmd8
  | cmd1 => SdcardAvr.cmd1
  | cmd55 => SdcardAvr.cmd55
  | acmd41 => SdcardAvr.acmd41
  | cmd58 => SdcardAvr.cmd58

/-- The command that follows an answer, if one does. -/
def next : Stage → ULong32 → Option Stage
  | cmd0, rc => if rc ≠ 1 then none else some cmd8
  | cmd8, rc => if rc &&& 0xfff ≠ 0x1aa then some cmd1 else some cmd55
  | cmd1, rc => if rc = 0 ∨ rc = 0xffffffff then none else some cmd1
  | cmd55, _ => some acmd41
  | acmd41, rc => if rc ≠ 0 then some cmd55 else some cmd58
  | cmd58, rc => if rc &&& 0x80000000 = 0 then some cmd58 else none

/-- What is left of `sdcard_open`. -/
def rest (fuel : Nat) : Stage → Prog Avr Int
  | cmd0 => goIdle fuel
  | cmd8 => ifCond fuel
  | cmd1 => legacy fuel
  | cmd55 => standard fuel
  | acmd41 => do
    let rc ← Prog.lift SdcardAvr.acmd41
    if rc ≠ 0 then standard fuel else readOcr fuel
  | cmd58 => readOcr fuel

end Stage

/-- A command about to be sent. -/
abbrev Point := Stage × Avr

namespace Point

def answer (p : Point) : ULong32 := (p.1.command p.2).1

def after (p : Point) : Avr := (p.1.command p.2).2

/-- The command is not answered in time. -/
def TimesOut (p : Point) : Prop := polls 0 0xffff p.2.input = none

/-- What `sdcard_open` does from here on. -/
def Ends (p : Point) (r : Int × Avr) : Prop := Yields (fun fuel => p.1.rest fuel) p.2 r

end Point

/-- One command after the other. -/
def Follows (p q : Point) : Prop := p.1.next p.answer = some q.1 ∧ q.2 = p.after

/-- The command is sent at some time from here on. -/
def Later : Point → Point → Prop := Relation.ReflTransGen Follows

/-! ## One command -/

theorem command_run (stage : Stage) (avr : Avr) : Prog.lift stage.command avr
    = some (Point.answer (stage, avr), Point.after (stage, avr)) := rfl

/-- How much of the answer is left once its first bit has been seen. -/
def Stage.replyLength : Stage → Nat
  | .cmd8 => 39
  | .cmd58 => 39
  | _ => 7

theorem command_reply (stage : Stage) (avr : Avr) : ∃ bytes, stage.command avr
    = ((reply stage.replyLength avr.input).1,
      (avr.commanded bytes).clocked (reply stage.replyLength avr.input).2) := by
  cases stage <;> exact ⟨_, sdCmd_run ..⟩

theorem answer_eq (stage : Stage) (avr : Avr) :
    Point.answer (stage, avr) = (reply stage.replyLength avr.input).1 := by
  obtain ⟨bytes, hrun⟩ := command_reply stage avr
  rw [Point.answer, hrun]

theorem after_input (stage : Stage) (avr : Avr) : (Point.after (stage, avr)).input
    = fun i => avr.input (i + (reply stage.replyLength avr.input).2) := by
  obtain ⟨bytes, hrun⟩ := command_reply stage avr
  rw [Point.after, hrun]
  rfl

theorem timesOut_answer {p : Point} (h : p.TimesOut) : p.answer = 0xffffffff := by
  obtain ⟨stage, avr⟩ := p
  rw [answer_eq, reply, h]

/-! ## What follows a command -/

theorem readOcr_fueled : Fueled (readOcr (σ := Avr)) := (Fueled.attempts _).bind fun _ => .const _

theorem standard_yields {avr : Avr} {r : Int × Avr} : Yields standard avr r
    ↔ ∃ rc t, Yields (attempts readyTurn) avr (rc, t) ∧ Yields readOcr t r := by
  refine (yields_bind (Fueled.attempts _).discard fun _ => readOcr_fueled).trans ?_
  constructor
  · rintro ⟨_, t, hloop, hrest⟩
    obtain ⟨rc, hrc⟩ := yields_discard.mp hloop
    exact ⟨rc, t, hrc, hrest⟩
  · rintro ⟨rc, t, hloop, hrest⟩
    exact ⟨(), t, yields_discard.mpr ⟨rc, hloop⟩, hrest⟩

theorem legacy_yields {avr : Avr} {r : Int × Avr} : Yields legacy avr r
    ↔ ∃ rc t, Yields (attempts legacyTurn) avr (rc, t) ∧ Yields (fun _ => do
      if rc = 0xffffffff then return -2
      else if rc ≠ 0 then return -3
      else Prog.lift (opened 0)) t r :=
  yields_bind (Fueled.attempts _) fun _ => .const _

theorem readOcr_yields {avr : Avr} {r : Int × Avr} : Yields readOcr avr r
    ↔ ∃ rc t, Yields (attempts ocrTurn) avr (rc, t)
      ∧ Yields (fun _ => Prog.lift (opened (if rc &&& 0x40000000 ≠ 0 then 1 else 0))) t r :=
  yields_bind (Fueled.attempts _) fun _ => .const _

theorem legacyTurn_run {avr t : Avr} {rc : ULong32} (h : Prog.lift cmd1 avr = some (rc, t)) :
    legacyTurn avr = some (if rc = 0 ∨ rc = 0xffffffff then some rc else none, t) :=
  Prog.bind_of_run h _

theorem readyTurn_run {avr t : Avr} {rc : ULong32}
    (h : Prog.lift acmd41 (Point.after (.cmd55, avr)) = some (rc, t)) :
    readyTurn avr = some (if rc ≠ 0 then none else some rc, t) := by
  have hfirst : (discard (Prog.lift cmd55) : Prog Avr PUnit) avr
      = some ((), Point.after (.cmd55, avr)) :=
    Prog.discard_eq_some.mpr ⟨_, command_run .cmd55 avr⟩
  rw [readyTurn, Prog.bind_of_run hfirst, Prog.bind_of_run h, Prog.pure_run]

theorem ocrTurn_run {avr t : Avr} {rc : ULong32} (h : Prog.lift cmd58 avr = some (rc, t)) :
    ocrTurn avr = some (if rc &&& 0x80000000 = 0 then none else some rc, t) :=
  Prog.bind_of_run h _

/-- CMD55 and then what is left from ACMD41 on. -/
theorem standard_turn {avr : Avr} {r : Int × Avr} :
    Yields standard avr r ↔ Point.Ends (.acmd41, Point.after (.cmd55, avr)) r := by
  have hrun := command_run .acmd41 (Point.after (.cmd55, avr))
  generalize Point.answer (.acmd41, Point.after (.cmd55, avr)) = rc at hrun
  generalize Point.after (.acmd41, Point.after (.cmd55, avr)) = t at hrun
  have hturn := readyTurn_run hrun
  rw [standard_yields]
  refine Iff.trans ?_ (yields_after hrun).symm
  by_cases hrc : rc = 0
  · rw [if_neg (not_not_intro hrc)] at hturn
    simp [yields_done hturn, hrc]
  · rw [if_pos hrc] at hturn
    simp only [if_pos hrc, yields_again hturn, standard_yields]

theorem ends_follows {p q : Point} {r : Int × Avr} (h : Follows p q) : p.Ends r ↔ q.Ends r := by
  obtain ⟨stage, avr⟩ := p
  obtain ⟨stage', avr'⟩ := q
  obtain ⟨hnext, rfl⟩ := h
  have hrun := command_run stage avr
  cases stage with
  | cmd0 =>
      rw [Stage.next] at hnext
      split_ifs at hnext with hrc
      cases hnext
      refine (yields_after hrun).trans ?_
      simp only [if_neg hrc]
      exact Iff.rfl
  | cmd8 =>
      rw [Stage.next] at hnext
      refine (yields_after hrun).trans ?_
      split_ifs at hnext ⊢ with hrc <;> cases hnext <;> exact Iff.rfl
  | cmd1 =>
      rw [Stage.next] at hnext
      split_ifs at hnext with hrc
      cases hnext
      have hturn := legacyTurn_run hrun
      rw [if_neg hrc] at hturn
      simp only [Point.Ends, Stage.rest, legacy_yields, yields_again hturn]
  | cmd55 =>
      cases hnext
      exact standard_turn
  | acmd41 =>
      rw [Stage.next] at hnext
      refine (yields_after hrun).trans ?_
      split_ifs at hnext ⊢ with hrc <;> cases hnext <;> exact Iff.rfl
  | cmd58 =>
      rw [Stage.next] at hnext
      split_ifs at hnext with hrc
      cases hnext
      have hturn := ocrTurn_run hrun
      rw [if_pos hrc] at hturn
      simp only [Point.Ends, Stage.rest, readOcr_yields, yields_again hturn]

theorem ends_later {p q : Point} {r : Int × Avr} (h : Later p q) : p.Ends r ↔ q.Ends r := by
  induction h with
  | refl => exact Iff.rfl
  | tail _ hlast ih => exact ih.trans (ends_follows hlast)

/-! ## Silence -/

/-- No command is answered any more. -/
def Silent (p : Point) : Prop := ∀ q, Later p q → q.TimesOut

namespace Silent

variable {avr : Avr} {r : Int × Avr}

theorem follows {p q : Point} (h : Silent p) (hq : Follows p q) : Silent q :=
  fun _ hlater => h _ (.head hq hlater)

theorem answer {p : Point} (h : Silent p) : p.answer = 0xffffffff := timesOut_answer (h p .refl)

theorem run {stage : Stage} (h : Silent (stage, avr)) : Prog.lift stage.command avr
    = some (0xffffffff, Point.after (stage, avr)) := by
  rw [command_run, h.answer]

theorem cmd8_follows (h : Silent (.cmd8, avr)) :
    Follows (.cmd8, avr) (.cmd1, Point.after (.cmd8, avr)) :=
  ⟨by rw [h.answer]; rfl, rfl⟩

theorem cmd55_follows : Follows (.cmd55, avr) (.acmd41, Point.after (.cmd55, avr)) := ⟨rfl, rfl⟩

theorem acmd41_follows (h : Silent (.acmd41, avr)) :
    Follows (.acmd41, avr) (.cmd55, Point.after (.acmd41, avr)) :=
  ⟨by rw [h.answer]; rfl, rfl⟩

theorem cmd0 (h : Silent (.cmd0, avr)) :
    Point.Ends (.cmd0, avr) (-1, Point.after (.cmd0, avr)) :=
  ⟨0, Prog.bind_of_run h.run _⟩

theorem cmd1 (h : Silent (.cmd1, avr)) :
    Point.Ends (.cmd1, avr) (-2, Point.after (.cmd1, avr)) := by
  have hturn := legacyTurn_run h.run
  rw [if_pos (.inr rfl)] at hturn
  exact ⟨1, Prog.bind_of_run (attempts_done hturn 0) _⟩

theorem cmd8 (h : Silent (.cmd8, avr)) : ∃ t, Point.Ends (.cmd8, avr) (-2, t) :=
  ⟨_, (ends_follows h.cmd8_follows).mpr (h.follows h.cmd8_follows).cmd1⟩

/-- The loop goes round for ever. -/
theorem ready_stuck (h : Silent (.cmd55, avr)) (fuel : Nat) :
    attempts readyTurn fuel avr = none := by
  induction fuel generalizing avr with
  | zero => rfl
  | succ fuel ih =>
      have hready := h.follows cmd55_follows
      have hturn := readyTurn_run hready.run
      rw [if_pos (by decide)] at hturn
      exact (attempts_again hturn fuel).trans (ih (hready.follows hready.acmd41_follows))

theorem cmd55 (h : Silent (.cmd55, avr)) : ¬Point.Ends (.cmd55, avr) r := by
  intro hends
  obtain ⟨rc, t, ⟨fuel, hloop⟩, -⟩ := standard_yields.mp hends
  rw [h.ready_stuck fuel] at hloop
  cases hloop

theorem acmd41 (h : Silent (.acmd41, avr)) : ¬Point.Ends (.acmd41, avr) r := fun hends =>
  (h.follows h.acmd41_follows).cmd55 ((ends_follows h.acmd41_follows).mp hends)

/-- The timeout is taken for an answer. -/
theorem cmd58 (h : Silent (.cmd58, avr)) (hends : Point.Ends (.cmd58, avr) r) : r.1 = 0 := by
  have hturn := ocrTurn_run h.run
  rw [if_neg (by decide)] at hturn
  obtain ⟨rc, t, hloop, _, hopened⟩ := readOcr_yields.mp hends
  cases (yields_done hturn).mp hloop
  cases hopened
  rfl

end Silent

/-! ## Opening a card -/

/-- The driver when the first command is sent. -/
def Avr.powered (avr : Avr) : Avr := (powerUp avr).2

theorem rest_yields {avr : Avr} {r : Int × Avr} :
    Yields (fun fuel => Stage.cmd0.rest fuel) avr r ↔ Point.Ends (.cmd0, avr) r := Iff.rfl

theorem open_yields {avr : Avr} {r : Int × Avr} :
    Yields sdcardOpen avr r ↔ Point.Ends (.cmd0, avr.powered) r :=
  (yields_after (lift_unit_run powerUp avr)).trans rest_yields

/-- A command that is sent in the course of `sdcard_open`. -/
def Sent (avr : Avr) : Point → Prop := Later (.cmd0, avr.powered)

theorem Sent.next {avr : Avr} {p : Point} {stage : Stage} (h : Sent avr p)
    (hnext : p.1.next p.answer = some stage) : Sent avr (stage, p.after) := h.tail ⟨hnext, rfl⟩

/-! ### A line that stays high -/

/-- The pull-up resistor holds the line. -/
def High (avr : Avr) : Prop := ∀ i, avr.input i &&& pDo ≠ 0

theorem polls_high {input : Nat → Byte} (h : ∀ i, input i &&& pDo ≠ 0) (n : Nat) :
    polls 0 n input = none := by
  induction n generalizing input with
  | zero => rfl
  | succ n ih =>
      have hwait : ¬(0 &&& pDo = input 0 &&& pDo) := fun heq => h 0 (heq.symm.trans (by decide))
      rw [polls, if_neg hwait, ih fun i => h (i + 1)]
      rfl

theorem silent_of_high {p : Point} (h : High p.2) : Silent p := by
  intro q hlater
  have hq : High q.2 := by
    induction hlater with
    | refl => exact h
    | tail _ hlast ih =>
        intro i
        rw [hlast.2, after_input]
        exact ih _
  exact polls_high hq 0xffff

theorem reply_at_once {input : Nat → Byte} (h : input 0 &&& pDo = 0) (n : Nat) :
    reply n input = (bits n 0 fun i => input (i + 1), 1 + n) := by
  have hfirst : polls 0 (0xfffe + 1) input = some 0 := by
    rw [polls, h]
    rfl
  rw [reply, hfirst]

theorem initClock_input (n : Nat) (avr : Avr) : (initClock n avr).2.input = avr.input := by
  induction n generalizing avr with
  | zero => rfl
  | succ n ih =>
      rw [initClock, Runs.bind_run, Runs.bind_run, ih]
      rfl

theorem powered_input (avr : Avr) : avr.powered.input = avr.input := by
  rw [Avr.powered, powerUp, Runs.bind_run, Runs.bind_run, initClock_input]
  rfl

/-- A card that sends these bytes at once, and nothing more. -/
def answering (bytes : List Byte) : Avr where
  buffer := fun _ => 0
  crc := 0
  curBlk := 0
  ccs := 0
  ck := false
  di := false
  cs := false
  input := fun i => if (bytes.flatMap wire).getD i true then pDo else 0
  sent := []

theorem answering_high {bytes : List Byte} {i : Nat} (h : bytes.length * 8 ≤ i) :
    (answering bytes).input i &&& pDo ≠ 0 := by
  have hlength : (bytes.flatMap wire).length = bytes.length * 8 := by
    simp [List.length_flatMap, wire]
  have hover : (bytes.flatMap wire).getD i true = true := by
    rw [List.getD_eq_getElem?_getD, List.getElem?_eq_none (hlength.trans_le h)]
    rfl
  have hline : (answering bytes).input i = pDo := if_pos hover
  rw [hline]
  decide

/-- If the card is silent from some command on, `sdcard_open` gives up if
and only if that is CMD0, CMD8 or CMD1. -/
theorem open_gives_up_iff (avr : Avr) (p : Point) (hsent : Sent avr p) (hsilent : Silent p) :
    (∃ r, Yields sdcardOpen avr r ∧ r.1 < 0)
      ↔ p.1 = .cmd0 ∨ p.1 = .cmd8 ∨ p.1 = .cmd1 := by
  have hends (r : Int × Avr) : Yields sdcardOpen avr r ↔ p.Ends r :=
    open_yields.trans (ends_later hsent)
  simp only [hends]
  obtain ⟨stage, avr'⟩ := p
  cases stage with
  | cmd0 => exact iff_of_true ⟨_, hsilent.cmd0, Int.negSucc_lt_zero 0⟩ (.inl rfl)
  | cmd8 =>
      obtain ⟨t, ht⟩ := hsilent.cmd8
      exact iff_of_true ⟨_, ht, Int.negSucc_lt_zero 1⟩ (.inr (.inl rfl))
  | cmd1 => exact iff_of_true ⟨_, hsilent.cmd1, Int.negSucc_lt_zero 1⟩ (.inr (.inr rfl))
  | cmd55 => exact iff_of_false (fun ⟨_, hr, _⟩ => hsilent.cmd55 hr) (by simp)
  | acmd41 => exact iff_of_false (fun ⟨_, hr, _⟩ => hsilent.acmd41 hr) (by simp)
  | cmd58 =>
      refine iff_of_false ?_ (by simp)
      rintro ⟨r, hr, hneg⟩
      rw [hsilent.cmd58 hr] at hneg
      exact absurd hneg (by decide)

/-- A card that answers CMD0 and no more. -/
theorem open_gives_up_cmd8 : ∃ r, Yields sdcardOpen (answering [0x01]) r ∧ r.1 < 0 := by
  have hready : (answering [0x01]).input 0 &&& pDo = 0 := by decide
  have hreply := reply_at_once hready 7
  have hanswer : Point.answer (.cmd0, (answering [0x01]).powered) = 1 := by
    rw [answer_eq, powered_input]
    exact (congrArg Prod.fst hreply).trans (by decide)
  have hsent : Sent (answering [0x01]) (.cmd8, Point.after (.cmd0, (answering [0x01]).powered)) :=
    Sent.next .refl (by rw [hanswer]; rfl)
  have hsilent : Silent (.cmd8, Point.after (.cmd0, (answering [0x01]).powered)) := by
    refine silent_of_high fun i => ?_
    rw [after_input, powered_input]
    exact answering_high ((congrArg Prod.snd hreply).symm.le.trans (Nat.le_add_left _ _))
  exact (open_gives_up_iff (answering [0x01]) _ hsent hsilent).mpr (.inr (.inl rfl))

/-- A card that is silent once it has told its voltage is waited for
without end. -/
theorem open_hangs : ∃ p, Sent (answering [0x01, 0x01, 0x00, 0x00, 0x01, 0xaa]) p ∧ Silent p
    ∧ ∀ r, ¬Yields sdcardOpen (answering [0x01, 0x01, 0x00, 0x00, 0x01, 0xaa]) r := by
  generalize hcard : answering [0x01, 0x01, 0x00, 0x00, 0x01, 0xaa] = card
  have hinput : card.input = (answering [0x01, 0x01, 0x00, 0x00, 0x01, 0xaa]).input := by
    rw [hcard]
  have hidle : reply Stage.cmd0.replyLength card.input = (1, 8) := by
    rw [hinput, reply_at_once (by decide)]
    decide
  have hcond : reply Stage.cmd8.replyLength (fun i => card.input (i + 8)) = (0x1aa, 40) := by
    rw [hinput, reply_at_once (by decide)]
    decide
  have hcmd0 : Sent card (.cmd8, Point.after (.cmd0, card.powered)) := by
    refine Sent.next .refl ?_
    rw [answer_eq, powered_input, hidle]
    rfl
  have hcmd8 := after_input .cmd0 card.powered
  rw [powered_input, hidle] at hcmd8
  have hlast : Sent card (.cmd55, Point.after (.cmd8, Point.after (.cmd0, card.powered))) := by
    refine hcmd0.next ?_
    rw [answer_eq, hcmd8, hcond]
    rfl
  have hsilent : Silent (.cmd55, Point.after (.cmd8, Point.after (.cmd0, card.powered))) := by
    refine silent_of_high fun i => ?_
    rw [after_input, hcmd8, hcond, hinput]
    exact answering_high (Nat.le_add_left 48 i)
  refine ⟨_, hlast, hsilent, fun r hyields => ?_⟩
  exact hsilent.cmd55 ((ends_later hlast).mp (open_yields.mp hyields))

end SdcardAvr

end CpMega88
