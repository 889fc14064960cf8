import CpMega88.CardProtocol

/-!
# From power-up to a card that is ready

`sdcard_open` with a card on the pins. A card of version 1 does not know
CMD8 and is asked by CMD1 until it is ready; one of version 2 is asked by
ACMD41, and says then whether it counts blocks. However often it has to
be asked, and however long it takes to answer, the driver ends up knowing
the card (`open_ready`).
-/

namespace CpMega88

open Bytes Runs

namespace SdcardPins

open SpiCard (Card bitsOf number)

/-- What a card is, apart from what it is doing. -/
def core (c : Card) : Card :=
  { c with
    idle := false
    wakes := 0
    app := false
    mode := .command
    taken := []
    pending := []
    lag := fun _ => 0 }

/-- The card with one of its delays behind it. -/
def later (c : Card) : Card := { c with lag := fun i => c.lag (i + 1) }

theorem Awaits.later {c : Card} (h : Awaits c) : Awaits (later c) :=
  ⟨h.pending, h.taken, h.mode, fun i => h.prompt (i + 1)⟩

theorem answer_silent {c : Card} (h : c.pending = []) (bs : List Bool) :
    c.answer bs = (later c).left (List.replicate (c.lag 0) true ++ bs) := by
  obtain ⟨⟩ := c
  simp only at h
  subst h
  rfl

/-! ## The commands of the start -/

/-- The card with one command done. -/
def settled (c : Card) : Card := { c with app := false }

theorem Awaits.settled {c : Card} (h : Awaits c) : Awaits (settled c) :=
  ⟨h.pending, h.taken, h.mode, h.prompt⟩

theorem told_command {w : Wired} (h : Awaits w.card) (cmd arg0 arg1 arg2 arg3 crc : Byte)
    {index arg : Nat} (hcmd : cmd.getLsbD 7 = false) (hindex : cmd.toNat % 64 = index)
    (harg : ((arg0.toNat * 256 + arg1.toNat) * 256 + arg2.toNat) * 256 + arg3.toNat = arg)
    {c : Card} (hexec : w.card.execute index arg (checked (frame cmd arg0 arg1 arg2 arg3 crc)) = c) :
    w.told (frame cmd arg0 arg1 arg2 arg3 crc) = w.rest w.host c := by
  rw [Wired.told, takes_command h hcmd, hindex, harg, hexec]
  rfl

/-- A command that the card answers with these bits. -/
theorem sdCmd_answer {w : Wired} (hclock : w.clock = none) (h : Awaits w.card)
    {cmd arg0 arg1 arg2 arg3 crc : Byte} (index arg : Nat) (hcmd : cmd.getLsbD 7 = false)
    (hindex : cmd.toNat % 64 = index)
    (harg : ((arg0.toNat * 256 + arg1.toNat) * 256 + arg2.toNat) * 256 + arg3.toNat = arg)
    {c : Card} (hc : Awaits c) {bs : List Bool}
    (hexec : w.card.execute index arg (checked (frame cmd arg0 arg1 arg2 arg3 crc))
      = c.answer (false :: bs))
    (hlen : bs.length = replyBits cmd) :
    sdCmd cmd arg0 arg1 arg2 arg3 crc w
      = (BitVec.ofNat 32 (number bs), w.rest w.host (later c)) := by
  rw [answer_silent hc.pending] at hexec
  rw [sdCmd_wired _ _ _ _ _ _ w hclock, told_command h _ _ _ _ _ _ hcmd hindex harg hexec]
  refine (reply_wired (w := w.rest w.host _) (rest_hears _ _ _) (hc.prompt 0)
    (List.append_nil _).symm hlen).trans ?_
  exact congrArg (fun d => (_, w.rest w.host d)) (left_nil (c := later c) hc.pending)

/-- The card is being asked to be ready, and has to be asked `k` times more
before it is. -/
structure Waking (c₀ c : Card) (k : Nat) : Prop where
  awaits : Awaits c
  idle : c.idle = true
  wakes : c.wakes = k
  core : core c = core c₀

theorem Waking.status {c₀ c : Card} {k : Nat} (h : Waking c₀ c k) (e : Nat) :
    c.status e = bitsOf 8 (e + 1) := by
  rw [SpiCard.Card.status, h.idle]
  rfl

theorem Waking.settled {c₀ c : Card} {k : Nat} (h : Waking c₀ c k) : Waking c₀ (settled c) k :=
  ⟨h.awaits.settled, h.idle, h.wakes, h.core⟩

theorem Waking.later {c₀ c : Card} {k : Nat} (h : Waking c₀ c k) : Waking c₀ (later c) k :=
  ⟨h.awaits.later, h.idle, h.wakes, h.core⟩

theorem cmd0_wired {w : Wired} (hclock : w.clock = none) (h : Awaits w.card) :
    ∃ c, cmd0 w = (1, w.rest w.host c) ∧ Waking w.card c w.card.effort := by
  let c : Card := { settled w.card with idle := true, wakes := w.card.effort }
  have hc : Waking w.card c w.card.effort :=
    ⟨⟨h.pending, h.taken, h.mode, h.prompt⟩, rfl, rfl, rfl⟩
  have hchecked : checked (frame 0x40 0 0 0 0 0x95) = true := by decide +kernel
  have hexec : w.card.execute 0 0 (checked (frame 0x40 0 0 0 0 0x95))
      = c.answer (false :: bitsOf 7 1) := by
    rw [hchecked]
    show c.answer (c.status 0) = _
    rw [hc.status]
    rfl
  have hrun : cmd0 w = (BitVec.ofNat 32 (number (bitsOf 7 1)), w.rest w.host (later c)) :=
    sdCmd_answer hclock h 0 0 rfl rfl rfl hc.awaits hexec rfl
  exact ⟨later c, hrun, hc.later⟩

/-- A card of version 2 repeats what CMD8 says; another knows no CMD8. -/
theorem cmd8_wired {w : Wired} {c₀ : Card} {k : Nat} (hclock : w.clock = none)
    (h : Waking c₀ w.card k) :
    ∃ rc c, cmd8 w = (rc, w.rest w.host c) ∧ Waking c₀ c k
      ∧ (rc &&& 0xfff = 0x1aa ↔ c₀.version2 = true) := by
  have hversion : w.card.version2 = c₀.version2 := congrArg (·.version2) h.core
  have hstatus := h.settled.status
  have hchecked : checked (frame 0x48 0 0 0x01 0xaa 0x87) = true := by decide +kernel
  cases hv : c₀.version2 with
  | true =>
      have hexec : w.card.execute 8 0x1aa (checked (frame 0x48 0 0 0x01 0xaa 0x87))
          = (settled w.card).answer (false :: (bitsOf 7 1 ++ bitsOf 32 0x1aa)) := by
        rw [hchecked]
        show (if (!w.card.version2) = true then _ else (settled w.card).answer
          ((settled w.card).status 0 ++ bitsOf 32 (0x1aa % 2 ^ 12))) = _
        rw [hversion, hv, hstatus]
        rfl
      refine ⟨_, _, sdCmd_answer hclock h.awaits 8 0x1aa rfl rfl rfl h.settled.awaits hexec rfl,
        h.settled.later, ?_⟩
      exact iff_of_true (by decide +kernel) rfl
  | false =>
      have hexec : w.card.execute 8 0x1aa (checked (frame 0x48 0 0 0x01 0xaa 0x87))
          = (later (settled w.card)).left (List.replicate (w.card.lag 0) true
            ++ false :: bitsOf 7 5) := by
        refine Eq.trans ?_ (answer_silent h.settled.awaits.pending _)
        show (if (!w.card.version2) = true then (settled w.card).answer
          ((settled w.card).status 0x04) else _) = _
        rw [hversion, hv, hstatus]
        rfl
      have htold := told_command h.awaits 0x48 0 0 0x01 0xaa 0x87 rfl rfl rfl hexec
      -- behind its one byte the card has nothing to say, and the line stays high
      have hlisten : ((later (settled w.card)).left (bitsOf 7 5)).listen 39
          = (bitsOf 7 5 ++ List.replicate 32 true, later (settled w.card)) := by
        have hsaid := SpiCard.Card.listen_pending (bitsOf 7 5) []
          (c := (later (settled w.card)).left (bitsOf 7 5)) (List.append_nil _).symm
        have hclean : ((later (settled w.card)).left (bitsOf 7 5)).left [] = later (settled w.card) :=
          left_nil (c := later (settled w.card)) h.awaits.pending
        rw [hclean] at hsaid
        have hall := SpiCard.Card.listen_add 7 32 ((later (settled w.card)).left (bitsOf 7 5))
        rw [SpiCard.length_bitsOf] at hsaid
        rw [hsaid, SpiCard.Card.listen_silent h.settled.later.awaits.pending
          h.settled.later.awaits.taken] at hall
        exact hall
      refine ⟨BitVec.ofNat 32 (number (bitsOf 7 5 ++ List.replicate 32 true)),
        later (settled w.card), ?_, h.settled.later, iff_of_false ?_ Bool.false_ne_true⟩
      · have hbusy := sdBusy_low (w := w.rest w.host ((later (settled w.card)).left
          (List.replicate (w.card.lag 0) true ++ false :: bitsOf 7 5))) (rest_hears _ _ _)
          (h.awaits.prompt 0) rfl
        have hin := sdIn_wired 39 (w := w.rest w.host ((later (settled w.card)).left (bitsOf 7 5)))
          (rest_hears _ _ _)
        rw [Wired.listened] at hin
        rw [cmd8, sdCmd_wired _ _ _ _ _ _ w hclock, htold, bind_of_run hbusy, ite_run,
          if_neg (by decide)]
        refine hin.trans ?_
        show (BitVec.ofNat 32 (number (((later (settled w.card)).left (bitsOf 7 5)).listen 39).1),
          w.rest w.host (((later (settled w.card)).left (bitsOf 7 5)).listen 39).2) = _
        rw [hlisten]
      · decide +kernel

/-! ## Waking a card -/

/-- The card is ready. -/
structure Awake (c₀ c : Card) : Prop where
  awaits : Awaits c
  idle : c.idle = false
  core : core c = core c₀

/-- The card once it has been asked, when it had to be asked `k` times more. -/
def Asked (c₀ c : Card) : Nat → Prop
  | 0 => Awake c₀ c
  | k + 1 => Waking c₀ c k

/-- What a card says that has to be asked so many times more. -/
def asleep : Nat → Nat
  | 0 => 0
  | _ + 1 => 1

/-- The card, asked to be ready by someone who can address it. -/
theorem wake_waking {c₀ c : Card} {k : Nat} (h : Waking c₀ c k) :
    ∃ c', c.wake true = c'.answer (false :: bitsOf 7 (asleep k))
      ∧ Asked c₀ c' k := by
  let c' : Card := { c with idle := !(c.wakes = 0 && true), wakes := c.wakes - 1 }
  have hidle : c'.idle.toNat = asleep k := by
    show (!(c.wakes = 0 && true)).toNat = _
    rw [h.wakes]
    cases k <;> rfl
  refine ⟨c', ?_, ?_⟩
  · show c'.answer (bitsOf 8 (0 + c'.idle.toNat)) = _
    rw [hidle]
    cases k <;> rw [asleep] <;> rfl
  · have hwakes := h.wakes
    cases k with
    | zero =>
        have hidle : c'.idle = false := by
          show (!(c.wakes = 0 && true)) = false
          rw [hwakes]
          rfl
        exact ⟨⟨h.awaits.pending, h.awaits.taken, h.awaits.mode, h.awaits.prompt⟩, hidle, h.core⟩
    | succ k =>
        have hidle : c'.idle = true := by
          show (!(c.wakes = 0 && true)) = true
          rw [hwakes]
          rfl
        exact ⟨⟨h.awaits.pending, h.awaits.taken, h.awaits.mode, h.awaits.prompt⟩, hidle,
          congrArg (· - 1) hwakes, h.core⟩

theorem Awake.later {c₀ c : Card} (h : Awake c₀ c) : Awake c₀ (later c) :=
  ⟨h.awaits.later, h.idle, h.core⟩

theorem rc_wake (k : Nat) :
    BitVec.ofNat 32 (number (bitsOf 7 (asleep k))) = BitVec.ofNat 32 (asleep k) := by
  cases k <;> rw [asleep] <;> rfl

/-- A command that asks the card to be ready. -/
theorem waking_turn {w : Wired} {c₀ c : Card} {k : Nat} (hclock : w.clock = none)
    (h : Awaits w.card) (hc : Waking c₀ c k) (cmd arg0 arg1 arg2 arg3 crc : Byte)
    (index arg : Nat) (hcmd : cmd.getLsbD 7 = false) (hindex : cmd.toNat % 64 = index)
    (harg : ((arg0.toNat * 256 + arg1.toNat) * 256 + arg2.toNat) * 256 + arg3.toNat = arg)
    (hexec : w.card.execute index arg (checked (frame cmd arg0 arg1 arg2 arg3 crc)) = c.wake true)
    (hreply : replyBits cmd = 7) :
    ∃ c', sdCmd cmd arg0 arg1 arg2 arg3 crc w
        = (BitVec.ofNat 32 (asleep k), w.rest w.host c')
      ∧ Asked c₀ c' k := by
  obtain ⟨c', hwake, hnext⟩ := wake_waking hc
  have hawaits : Awaits c' := by
    cases k with
    | zero => exact hnext.awaits
    | succ k => exact hnext.awaits
  have hrun := sdCmd_answer hclock h index arg hcmd hindex harg hawaits (hexec.trans hwake)
    ((SpiCard.length_bitsOf 7 _).trans hreply.symm)
  rw [rc_wake] at hrun
  refine ⟨later c', hrun, ?_⟩
  cases k with
  | zero => exact hnext.later
  | succ k => exact hnext.later

/-! ## The loops -/

theorem lift_of_run {α : Type} {x : StateM Wired α} {w w' : Wired} {a : α} (h : x w = (a, w')) :
    Prog.lift x w = some (a, w') := congrArg some h

/-- A card of version 1 is asked by CMD1. -/
theorem legacy_loop {c₀ : Card} : ∀ {k fuel : Nat} {w : Wired}, w.clock = none →
    Waking c₀ w.card k → k < fuel →
    ∃ c, Prog.attempts legacyTurn fuel w = some (0, w.rest w.host c) ∧ Awake c₀ c := by
  intro k
  induction k with
  | zero =>
      intro fuel w hclock h hfuel
      obtain ⟨left, rfl⟩ := Nat.exists_eq_add_of_lt hfuel
      obtain ⟨c, hrun, hawake⟩ := waking_turn hclock h.awaits h.settled 0x41 0 0 0 0 0 1 0
        rfl rfl rfl rfl rfl
      refine ⟨c, Prog.attempts_done ?_ _, hawake⟩
      exact Prog.bind_of_run (lift_of_run hrun) _
  | succ k ih =>
      intro fuel w hclock h hfuel
      obtain ⟨left, rfl⟩ := Nat.exists_eq_add_of_lt hfuel
      obtain ⟨c, hrun, hwaking⟩ := waking_turn hclock h.awaits h.settled 0x41 0 0 0 0 0 1 0
        rfl rfl rfl rfl rfl
      have hturn : legacyTurn w = some (none, w.rest w.host c) :=
        Prog.bind_of_run (lift_of_run hrun) _
      have hless : k < k + 1 + left := by omega
      obtain ⟨c', hrest, hawake⟩ := ih (w := w.rest w.host c) rfl hwaking hless
      exact ⟨c', (Prog.attempts_again hturn _).trans hrest, hawake⟩

/-- CMD55 announces a command of the application's. -/
theorem cmd55_wired {w : Wired} {c₀ : Card} {k : Nat} (hclock : w.clock = none)
    (h : Waking c₀ w.card k) :
    ∃ rc c, cmd55 w = (rc, w.rest w.host c) ∧ Waking c₀ c k ∧ c.app = true := by
  let c : Card := { w.card with app := true }
  have hc : Waking c₀ c k :=
    ⟨⟨h.awaits.pending, h.awaits.taken, h.awaits.mode, h.awaits.prompt⟩, h.idle, h.wakes, h.core⟩
  have hexec (ok : Bool) : w.card.execute 55 0 ok = c.answer (false :: bitsOf 7 1) := by
    show c.answer (w.card.status 0) = _
    rw [h.status]
    rfl
  exact ⟨_, _, sdCmd_answer hclock h.awaits 55 0 rfl rfl rfl hc.awaits
    (hexec _) rfl, hc.later, rfl⟩

theorem readyTurn_wired {w : Wired} {c₀ : Card} {k : Nat} (hclock : w.clock = none)
    (h : Waking c₀ w.card k) :
    ∃ c, readyTurn w = some (if asleep k = 0 then some 0 else none, w.rest w.host c)
      ∧ Asked c₀ c k := by
  obtain ⟨rc, c₁, hfirst, hwaking, happ⟩ := cmd55_wired hclock h
  have hexec (ok : Bool) : c₁.execute 41 0x40000000 ok = (settled c₁).wake true := by
    show (if c₁.app = true then (settled c₁).wake (!c₁.highCapacity || Nat.testBit 0x40000000 30)
      else _) = _
    have hbit : Nat.testBit 0x40000000 30 = true := by decide
    rw [if_pos happ, hbit, Bool.or_true]
  obtain ⟨c, hsecond, hnext⟩ := waking_turn (w := w.rest w.host c₁) rfl hwaking.awaits
    hwaking.settled 0x69 0x40 0 0 0 0x77 41 0x40000000 rfl rfl rfl (hexec _) rfl
  refine ⟨c, ?_, hnext⟩
  have hdiscard : (discard (Prog.lift cmd55) : Prog Wired PUnit) w
      = some ((), w.rest w.host c₁) :=
    Prog.discard_eq_some.mpr ⟨rc, lift_of_run hfirst⟩
  refine (Prog.bind_of_run hdiscard _).trans ((Prog.bind_of_run (lift_of_run hsecond) _).trans ?_)
  cases k <;> rfl

/-- A card of version 2 is asked by ACMD41. -/
theorem ready_loop {c₀ : Card} : ∀ {k fuel : Nat} {w : Wired}, w.clock = none →
    Waking c₀ w.card k → k < fuel →
    ∃ c, Prog.attempts readyTurn fuel w = some (0, w.rest w.host c) ∧ Awake c₀ c := by
  intro k
  induction k with
  | zero =>
      intro fuel w hclock h hfuel
      obtain ⟨left, rfl⟩ := Nat.exists_eq_add_of_lt hfuel
      obtain ⟨c, hturn, hawake⟩ := readyTurn_wired hclock h
      exact ⟨c, Prog.attempts_done hturn _, hawake⟩
  | succ k ih =>
      intro fuel w hclock h hfuel
      obtain ⟨left, rfl⟩ := Nat.exists_eq_add_of_lt hfuel
      obtain ⟨c, hturn, hwaking⟩ := readyTurn_wired hclock h
      have hless : k < k + 1 + left := by omega
      obtain ⟨c', hrest, hawake⟩ := ih (w := w.rest w.host c) rfl hwaking hless
      exact ⟨c', (Prog.attempts_again hturn _).trans hrest, hawake⟩

/-! ## The addresses of the card -/

theorem ocr_bits (hc : Bool) {v : Nat} (hv : v < 2 ^ 24) :
    let rc : ULong32 := BitVec.ofNat 32 (2 ^ 31 + hc.toNat * 2 ^ 30 + v)
    rc &&& 0x80000000 ≠ 0 ∧ (rc &&& 0x40000000 ≠ 0 ↔ hc = true) := by
  intro rc
  have hbit (i : Nat) (hi : i < 32) :
      rc.getLsbD i = decide ((2 ^ 31 + hc.toNat * 2 ^ 30 + v) / 2 ^ i % 2 = 1) := by
    rw [BitVec.getLsbD_ofNat, Nat.testBit_eq_decide_div_mod_eq]
    simp [hi]
  have hmask (i : Nat) : rc &&& BitVec.twoPow 32 i ≠ 0 ↔ i < 32 ∧ rc.getLsbD i = true := by
    rw [BitVec.and_twoPow]
    by_cases hi : i < 32
    · cases rc.getLsbD i with
      | false => simp
      | true =>
          have hne : BitVec.twoPow 32 i ≠ 0 := by
            intro h0
            have := congrArg BitVec.toNat h0
            rw [BitVec.toNat_twoPow, Nat.mod_eq_of_lt (Nat.pow_lt_pow_right (by decide) hi)] at this
            exact absurd this (Nat.two_pow_pos i).ne'
          simp only [hi, if_true, true_and]
          exact iff_of_true hne trivial
    · simp [BitVec.getLsbD_of_ge rc i (by omega)]
  have h31 : (0x80000000 : ULong32) = BitVec.twoPow 32 31 := by decide
  have h30 : (0x40000000 : ULong32) = BitVec.twoPow 32 30 := by decide
  rw [h31, h30, hmask, hmask, hbit 31 (by decide), hbit 30 (by decide)]
  cases hc <;> simp only [Bool.toNat_true, Bool.toNat_false, decide_eq_true_eq, Nat.reducePow]
    <;> simp <;> omega

theorem cmd58_wired {w : Wired} {c₀ : Card} (hclock : w.clock = none) (h : Awake c₀ w.card) :
    ∃ c, cmd58 w = (BitVec.ofNat 32 (2 ^ 31 + c₀.highCapacity.toNat * 2 ^ 30
        + c₀.voltage % 2 ^ 24), w.rest w.host c) ∧ Awake c₀ c := by
  have hcap : w.card.highCapacity = c₀.highCapacity := congrArg (·.highCapacity) h.core
  have hvolt : w.card.voltage = c₀.voltage := congrArg (·.voltage) h.core
  have hsettled : Awake c₀ (settled w.card) := ⟨h.awaits.settled, h.idle, h.core⟩
  have hocr : w.card.ocr = 2 ^ 31 + c₀.highCapacity.toNat * 2 ^ 30 + c₀.voltage % 2 ^ 24 := by
    rw [SpiCard.Card.ocr, h.idle, hcap, hvolt]
    simp
  have hexec (ok : Bool) : w.card.execute 58 0 ok
      = (settled w.card).answer (false :: (bitsOf 7 0 ++ bitsOf 32 w.card.ocr)) := by
    show (settled w.card).answer ((settled w.card).status 0 ++ bitsOf 32 w.card.ocr) = _
    rw [SpiCard.Card.status, hsettled.idle]
    rfl
  refine ⟨_, (sdCmd_answer hclock h.awaits 58 0 rfl rfl rfl hsettled.awaits
    (hexec _) (by rw [List.length_append, SpiCard.length_bitsOf, SpiCard.length_bitsOf]; rfl)).trans
    ?_, hsettled.later⟩
  have hvalue : number (bitsOf 7 0 ++ bitsOf 32 w.card.ocr) = w.card.ocr % 2 ^ 32 := by
    rw [number_append, SpiCard.extend_bitsOf, SpiCard.number_bitsOf, Nat.zero_mod, Nat.zero_mul,
      Nat.zero_add]
  rw [hvalue, hocr]
  refine congrArg (fun v => (v, w.rest w.host _)) (BitVec.eq_of_toNat_eq ?_)
  rw [BitVec.toNat_ofNat, BitVec.toNat_ofNat, Nat.mod_mod]

/-! ## The whole start -/

/-- `sdcard_init` leaves the clock low, and the card as it was. -/
theorem init_wired (w : Wired) : init w = ((), { w with
    clock := none
    di := false
    cs := false
    host := { w.host with curBlk := 0 } }) := rfl

theorem powerUp_wired {w : Wired} (hclock : w.clock = none) :
    powerUp w = ((), { w with di := true, cs := true }) := by
  have hturns : ∀ (n : Nat) {v : Wired}, v.clock = none → v.cs = true →
      initClock n v = ((), v) := by
    intro n
    induction n with
    | zero => exact fun _ _ => rfl
    | succ n ih =>
        intro v hv hcs
        obtain ⟨host, clock, di, cs, others, card⟩ := v
        obtain ⟨rfl, rfl⟩ : clock = none ∧ cs = true := ⟨hv, hcs⟩
        exact ih rfl rfl
  have hdi : (pinHigh .di : StateM Wired Unit) w = ((), { w with di := true }) := rfl
  have hcs : (pinHigh .cs : StateM Wired Unit) { w with di := true }
      = ((), { w with di := true, cs := true }) := rfl
  rw [powerUp, bind_of_run hdi, bind_of_run hcs]
  exact hturns 80 hclock rfl

/-- Any card that answers in time is opened, and the driver then knows how
it is addressed. -/
theorem open_ready {w : Wired} (hclock : w.clock = none) (h : Awaits w.card)
    (hcap : w.card.highCapacity = true → w.card.version2 = true) {fuel : Nat}
    (hfuel : w.card.effort < fuel) :
    ∃ w', sdcardOpen fuel w = some (0, w') ∧ Ready w' ∧ core w'.card = core w.card
      ∧ w'.host = { w.host with ccs := if w.card.highCapacity then 1 else 0 } := by
  let w₀ : Wired := { w with di := true, cs := true }
  have hpower : Prog.lift powerUp w = some ((), w₀) := lift_of_run (powerUp_wired hclock)
  obtain ⟨c₁, hidle, hwaking⟩ := cmd0_wired (w := w₀) hclock h
  obtain ⟨rc, c₂, hcond, hwaking, hversion⟩ := cmd8_wired (w := w.rest w.host c₁) rfl hwaking
  have hopened (c : Card) (hc : Awake w.card c) (ccs : Byte)
      (hccs : ccs = if w.card.highCapacity then 1 else 0) :
      ∃ w', Prog.lift (opened ccs) (w.rest w.host c) = some (0, w') ∧ Ready w'
        ∧ core w'.card = core w.card
        ∧ w'.host = { w.host with ccs := if w.card.highCapacity then 1 else 0 } := by
    have hsame : c.highCapacity = w.card.highCapacity := congrArg (·.highCapacity) hc.core
    refine ⟨w.rest { w.host with ccs := ccs } c, rfl, ⟨rfl, hc.awaits, hc.idle, ?_⟩, hc.core,
      by rw [hccs]; rfl⟩
    show ccs ≠ 0 ↔ c.highCapacity = true
    rw [hccs, hsame]
    cases w.card.highCapacity <;> simp
  have hstart : sdcardOpen fuel w
      = (if rc &&& 0xfff ≠ 0x1aa then legacy fuel else standard fuel) (w.rest w.host c₂) := by
    refine (Prog.bind_of_run hpower _).trans ((Prog.bind_of_run (lift_of_run hidle) _).trans ?_)
    exact Prog.bind_of_run (lift_of_run hcond) _
  rw [hstart, Prog.ite_run]
  by_cases hv : w.card.version2 = true
  · rw [if_neg (not_not_intro (hversion.mpr hv))]
    obtain ⟨c₃, hloop, hawake⟩ := ready_loop (w := w.rest w.host c₂) rfl hwaking hfuel
    obtain ⟨c₄, hocr, hawake⟩ := cmd58_wired (w := w.rest w.host c₃) rfl hawake
    obtain ⟨hpowered, hccs⟩ := ocr_bits w.card.highCapacity
      (Nat.mod_lt w.card.voltage (Nat.two_pow_pos 24))
    have hturn : ocrTurn (w.rest w.host c₃) = some (some _, w.rest w.host c₄) :=
      (Prog.bind_of_run (lift_of_run hocr) _).trans (by rw [if_neg hpowered]; rfl)
    obtain ⟨left, rfl⟩ := Nat.exists_eq_add_of_lt hfuel
    have hdiscard : (discard (Prog.attempts readyTurn (w.card.effort + left + 1)) :
        Prog Wired PUnit) (w.rest w.host c₂) = some ((), w.rest w.host c₃) :=
      Prog.discard_eq_some.mpr ⟨0, hloop⟩
    have hend := hopened c₄ hawake (if _ then 1 else 0) (if_congr hccs rfl rfl)
    obtain ⟨w', hrun, hrest⟩ := hend
    refine ⟨w', ?_, hrest⟩
    refine (Prog.bind_of_run hdiscard _).trans ?_
    exact (Prog.bind_of_run (Prog.attempts_done hturn _) _).trans hrun
  · rw [if_pos (mt hversion.mp hv)]
    have hlow : w.card.highCapacity = false := Bool.eq_false_iff.mpr (mt hcap hv)
    obtain ⟨c₃, hloop, hawake⟩ := legacy_loop (w := w.rest w.host c₂) rfl hwaking hfuel
    obtain ⟨w', hrun, hrest⟩ := hopened c₃ hawake 0 (by rw [hlow]; rfl)
    refine ⟨w', ?_, hrest⟩
    exact (Prog.bind_of_run hloop _).trans hrun

/-- A card of block addresses that has to be asked three times. -/
theorem open_ready_small :
    ∃ w', sdcardOpen 3 { smallWired with di := false, host := ⟨fun _ => 0, 0, 0, 0⟩ } = some (0, w')
      ∧ Ready w' ∧ core w'.card = core smallCard ∧ w'.host.ccs = 1 := by
  obtain ⟨w', hrun, hready, hcore, hhost⟩ := open_ready
    (w := { smallWired with di := false, host := ⟨fun _ => 0, 0, 0, 0⟩ }) rfl
    smallWired_ready.awaits (fun _ => rfl) (show smallCard.effort < 3 by decide)
  exact ⟨w', hrun, hready, hcore, by rw [hhost]; rfl⟩

end SdcardPins

end CpMega88
