import CpMega88.BufferPairing
import CpMega88.CardWires

/-!
# What driver and card amount to

A card that is ready for commands, and a driver that knows how it is
addressed (`Ready`), are together a device of numbered blocks behind one
buffer (`Store`), whatever the card's delays: `calls_refine`. An address
that names no block, or a block that cannot be written, is reported; the
driver has then changed its block number and nothing else.
-/

namespace CpMega88

open Bytes Runs Splice

namespace SdcardPins

open SpiCard (Card Mode bitsOf byteBits number extend)

/-- The card waits for a command, and no wait of the driver runs out. -/
structure Awaits (c : Card) : Prop where
  pending : c.pending = []
  taken : c.taken = []
  mode : c.mode = .command
  prompt : ∀ i, c.lag i < 0xffff

/-! ## Answers -/

theorem says_of_pending {c : Card} {v : Bool} {k : Nat} {rest : List Bool}
    (h : c.pending = List.replicate k (!v) ++ v :: rest) :
    Says c v k ∧ (c.listen (k + 1)).2 = c.left rest := by
  have hlen : (List.replicate k (!v) ++ [v]).length = k + 1 := by simp
  have hlisten := SpiCard.Card.listen_pending (List.replicate k (!v) ++ [v]) rest (c := c)
    (by simpa using h)
  rw [hlen] at hlisten
  rw [Says, hlisten]
  exact ⟨rfl, rfl⟩

/-- The first low bit of what the card says is found. -/
theorem sdBusy_low {w : Wired} (h : Hears w) {k : Nat} {rest : List Bool} (hk : k < 0xffff)
    (hpending : w.card.pending = List.replicate k true ++ false :: rest) :
    sdBusy 0 w = (0, w.withCard (w.card.left rest)) := by
  obtain ⟨hword, hafter⟩ := says_of_pending (v := false) hpending
  refine (sdBusyLoop_wired false h hword hk).trans ?_
  rw [Wired.listened, hafter]

theorem sdIn_pending {w : Wired} (h : Hears w) {bs rest : List Bool}
    (hpending : w.card.pending = bs ++ rest) {n : Nat} (hn : bs.length = n) :
    sdIn n w = (BitVec.ofNat 32 (number bs), w.withCard (w.card.left rest)) := by
  subst hn
  rw [sdIn_wired _ h, Wired.listened, SpiCard.Card.listen_pending bs rest hpending]

/-- What a command gets for an answer. -/
theorem reply_wired {w : Wired} (h : Hears w) {k n : Nat} {bs rest : List Bool} (hk : k < 0xffff)
    (hpending : w.card.pending = List.replicate k true ++ false :: bs ++ rest)
    (hn : bs.length = n) :
    (do if (← sdBusy 0) < 0 then return 0xffffffff else sdIn n : StateM Wired ULong32) w
      = (BitVec.ofNat 32 (number bs), w.withCard (w.card.left rest)) := by
  have hstart : w.card.pending = List.replicate k true ++ false :: (bs ++ rest) := by
    simpa using hpending
  have hbusy := sdBusy_low h hk hstart
  rw [bind_of_run hbusy, ite_run, if_neg (by decide), sdIn_pending (h.withCard _) rfl hn]
  rfl

/-- The check of a command. -/
def checked (bs : List Bool) : Bool :=
  number ((bs.drop 40).take 7) = SpiCard.Card.crc7 (bs.take 40)

theorem number_append (bs bs' : List Bool) : number (bs ++ bs') = extend (number bs) bs' :=
  SpiCard.extend_append 0 bs bs'

/-- A card that waits for a command does the one it is sent. -/
theorem takes_command {c : Card} (h : Awaits c) {cmd : Byte} (hcmd : cmd.getLsbD 7 = false)
    (arg0 arg1 arg2 arg3 crc : Byte) :
    c.takes (frame cmd arg0 arg1 arg2 arg3 crc)
      = c.execute (cmd.toNat % 64)
          (((arg0.toNat * 256 + arg1.toNat) * 256 + arg2.toNat) * 256 + arg3.toNat)
          (checked (frame cmd arg0 arg1 arg2 arg3 crc)) := by
  have hstart : frame cmd arg0 arg1 arg2 arg3 crc
      = false :: (frame cmd arg0 arg1 arg2 arg3 crc).tail := by
    rw [← hcmd]
    rfl
  have hlen : (frame cmd arg0 arg1 arg2 arg3 crc).tail.length + 1 = c.mode.length := by
    rw [h.mode]
    rfl
  have htakes := SpiCard.Card.takes_frame h.pending h.taken hlen
  rw [← hstart] at htakes
  have hindex : number (((frame cmd arg0 arg1 arg2 arg3 crc).drop 2).take 6) = cmd.toNat % 64 :=
    SpiCard.number_bitsOf 6 cmd.toNat
  have harg : number (((frame cmd arg0 arg1 arg2 arg3 crc).drop 8).take 32)
      = ((arg0.toNat * 256 + arg1.toNat) * 256 + arg2.toNat) * 256 + arg3.toNat := by
    show number (byteBits arg0 ++ byteBits arg1 ++ byteBits arg2 ++ byteBits arg3) = _
    rw [number_append, number_append, number_append, SpiCard.number_byteBits]
    simp only [byteBits, SpiCard.extend_bitsOf, Nat.mod_eq_of_lt (BitVec.isLt _), Nat.reducePow]
  rw [htakes, SpiCard.Card.receive, h.mode]
  show SpiCard.Card.command c _ = _
  rw [SpiCard.Card.command, hindex, harg]
  rfl

/-- What a response of one byte says. -/
theorem reply_status {w : Wired} (h : Hears w) {k x : Nat} {rest : List Bool} (hk : k < 0xffff)
    (hx : x < 128)
    (hpending : w.card.pending = List.replicate k true ++ bitsOf 8 x ++ rest) :
    (do if (← sdBusy 0) < 0 then return 0xffffffff else sdIn 7 : StateM Wired ULong32) w
      = (BitVec.ofNat 32 x, w.withCard (w.card.left rest)) := by
  have hfirst : bitsOf 8 x = false :: bitsOf 7 x := by
    rw [bitsOf, Nat.testBit_lt_two_pow hx]
  rw [hfirst] at hpending
  rw [reply_wired h hk hpending (SpiCard.length_bitsOf 7 x), SpiCard.number_bitsOf,
    show x % 2 ^ 7 = x from Nat.mod_eq_of_lt hx]

/-! ## A fetch -/

/-- The address that a block is asked for by. -/
def address (ccs : Byte) (a : ULong32) : ULong32 := if ccs ≠ 0 then a >>> 9 else a

/-- The driver knows a card that waits for a command. -/
structure Ready (w : Wired) : Prop where
  clock : w.clock = none
  awaits : Awaits w.card
  active : w.card.idle = false
  addressed : w.host.ccs ≠ 0 ↔ w.card.highCapacity = true

/-- The system with the pins as they are between two calls. -/
def Wired.rest (w : Wired) (host : Statics) (c : Card) : Wired :=
  ⟨host, none, true, false, w.others, c⟩

theorem rest_hears (w : Wired) (host : Statics) (c : Card) : Hears (w.rest host c) :=
  ⟨rfl, rfl, rfl⟩

theorem bytes_toNat (x : ULong32) :
    ((((x >>> 24).setWidth 8 : Byte).toNat * 256 + ((x >>> 16).setWidth 8 : Byte).toNat) * 256
      + ((x >>> 8).setWidth 8 : Byte).toNat) * 256 + (x.setWidth 8 : Byte).toNat = x.toNat := by
  have := x.isLt
  simp only [BitVec.toNat_setWidth, BitVec.toNat_ushiftRight, Nat.shiftRight_eq_div_pow]
  omega

/-- A command about a block is done by the card and answered. -/
theorem blockCmd_wired {w : Wired} (hclock : w.clock = none) (h : Awaits w.card) (cmd : Byte)
    (hcmd : cmd.getLsbD 7 = false) (hreply : replyBits cmd = 7) (a : ULong32) :
    ∃ ok, blockCmd cmd a w
      = (do if (← sdBusy 0) < 0 then return 0xffffffff else sdIn 7 : StateM Wired ULong32)
        (w.rest w.host (w.card.execute (cmd.toNat % 64) (address w.host.ccs a).toNat ok)) := by
  have hrun := sdCmd_wired cmd ((address w.host.ccs a >>> 24).setWidth 8)
    ((address w.host.ccs a >>> 16).setWidth 8) ((address w.host.ccs a >>> 8).setWidth 8)
    ((address w.host.ccs a).setWidth 8) 0x00 w hclock
  rw [Wired.told, takes_command h hcmd, bytes_toNat, hreply] at hrun
  have hstatics : (getStatics : StateM Wired Statics) w = (w.host, w) := rfl
  rw [blockCmd, bind_of_run hstatics]
  exact ⟨_, hrun⟩

section Execute

variable {c : Card}

/-- The card once it has spoken so many times. -/
def spoken (c : Card) (n : Nat) : Card := { c with app := false, lag := fun i => c.lag (i + n) }

theorem Awaits.spoken (h : Awaits c) (n : Nat) : Awaits (spoken c n) :=
  ⟨h.pending, h.taken, h.mode, fun i => h.prompt (i + n)⟩

theorem locate_error {arg e : Nat} (h : c.locate arg = .error e) : e = 0x20 ∨ e = 0x40 := by
  rw [SpiCard.Card.locate] at h
  split_ifs at h <;> cases h <;> first | exact .inl rfl | exact .inr rfl

theorem answer_first (h : Awaits c) (bs : List Bool) : { c with app := false }.answer bs
    = (spoken c 1).left (List.replicate (c.lag 0) true ++ bs) := by
  have hpending := h.pending
  obtain ⟨⟩ := c
  simp only at hpending
  subst hpending
  rfl

theorem answer_more (n : Nat) (p bs : List Bool) : ((spoken c n).left p).answer bs
    = (spoken c (n + 1)).left (p ++ List.replicate (c.lag n) true ++ bs) := by
  have hlag : (fun i => c.lag (i + 1 + n)) = fun i => c.lag (i + (n + 1)) :=
    funext fun i => congrArg c.lag (by omega)
  simp only [SpiCard.Card.answer, SpiCard.Card.left, spoken, hlag, Nat.zero_add]

theorem execute_error (h : Awaits c) (hidle : c.idle = false) {index arg e : Nat}
    (hindex : index = 17 ∨ index = 24) (hloc : c.locate arg = .error e) (ok : Bool) :
    c.execute index arg ok = (spoken c 1).left (List.replicate (c.lag 0) true ++ bitsOf 8 e) := by
  rw [← answer_first h]
  rcases hindex with rfl | rfl <;> simp [SpiCard.Card.execute, hidle, hloc, SpiCard.Card.status]

theorem execute_read (h : Awaits c) (hidle : c.idle = false) {arg n : Nat}
    (hloc : c.locate arg = .ok n) (ok : Bool) : c.execute 17 arg ok
      = (spoken c 2).left (List.replicate (c.lag 0) true ++ bitsOf 8 0
        ++ (List.replicate (c.lag 1) true ++ SpiCard.Card.blockBits c.check (c.block n))) := by
  rw [← List.append_assoc, ← answer_more, ← answer_first h]
  simp [SpiCard.Card.execute, hidle, hloc, SpiCard.Card.status]

theorem execute_write (h : Awaits c) (hidle : c.idle = false) {arg n : Nat}
    (hloc : c.locate arg = .ok n) (ok : Bool) : c.execute 24 arg ok
      = { (spoken c 1).left (List.replicate (c.lag 0) true ++ bitsOf 8 0) with
        mode := .data n } := by
  rw [← answer_first h]
  simp [SpiCard.Card.execute, hidle, hloc, SpiCard.Card.status]

/-- With nothing left to say. -/
theorem left_nil {c : Card} (h : c.pending = []) : c.left [] = c := by
  rw [SpiCard.Card.left, ← h]

end Execute

/-- A block that the card does not have. -/
theorem blockCmd_error {w : Wired} (h : Ready w) {cmd : Byte}
    (hcmd : cmd = 0x51 ∨ cmd = 0x58) {a : ULong32} {e : Nat}
    (hloc : w.card.locate (address w.host.ccs a).toNat = .error e) :
    blockCmd cmd a w = (BitVec.ofNat 32 e, w.rest w.host (spoken w.card 1)) := by
  have hhigh : cmd.getLsbD 7 = false := by rcases hcmd with rfl | rfl <;> rfl
  have hreply : replyBits cmd = 7 := by rcases hcmd with rfl | rfl <;> rfl
  have hindex : cmd.toNat % 64 = 17 ∨ cmd.toNat % 64 = 24 := by
    rcases hcmd with rfl | rfl <;> decide
  obtain ⟨ok, hrun⟩ := blockCmd_wired h.clock h.awaits cmd hhigh hreply a
  have he : e < 128 := by rcases locate_error hloc with rfl | rfl <;> decide
  rw [execute_error h.awaits h.active hindex hloc] at hrun
  rw [hrun, reply_status (rest_hears _ _ _) (h.awaits.prompt 0) he (List.append_nil _).symm]
  exact congrArg (fun c => (BitVec.ofNat 32 e, w.rest w.host c))
    (left_nil (c := spoken w.card 1) h.awaits.pending)

theorem setStatics_run {α : Type} (f : Statics → Statics) (k : Unit → StateM Wired α) (w : Wired) :
    (setStatics f >>= k) w = k () { w with host := f w.host } := rfl

/-- The system with another buffer, and another card. -/
def Wired.holding (w : Wired) (c : Card) (b : Nat → Byte) : Wired :=
  { w with card := c, host := { w.host with buffer := b } }

theorem Hears.holding {w : Wired} (h : Hears w) (c : Card) (b : Nat → Byte) :
    Hears (w.holding c b) :=
  ⟨h.clock, h.cs, h.di⟩

/-- So many bytes of a block. -/
theorem receive_wired (x : Nat → Byte) (rest : List Bool) : ∀ (n i : Nat) {w : Wired}, Hears w →
    w.card.pending = ((List.range' i n).flatMap fun j => byteBits (x j)) ++ rest →
    receive i n w = ((), w.holding (w.card.left rest)
      (splice w.host.buffer (fun j => x (i + j)) i n))
  | 0, i, w, _, hpending => by
      have hleft : w.card.left rest = w.card := by
        rw [List.range'_zero, List.flatMap_nil, List.nil_append] at hpending
        rw [SpiCard.Card.left, ← hpending]
      rw [splice_zero, hleft]
      rfl
  | n + 1, i, w, h, hpending => by
      let more := ((List.range' (i + 1) n).flatMap fun j => byteBits (x j)) ++ rest
      have hmore : w.card.pending = byteBits (x i) ++ more := by
        rw [hpending, List.range'_succ, List.flatMap_cons, List.append_assoc]
      have hin := sdIn_pending h hmore (SpiCard.length_byteBits (x i))
      rw [SpiCard.number_byteBits] at hin
      have hbyte : (BitVec.ofNat 32 (x i).toNat).setWidth 8 = x i := by
        apply BitVec.eq_of_toNat_eq
        have := (x i).isLt
        simp only [BitVec.toNat_setWidth, BitVec.toNat_ofNat]
        omega
      have hstep : receive i (n + 1) w = receive (i + 1) n
          (w.holding (w.card.left more) (Function.update w.host.buffer i (x i))) := by
        rw [receive, bind_of_run hin, hbyte]
        rfl
      have hnext : (fun j => x (i + 1 + j)) = fun j => x (i + (j + 1)) :=
        funext fun j => congrArg x (by omega)
      rw [hstep, receive_wired x rest n (i + 1) (h.holding _ _) rfl, hnext, splice_cons]
      rfl

/-- Two bytes make the check word. -/
theorem check_word (y : Word) :
    ((BitVec.ofNat 32 (number (bitsOf 8 (y.toNat / 2 ^ 8))) <<< 8
      ||| BitVec.ofNat 32 (number (bitsOf 8 y.toNat)) : ULong32)).setWidth 16 = y := by
  apply BitVec.eq_of_toNat_eq
  have := y.isLt
  rw [SpiCard.number_bitsOf, SpiCard.number_bitsOf, BitVec.toNat_setWidth, BitVec.toNat_or,
    BitVec.toNat_shiftLeft, BitVec.toNat_ofNat, BitVec.toNat_ofNat,
    Nat.mod_eq_of_lt (a := y.toNat % 2 ^ 8) (by omega),
    Nat.mod_eq_of_lt (a := y.toNat / 2 ^ 8 % 2 ^ 8) (by omega), Nat.shiftLeft_eq,
    Nat.mod_eq_of_lt (a := y.toNat / 2 ^ 8 % 2 ^ 8 * 2 ^ 8) (by omega), ← Nat.shiftLeft_eq,
    ← Nat.shiftLeft_add_eq_or_of_lt (by omega), Nat.shiftLeft_eq]
  omega

/-- The driver's variables once a block has come. -/
def Statics.loaded (st : Statics) (a : ULong32) (check : (Nat → Byte) → Word) (x : Nat → Byte) :
    Statics :=
  { st with curBlk := a, buffer := splice st.buffer x 0 512, crc := check x }

/-- The data, the check word, and the clock left low. -/
theorem receive_block {w : Wired} (h : Hears w) (a : ULong32) (check : (Nat → Byte) → Word)
    (x : Nat → Byte) (ha : w.host.curBlk = a)
    (hpending : w.card.pending = SpiCard.Card.dataBits check x) :
    (do
      receive 0 512
      let rc ← sdIn 8
      let low ← sdIn 8
      setStatics fun st => { st with crc := (rc <<< 8 ||| low).setWidth 16 }
      pinLow .ck
      return 0 : StateM Wired Int) w
      = (0, w.rest (w.host.loaded a check x) (w.card.left [])) := by
  have hwords : bitsOf 16 (check x).toNat
      = bitsOf 8 ((check x).toNat / 2 ^ 8) ++ bitsOf 8 (check x).toNat :=
    SpiCard.bitsOf_add 8 8 _
  rw [bind_of_run (receive_wired x _ 512 0 h hpending)]
  let w₁ := w.holding (w.card.left (bitsOf 16 (check x).toNat))
    (splice w.host.buffer (fun j => x (0 + j)) 0 512)
  have hw₁ : Hears w₁ := h.holding _ _
  have hhigh := sdIn_pending hw₁ (w := w₁) hwords (SpiCard.length_bitsOf 8 _)
  have hlow := sdIn_pending (hw₁.withCard (w₁.card.left (bitsOf 8 (check x).toNat)))
    (List.append_nil (bitsOf 8 (check x).toNat)).symm (SpiCard.length_bitsOf 8 _)
  have hcrc := check_word (check x)
  have hbuffer : splice w.host.buffer (fun j => x (0 + j)) 0 512
      = splice w.host.buffer x 0 512 := by simp only [Nat.zero_add]
  obtain ⟨host, clock, di, cs, others, card⟩ := w
  obtain ⟨rfl, rfl, rfl⟩ : clock = none ∧ cs = false ∧ di = true := ⟨h.clock, h.cs, h.di⟩
  obtain rfl : host.curBlk = a := ha
  rw [bind_of_run hhigh, bind_of_run hlow, hcrc, Statics.loaded, ← hbuffer]
  rfl

theorem fetch_wired {w : Wired} (h : Ready w) {a : ULong32} {n : Nat}
    (hloc : w.card.locate (address w.host.ccs a).toNat = .ok n) :
    fetch a w = (0, w.rest (w.host.loaded a w.card.check (w.card.block n)) (spoken w.card 2)) := by
  let w₀ : Wired := { w with host := { w.host with curBlk := a } }
  let data := SpiCard.Card.dataBits w.card.check (w.card.block n)
  let w₁ := w₀.rest w₀.host
    ((spoken w.card 2).left (List.replicate (w.card.lag 1) true ++ false :: data))
  let w₂ := w₀.rest w₀.host ((spoken w.card 2).left data)
  have hcmd : blockCmd 0x51 a w₀ = (0, w₁) := by
    obtain ⟨ok, hrun⟩ := blockCmd_wired (w := w₀) h.clock h.awaits 0x51 rfl rfl a
    have hexec : w₀.card.execute ((0x51 : Byte).toNat % 64) (address w₀.host.ccs a).toNat ok = _ :=
      execute_read h.awaits h.active hloc ok
    rw [hrun, hexec, reply_status (rest_hears _ _ _) (h.awaits.prompt 0) (by decide) rfl]
    rfl
  have hstart : sdBusy 0 w₁ = (0, w₂) := sdBusy_low (rest_hears _ _ _) (h.awaits.prompt 1) rfl
  have hdata := receive_block (w := w₂) (rest_hears _ _ _) a w.card.check (w.card.block n) rfl rfl
  rw [fetch, setStatics_run, bind_of_run hcmd, ite_run, if_neg (by decide), bind_of_run hstart,
    ite_run, if_neg (by decide), hdata]
  exact congrArg (fun c => (0, w.rest _ c)) (left_nil (c := spoken w.card 2) h.awaits.pending)

theorem fetch_error {w : Wired} (h : Ready w) {a : ULong32} {e : Nat}
    (hloc : w.card.locate (address w.host.ccs a).toNat = .error e) :
    fetch a w = (-1, w.rest { w.host with curBlk := a } (spoken w.card 1)) := by
  have hcmd := blockCmd_error (w := { w with host := { w.host with curBlk := a } })
    ⟨h.clock, h.awaits, h.active, h.addressed⟩ (.inl rfl) hloc
  have hrc : BitVec.ofNat 32 e ≠ 0 := by rcases locate_error hloc with rfl | rfl <;> decide
  rw [fetch, setStatics_run, bind_of_run hcmd, ite_run, if_pos hrc]
  rfl

/-! ## A store -/

theorem transmit_wired : ∀ (n i : Nat) {w : Wired}, w.clock = none → w.cs = false →
    ∃ d, transmit i n w
      = ((), w.put ((List.range' i n).flatMap fun j => byteBits (w.host.buffer j)) d)
  | 0, i, w, hclock, _ => by
      obtain ⟨host, clock, di, cs, others, card⟩ := w
      obtain rfl : clock = none := hclock
      exact ⟨di, rfl⟩
  | n + 1, i, w, _, hcs => by
      let w' := w.put (byteBits (w.host.buffer i)) ((w.host.buffer i).getLsbD 0)
      obtain ⟨d, hrest⟩ := transmit_wired n (i + 1) (w := w') rfl hcs
      refine ⟨d, ?_⟩
      have hfirst : transmit i (n + 1) w = transmit (i + 1) n w' :=
        bind_of_run (sdOut_wired (w.host.buffer i) hcs) fun _ => transmit (i + 1) n
      rw [hfirst, hrest, put_put, List.range'_succ, List.flatMap_cons]
      rfl

/-- The bits of a block from the end of the token on. -/
def blockFrame (buffer : Nat → Byte) : List Bool :=
  false :: (((List.range' 0 512).flatMap fun j => byteBits (buffer j))
    ++ byteBits 0xff ++ byteBits 0xff)

theorem transmit_block {w : Wired} (hcs : w.cs = false) :
    (do sdOut 0xff; sdOut 0xfe; transmit 0 512; sdOut 0xff; sdOut 0xff : StateM Wired Unit) w
      = ((), w.put (List.replicate 15 true ++ blockFrame w.host.buffer) true) := by
  have hput : ∀ bs d, (w.put bs d).cs = false := fun _ _ => hcs
  obtain ⟨d, hdata⟩ := transmit_wired 512 0
    (w := w.put (byteBits 0xff ++ byteBits 0xfe) ((0xfe : Byte).getLsbD 0)) rfl hcs
  have hbits : byteBits 0xff ++ byteBits 0xfe ++ ((List.range' 0 512).flatMap fun j =>
      byteBits (w.host.buffer j)) ++ byteBits 0xff ++ byteBits 0xff
      = List.replicate 15 true ++ blockFrame w.host.buffer := by
    have htoken : byteBits 0xff ++ byteBits 0xfe = List.replicate 15 true ++ [false] := by decide
    rw [htoken, blockFrame]
    simp only [List.append_assoc, List.cons_append, List.nil_append]
  rw [bind_of_run (sdOut_wired 0xff hcs), bind_of_run (sdOut_wired 0xfe (hput _ _)), put_put,
    bind_of_run hdata, put_put, bind_of_run (sdOut_wired 0xff (hput _ _)), put_put,
    sdOut_wired 0xff (hput _ _), put_put]
  exact congrArg (fun bs => ((), w.put bs true)) hbits

/-- The block in such a frame. -/
theorem dataOf_blockFrame (buffer : Nat → Byte) {i : Nat} (hi : i < 512) :
    SpiCard.Card.dataOf (blockFrame buffer) i = buffer i := by
  have hpiece : (((blockFrame buffer).drop 1).drop (8 * i)).take 8 = byteBits (buffer (0 + i)) := by
    rw [blockFrame, List.drop_one, List.tail_cons, List.append_assoc]
    exact SpiCard.flatMap_piece (fun j => SpiCard.length_byteBits (buffer j)) _ 512 0 i hi
  rw [SpiCard.Card.dataOf, hpiece, SpiCard.number_byteBits, Nat.zero_add, BitVec.ofNat_toNat,
    BitVec.setWidth_eq]

theorem length_blockFrame (buffer : Nat → Byte) : (blockFrame buffer).length = 4113 := by
  have hdata := SpiCard.length_flatMap_pieces
    (fun j => SpiCard.length_byteBits (buffer j)) 0 512
  simp only [blockFrame, List.length_cons, List.length_append, hdata, SpiCard.length_byteBits]

/-- A block is taken by a card that was told which. -/
theorem takes_block {c : Card} {n : Nat} (hpending : c.pending = []) (htaken : c.taken = [])
    (hmode : c.mode = .data n) (buffer : Nat → Byte) :
    c.takes (List.replicate 15 true ++ blockFrame buffer)
      = c.program n (blockFrame buffer) := by
  have hlen := length_blockFrame buffer
  rw [SpiCard.Card.takes_append, SpiCard.Card.takes_blank hpending htaken, blockFrame,
    SpiCard.Card.takes_frame hpending htaken, SpiCard.Card.receive, hmode]
  rw [hmode]
  exact hlen

/-- The end of a busy card. -/
theorem sdBusy_high {w : Wired} (h : Hears w) {k : Nat} (hk : k < 0xffff)
    (hpending : w.card.pending = List.replicate k false) (htaken : w.card.taken = []) :
    sdBusy 0xff w = (0, w.withCard (w.card.left [])) := by
  have hsaid := SpiCard.Card.listen_pending (List.replicate k false) [] (c := w.card)
    (by rw [hpending, List.append_nil])
  rw [List.length_replicate] at hsaid
  have hthen := SpiCard.Card.listen_silent (c := w.card.left []) rfl htaken 1
  have hall := SpiCard.Card.listen_add k 1 w.card
  rw [hsaid, hthen] at hall
  have hword : Says w.card true k := congrArg Prod.fst hall
  refine (sdBusyLoop_wired true h hword hk).trans ?_
  rw [Wired.listened, hall]

/-- The blocks once this has been stored. -/
def stored (c : Card) (n : Nat) (buffer : Nat → Byte) : Nat → Nat → Byte :=
  if c.worn n then c.block
  else Function.update c.block n (SpiCard.Card.dataOf (blockFrame buffer))

/-- What the driver makes of the card's verdict. -/
def storeRc (ok : Bool) : Int := if ok then 0 else -13

theorem program_spoken {c : Card} (h : Awaits c) (n : Nat) (buffer : Nat → Byte) :
    { spoken c 1 with mode := .data n }.program n (blockFrame buffer)
      = { (spoken c 3).left (List.replicate (c.lag 1) true ++ SpiCard.Card.verdict (!c.worn n)
          ++ List.replicate (c.lag 2) false) with block := stored c n buffer } := by
  have hpending := h.pending
  have hmode := h.mode
  obtain ⟨⟩ := c
  simp only at hpending hmode
  subst hpending hmode
  rfl

theorem store_wired {w : Wired} (h : Ready w) {a : ULong32} {n : Nat}
    (hloc : w.card.locate (address w.host.ccs a).toNat = .ok n) :
    store a w = (storeRc (!w.card.worn n), w.rest w.host
      { spoken w.card 3 with block := stored w.card n w.host.buffer }) := by
  let ok := !w.card.worn n
  let c₁ : Card := { spoken w.card 1 with mode := .data n }
  let c₂ : Card := { spoken w.card 3 with block := stored w.card n w.host.buffer }
  let w₁ := w.rest w.host c₁
  let busy := List.replicate (w.card.lag 2) false
  let verdict := bitsOf 4 (if ok then 0b0101 else 0b1101)
  let w₂ := w.rest w.host (c₂.left (List.replicate (w.card.lag 1) true ++ false :: verdict ++ busy))
  let w₃ := w.rest w.host (c₂.left (verdict ++ busy))
  let w₄ := w.rest w.host (c₂.left busy)
  have hcmd : blockCmd 0x58 a w = (0, w₁) := by
    obtain ⟨ch, hrun⟩ := blockCmd_wired h.clock h.awaits 0x58 rfl rfl a
    have hexec : w.card.execute ((0x58 : Byte).toNat % 64) (address w.host.ccs a).toNat ch = _ :=
      execute_write h.awaits h.active hloc ch
    rw [hrun, hexec, reply_status (rest_hears _ _ _) (h.awaits.prompt 0) (by decide)
      (List.append_nil _).symm]
    exact congrArg (fun c => ((0 : ULong32), w.rest w.host { c with mode := .data n }))
      (left_nil (c := spoken w.card 1) h.awaits.pending)
  have hblock : (do sdOut 0xff; sdOut 0xfe; transmit 0 512; sdOut 0xff; sdOut 0xff :
      StateM Wired Unit) w₁ = ((), w₂) := by
    have htakes := takes_block (c := c₁) h.awaits.pending h.awaits.taken rfl w.host.buffer
    rw [program_spoken h.awaits] at htakes
    exact (transmit_block rfl).trans (congrArg (fun c => ((), w.rest w.host c)) htakes)
  have hverdict : sdBusy 0 w₂ = (0, w₃) :=
    sdBusy_low (rest_hears _ _ _) (h.awaits.prompt 1) (List.append_assoc ..)
  have hrc : sdIn 4 w₃ = (if ok then 5 else 13, w₄) := by
    rw [sdIn_pending (rest_hears _ _ _) rfl (SpiCard.length_bitsOf 4 _), SpiCard.number_bitsOf]
    cases ok <;> rfl
  have hend : sdBusy 0xff w₄ = (0, w.rest w.host c₂) := by
    refine (sdBusy_high (w := w₄) (rest_hears _ _ _) (h.awaits.prompt 2) rfl
      h.awaits.taken).trans ?_
    exact congrArg (fun c => ((0 : Int), w.rest w.host c)) (left_nil (c := c₂) h.awaits.pending)
  have hrest := bind_of_run hblock fun _ => (do
    if (← sdBusy 0) < 0 then return -3
    else
      let rc ← sdIn 4
      if (← sdBusy 0xff) < 0 then return -4
      else if rc ≠ 5 then return if rc ≠ 0 then -rc.toNat else -5
      else
        pinLow .ck
        return 0 : StateM Wired Int)
  simp only [bind_assoc] at hrest
  rw [store, bind_of_run hcmd, ite_run, if_neg (by decide), hrest, bind_of_run hverdict, ite_run,
    if_neg (by decide), bind_of_run hrc, bind_of_run hend, ite_run, if_neg (by decide)]
  show _ = (storeRc ok, w.rest w.host c₂)
  cases ok <;> rfl

theorem store_error {w : Wired} (h : Ready w) {a : ULong32} {e : Nat}
    (hloc : w.card.locate (address w.host.ccs a).toNat = .error e) :
    store a w = (-1, w.rest w.host (spoken w.card 1)) := by
  have hrc : BitVec.ofNat 32 e ≠ 0 := by rcases locate_error hloc with rfl | rfl <;> decide
  rw [store, bind_of_run (blockCmd_error h (.inr rfl) hloc), ite_run, if_pos hrc]
  rfl

/-! ## The device -/

/-- Numbered blocks behind one buffer, with the number of the block the
buffer goes to. -/
structure Store where
  block : Nat → Fin 512 → Byte
  buffer : Fin 512 → Byte
  curBlk : ULong32

/-- How the blocks are addressed, and which of them can be written. -/
structure Layout where
  locate : Nat → Option Nat
  worn : Nat → Bool

inductive DriverCall where
  | fetch (a : ULong32)
  | write (x : Word × Byte)
  | store (a : ULong32)
  | flush

namespace Store

variable (lay : Layout)

/-- The buffer goes to a block, if it is there and can be written. -/
def put (s : Store) (a : ULong32) : Int × Store :=
  match lay.locate a.toNat with
  | none => (-1, s)
  | some n =>
    if lay.worn n then (-13, s)
    else (0, { s with block := Function.update s.block n s.buffer })

/-- What a call does, and what it returns. -/
def call (s : Store) : DriverCall → Int × Store
  | .fetch a =>
    match lay.locate a.toNat with
    | none => (-1, { s with curBlk := a })
    | some n => (0, { s with curBlk := a, buffer := s.block n })
  | .write x => (0, { s with buffer := editBlock x s.buffer })
  | .store a => s.put lay a
  | .flush => s.put lay s.curBlk

def run (s : Store) : List DriverCall → List Int × Store
  | [] => ([], s)
  | c :: cs => ((s.call lay c).1 :: (run (s.call lay c).2 cs).1, (run (s.call lay c).2 cs).2)

end Store

/-- The driver's answer to a call; `sdcard_write` has none. -/
def call : DriverCall → StateM Wired Int
  | .fetch a => fetch a
  | .write x => do
    write x.1 x.2
    return 0
  | .store a => store a
  | .flush => flush

/-- One call after the other. -/
def run (w : Wired) : List DriverCall → List Int × Wired
  | [] => ([], w)
  | c :: cs => ((call c w).1 :: (run (call c w).2 cs).1, (run (call c w).2 cs).2)

/-- The device that a wired card is. -/
def Wired.store (w : Wired) : Store where
  block n i := w.card.block n i
  buffer i := w.host.buffer i
  curBlk := w.host.curBlk

/-- A card of byte addresses wants them to be multiples of 512; one of
block addresses never sees what is below. -/
def layout (c : Card) : Layout where
  locate a :=
    if (c.highCapacity ∨ a % 512 = 0) ∧ a / 512 < c.size then some (a / 512) else none
  worn := c.worn

theorem locate_address {w : Wired} (h : Ready w) (a : ULong32) :
    (w.card.locate (address w.host.ccs a).toNat).toOption = (layout w.card).locate a.toNat := by
  have haddr := h.addressed
  rw [address, SpiCard.Card.locate, layout]
  cases hcap : w.card.highCapacity with
  | true =>
      have hdiv : (a >>> 9).toNat = a.toNat / 512 := by
        rw [BitVec.toNat_ushiftRight, Nat.shiftRight_eq_div_pow]
      rw [if_pos (haddr.mpr hcap), if_pos rfl, hdiv]
      by_cases hsize : a.toNat / 512 < w.card.size <;> simp [hsize, Except.toOption]
  | false =>
      have hccs : ¬w.host.ccs ≠ 0 := fun hne => by simp [haddr.mp hne] at hcap
      rw [if_neg hccs, if_neg Bool.false_ne_true]
      by_cases hmod : a.toNat % 512 = 0
      · by_cases hsize : a.toNat / 512 < w.card.size <;> simp [hmod, hsize, Except.toOption]
      · simp [hmod, Except.toOption]

theorem locate_none {w : Wired} (h : Ready w) {a : ULong32}
    (hno : (layout w.card).locate a.toNat = none) :
    ∃ e, w.card.locate (address w.host.ccs a).toNat = .error e := by
  rw [← locate_address h] at hno
  cases hloc : w.card.locate (address w.host.ccs a).toNat with
  | error e => exact ⟨e, rfl⟩
  | ok n => rw [hloc] at hno; cases hno

theorem locate_some {w : Wired} (h : Ready w) {a : ULong32} {n : Nat}
    (hyes : (layout w.card).locate a.toNat = some n) :
    w.card.locate (address w.host.ccs a).toNat = .ok n := by
  rw [← locate_address h] at hyes
  cases hloc : w.card.locate (address w.host.ccs a).toNat with
  | error e => rw [hloc] at hyes; cases hyes
  | ok m =>
      rw [hloc] at hyes
      exact congrArg _ (Option.some.inj hyes)

/-- What a call leaves: the device's next state, and a system that is
ready for the next one. -/
structure Follows (w w' : Wired) (s : Store) : Prop where
  store : w'.store = s
  ready : Ready w'
  layout : layout w'.card = layout w.card

theorem Ready.rest {w : Wired} (h : Ready w) (host : Statics) (hccs : host.ccs = w.host.ccs)
    (n : Nat) : Ready (w.rest host (spoken w.card n)) :=
  ⟨rfl, h.awaits.spoken n, h.active, by
    show host.ccs ≠ 0 ↔ _
    rw [hccs]
    exact h.addressed⟩

theorem fetch_refines {w : Wired} (h : Ready w) (a : ULong32) :
    (fetch a w).1 = (w.store.call (layout w.card) (.fetch a)).1
      ∧ Follows w (fetch a w).2 (w.store.call (layout w.card) (.fetch a)).2 := by
  cases hloc : (layout w.card).locate a.toNat with
  | none =>
      obtain ⟨e, herror⟩ := locate_none h hloc
      rw [fetch_error h herror, Store.call, hloc]
      exact ⟨rfl, rfl, h.rest { w.host with curBlk := a } rfl 1, rfl⟩
  | some n =>
      rw [fetch_wired h (locate_some h hloc), Store.call, hloc]
      refine ⟨rfl, ?_, h.rest (w.host.loaded a _ _) rfl 2, rfl⟩
      refine congrArg (Store.mk _ · _) (funext fun i => ?_)
      exact splice_in (Nat.zero_le _) (by omega)

theorem write_refines {w : Wired} (h : Ready w) (x : Word × Byte) :
    Follows w (call (.write x) w).2 (w.store.call (layout w.card) (.write x)).2 :=
  ⟨congrArg (Store.mk _ · _) (update_block _ x), ⟨h.clock, h.awaits, h.active, h.addressed⟩, rfl⟩

theorem store_refines {w : Wired} (h : Ready w) (a : ULong32) :
    (store a w).1 = (w.store.put (layout w.card) a).1
      ∧ Follows w (store a w).2 (w.store.put (layout w.card) a).2 := by
  rw [Store.put]
  cases hloc : (layout w.card).locate a.toNat with
  | none =>
      obtain ⟨e, herror⟩ := locate_none h hloc
      rw [store_error h herror]
      exact ⟨rfl, rfl, h.rest w.host rfl 1, rfl⟩
  | some n =>
      rw [store_wired h (locate_some h hloc)]
      have hready : Ready (w.rest w.host
          { spoken w.card 3 with block := stored w.card n w.host.buffer }) :=
        ⟨rfl, ⟨h.awaits.pending, h.awaits.taken, h.awaits.mode, fun i => h.awaits.prompt (i + 3)⟩,
          h.active, h.addressed⟩
      by_cases hworn : w.card.worn n = true
      · refine ⟨by simp [layout, hworn, storeRc], ?_, hready, rfl⟩
        simp [layout, hworn, stored, Wired.store, Wired.rest]
      · have hfit : w.card.worn n = false := Bool.eq_false_iff.mpr hworn
        refine ⟨by simp [layout, hfit, storeRc], ?_, hready, rfl⟩
        simp only [layout, hfit, stored, Wired.store, Wired.rest, Bool.false_eq_true, if_false]
        refine congrArg (Store.mk · _ _) (funext fun m => funext fun i => ?_)
        by_cases hm : m = n
        · rw [hm, Function.update_self, Function.update_self]
          exact dataOf_blockFrame _ i.isLt
        · rw [Function.update_of_ne hm, Function.update_of_ne hm]

theorem call_refines {w : Wired} (h : Ready w) (c : DriverCall) :
    (call c w).1 = (w.store.call (layout w.card) c).1
      ∧ Follows w (call c w).2 (w.store.call (layout w.card) c).2 := by
  cases c with
  | fetch a => exact fetch_refines h a
  | write x => exact ⟨rfl, write_refines h x⟩
  | store a => exact store_refines h a
  | flush => exact store_refines h w.host.curBlk

/-- For every sequence of calls the wired card is the device: the calls
return the same, and the same blocks, buffer and number are left. -/
theorem calls_refine {w : Wired} (h : Ready w) (cs : List DriverCall) :
    (run w cs).1 = (w.store.run (layout w.card) cs).1
      ∧ Follows w (run w cs).2 (w.store.run (layout w.card) cs).2 := by
  induction cs generalizing w with
  | nil => exact ⟨rfl, rfl, h, rfl⟩
  | cons c cs ih =>
      obtain ⟨hrc, hstore, hready, hlayout⟩ := call_refines h c
      obtain ⟨hrest, hstore', hready', hlayout'⟩ := ih hready
      rw [hstore, hlayout] at hrest hstore'
      refine ⟨?_, hstore', hready', hlayout'.trans hlayout⟩
      rw [run, hrc, hrest, Store.run]

/-- What is read between the calls is what the device has in its buffer. -/
theorem read_follows {w w' : Wired} {s : Store} (h : Follows w w' s) {offset : Word}
    (hoffset : offset.toNat < 512) : read offset w' = (s.buffer ⟨_, hoffset⟩, w') := by
  cases h.store
  rfl

/-- The check word is the one the card has sent with the block. -/
theorem fetch_crc {w : Wired} (h : Ready w) {a : ULong32} {n : Nat}
    (hloc : (layout w.card).locate a.toNat = some n) :
    ((do discard (fetch a); crc : StateM Wired Word) w).1 = w.card.check (w.card.block n) := by
  have hfetch := fetch_wired h (locate_some h hloc)
  have hcrc : ((do discard (fetch a); crc : StateM Wired Word) w).1 = (fetch a w).2.host.crc := rfl
  rw [hcrc, hfetch]
  rfl

/-- Four blocks, the last of them worn, and five clocks for everything. -/
def smallCard : Card where
  version2 := true
  highCapacity := true
  size := 4
  block n i := BitVec.ofNat 8 (n + i)
  worn n := n == 3
  check _ := 0x1234
  voltage := 0xff8000
  effort := 2
  idle := false
  wakes := 0
  app := false
  mode := .command
  taken := []
  pending := []
  lag _ := 5

def smallWired : Wired where
  host := ⟨fun _ => 0, 0, 0, 1⟩
  clock := none
  di := true
  cs := false
  others := 0
  card := smallCard

theorem smallWired_ready : Ready smallWired :=
  ⟨rfl, ⟨rfl, rfl, rfl, fun _ => (by decide : 5 < 0xffff)⟩, rfl, by decide⟩

/-- A byte of block 2 is changed and goes to block 1 too; block 3 cannot
be written, and there is no block 4. -/
theorem calls_refine_small :
    (run smallWired [.fetch 1024, .write (7, 0x55), .flush, .store 512, .fetch 1536, .flush,
        .fetch 2048]).1 = [0, 0, 0, 0, 0, -13, -1]
      ∧ (run smallWired [.fetch 1024, .write (7, 0x55), .store 512]).2.store.block 1 7 = 0x55 := by
  refine ⟨(calls_refine smallWired_ready _).1.trans (by decide), ?_⟩
  rw [(calls_refine smallWired_ready _).2.store]
  decide

end SdcardPins

end CpMega88
