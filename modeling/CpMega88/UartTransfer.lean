import CpMega88.UartLine

/-!
# Bytes from one software UART to another

What `uart_tx` takes in while it sends, and what `uart_rx` makes of a frame
that `uart_tx` has sent.

The first works for any sender whose bits are not too far from 38400 a
second (`uartTx_receives`), so two boards that begin at about the same time
exchange their bytes (`exchange`). The second depends on how late `uart_rx`
is called: `received_iff` gives the latencies at which every byte arrives.
At 16 MHz these begin at 216 cycles, for the bits of `uart_tx` are longer there
than those of `uart_rx`.
-/

namespace CpMega88

open Bytes Runs SerialLine

namespace UartLine

variable {clk : Clock} {line : Nat → Bool}

/-! ## A byte that comes while another goes -/

/-- A sample in each bit of the frame, for a line that is low for the first
time in the look of the phase that begins at `b`. -/
theorem samples_frame {e p slack b j : Nat} {d : Byte} (hframe : Carries line e p d)
    (hfound : e ≤ b + 1 ∧ b + 1 ≤ e + slack) (hj : j ≤ 8)
    (hearly : 8 * p ≤ 7 + sampleAt clk + 8 * bitTime clk)
    (hfirst : slack + 7 + sampleAt clk < p)
    (hlast : slack + 7 + sampleAt clk + 8 * bitTime clk < 9 * p) :
    line (b + j * bitTime clk + 8 + sampleAt clk) = frameBit d j := by
  have hlo : j * p ≤ 7 + sampleAt clk + j * bitTime clk := by
    rcases Nat.le_total p (bitTime clk) with hle | hle
    · exact Nat.le_add_left_of_le (Nat.mul_le_mul_left j hle)
    · have := Nat.mul_le_mul_right (p - bitTime clk) hj
      rw [Nat.mul_sub, Nat.mul_sub] at this
      have := Nat.mul_le_mul_left j hle
      have := Nat.mul_le_mul_left 8 hle
      omega
  have hhi : slack + 7 + sampleAt clk + j * bitTime clk < (j + 1) * p := by
    rw [Nat.succ_mul]
    rcases Nat.le_total p (bitTime clk) with hle | hle
    · have := Nat.mul_le_mul_right (bitTime clk - p) hj
      rw [Nat.mul_sub, Nat.mul_sub] at this
      have := Nat.mul_le_mul_left j hle
      have := Nat.mul_le_mul_left 8 hle
      omega
    · have := Nat.mul_le_mul_left j hle
      omega
  exact hframe.sample (by omega) (by omega) (by omega)

/-- The looks that find the line high all come before the start bit. -/
theorem looks_before {e slack t q : Nat} (hgap : phaseTime clk ≤ slack)
    (hlow : ∀ u, e ≤ u → u ≤ e + slack → line u = false) (ht : t + 1 ≤ e + slack) :
    (∀ p < q, line (t + p * phaseTime clk + 1) = true) →
      ∀ p < q, t + p * phaseTime clk + 1 < e := by
  intro hhigh p
  have hbefore {u : Nat} (hu : u ≤ e + slack) (hline : line u = true) : u < e := by
    rcases Nat.lt_or_ge u e with h | h
    · exact h
    · rw [hlow u h hu] at hline
      contradiction
  induction p with
  | zero => exact fun hp => hbefore (by omega) (hhigh 0 hp)
  | succ p ih =>
      intro hp
      have hprev := ih (by omega)
      have hnext : t + (p + 1) * phaseTime clk + 1 ≤ e + slack := by
        rw [Nat.succ_mul]
        omega
      exact hbefore hnext (hhigh (p + 1) hp)

/-- Where a start bit is found that begins between the first look and the
last. -/
theorem scan_frame {e slack t : Nat} {r : Receiver} (hr : Waiting r)
    (hquiet : ∀ u, t + 1 ≤ u → u < e → line u = true)
    (hlow : ∀ u, e ≤ u → u ≤ e + slack → line u = false) (hstart : t + 1 ≤ e + slack)
    (hgap : phaseTime clk + 10 ≤ slack)
    (hend : e ≤ t + 1 + 8 * bitTime clk + 3 * phaseTime clk) :
    Caught clk line (fun b => e ≤ b + 1 ∧ b + 1 ≤ e + slack) 9 (t + 9 * bitTime clk)
      (r.bits clk line (look line) 9 t) := by
  have hbit : bitTime clk = 4 * phaseTime clk + 11 := rfl
  have hscan : _ ∨ Caught clk line _ 9 (t + 9 * bitTime clk) _ :=
    scan (fun u => u + 1 ≤ e + slack ∧ t ≤ u ∧ (t < u → u < e + phaseTime clk + 10))
      (fun b => e ≤ b + 1 ∧ b + 1 ≤ e + slack) ?_ ?_ hr
      ⟨hstart, Nat.le_refl t, fun h => absurd h (Nat.lt_irrefl t)⟩ 9 (by decide)
  · rcases hscan with ⟨-, -, -, hlate⟩ | hcaught
    · have := hlate (by omega)
      omega
    · exact hcaught
  · rintro u ⟨hu, htu, -⟩ hhigh
    have hlast := looks_before (by omega) hlow hu hhigh 3 (by decide)
    exact ⟨by omega, by omega, fun _ => by omega⟩
  · rintro u q ⟨hu, htu, -⟩ hq hline hbefore
    refine ⟨?_, ?_⟩
    · rcases Nat.lt_or_ge (u + q * phaseTime clk + 1) e with h | h
      · rw [hquiet _ (by omega) h] at hline
        contradiction
      · exact h
    · cases q with
      | zero => omega
      | succ q =>
          have hprev := looks_before (by omega) hlow hu hbefore q (Nat.lt_succ_self q)
          rw [Nat.succ_mul]
          omega

/-- `uart_tx` takes in a byte whose start bit comes before its last look at
the line. -/
theorem receives {c d : Byte} {s : State} {e p : Nat} (slack : Nat)
    (hquiet : ∀ u, s.now + 12 ≤ u → u < e → line u = true) (hframe : Carries line e p d)
    (hstart : s.now + 12 ≤ e + slack) (hgap : phaseTime clk + 10 ≤ slack)
    (hend : e ≤ s.now + 12 + 8 * bitTime clk + 3 * phaseTime clk)
    (hearly : 8 * p ≤ 7 + sampleAt clk + 8 * bitTime clk)
    (hfirst : slack + 7 + sampleAt clk < p)
    (hlast : slack + 7 + sampleAt clk + 8 * bitTime clk < 9 * p) :
    (uartTx clk line c s).2.r24 = d ∧ (uartTx clk line c s).2.r25 = 0xff := by
  have hlow : ∀ u, e ≤ u → u ≤ e + slack → line u = false := fun u h h' =>
    hframe.sample (j := 0) (by decide) (by omega) (by omega)
  obtain ⟨i, b, k, hk, hk9, hok, hfound, ht⟩ :=
    scan_frame (heard_start s) hquiet hlow hstart hgap hend
  obtain ⟨s', hrun, hnow, hrecv, -⟩ := sent_run clk line c s
  have hlater : s'.now + 9 + (i.toNat - 1) * phaseTime clk = b + k * bitTime clk := by
    omega
  obtain ⟨s'', hstop, hr24, hr25, -, hnine, -⟩ :=
    ending_caught clk line (hrecv ▸ hfound) hk hk9 hlater
  rw [hrun, hstop]
  refine ⟨hr24.trans (hnine.holds.eq_of_frame (by decide) fun j hj => ?_), hr25⟩
  rw [show 9 - 8 + j = j + 1 by omega, samples_frame hframe hok (by omega) hearly hfirst hlast,
    frameBit_data hj]

/-- The lengths of a bit that `uart_tx` follows, wherever in a phase the
start bit comes; 38400 bits a second make 521 cycles, or 417. -/
def Tolerates : Clock → Nat → Prop
  | .mhz20, p => 493 ≤ p ∧ p ≤ 536
  | .mhz16, p => 417 ≤ p ∧ p ≤ 454

/-- A frame at about the right rate, whose start bit comes between the
first look at the line and the last, is taken in while the other byte goes
out undisturbed. -/
theorem uartTx_receives {c d : Byte} {s : State} {e p : Nat} (hp : Tolerates clk p)
    (hquiet : ∀ u, s.now + 12 ≤ u → u < e → line u = true) (hframe : Carries line e p d)
    (hstart : s.now + 12 ≤ e + phaseTime clk + 10)
    (hend : e ≤ s.now + 12 + 8 * bitTime clk + 3 * phaseTime clk) :
    (uartTx clk line c s).2.r24 = d ∧ (uartTx clk line c s).2.r25 = 0xff
      ∧ Carries (uartTx clk line c s).2.port (s.now + 8) (bitTime clk) c := by
  have hreceives : (uartTx clk line c s).2.r24 = d ∧ (uartTx clk line c s).2.r25 = 0xff := by
    cases clk with
    | mhz20 =>
        obtain ⟨hlo, hhi⟩ : 493 ≤ p ∧ p ≤ 536 := hp
        have hphase : phaseTime .mhz20 = 128 := rfl
        have hbit : bitTime .mhz20 = 523 := rfl
        have hsample : sampleAt .mhz20 = 104 := rfl
        exact receives 138 hquiet hframe (by omega) (by omega) (by omega) (by omega)
          (by omega) (by omega)
    | mhz16 =>
        obtain ⟨hlo, hhi⟩ : 417 ≤ p ∧ p ≤ 454 := hp
        have hphase : phaseTime .mhz16 = 108 := rfl
        have hbit : bitTime .mhz16 = 443 := rfl
        have hsample : sampleAt .mhz16 = 83 := rfl
        exact receives 118 hquiet hframe (by omega) (by omega) (by omega) (by omega)
          (by omega) (by omega)
  refine ⟨hreceives.1, hreceives.2, ?_⟩
  rw [uartTx_port]
  exact frameOut_carries clk c _ _

theorem uartTx_receives_small :
    (uartTx .mhz20 (frameOut .mhz20 0xa7 900 fun _ => true) 0x35
      ⟨0, 0, 0, 0, 0, ⟨0, 0, 0⟩, false, 0, fun _ => true⟩).2.r24 = 0xa7 := by
  have hp : Tolerates .mhz20 523 := ⟨by decide, by decide⟩
  exact (uartTx_receives hp (fun _ _ hu => frameOut_before _ _ _ hu) (frameOut_carries _ _ 900 _)
    (by decide) (by decide)).1

/-! ## Two boards that begin together -/

/-- How far apart they may begin. -/
def apart : Clock → Nat
  | .mhz20 => 407
  | .mhz16 => 348

/-- One of two boards wired to each other. -/
theorem exchange_half {c d : Byte} {s t : State} {other : Nat → Bool}
    (hwire : line = (uartTx clk other d t).2.port) (hidle : ∀ u, t.port u = true)
    (hs : s.now ≤ t.now + apart clk) (ht : t.now ≤ s.now + apart clk) :
    (uartTx clk line c s).2.r24 = d ∧ (uartTx clk line c s).2.r25 = 0xff := by
  have hframe : Carries line (t.now + 8) (bitTime clk) d := by
    rw [hwire, uartTx_port]
    exact frameOut_carries clk d _ _
  have hquiet : ∀ u, s.now + 12 ≤ u → u < t.now + 8 → line u = true := by
    intro u _ hu
    rw [hwire, uartTx_port, frameOut_before clk d _ hu]
    exact hidle u
  cases clk with
  | mhz20 =>
      have hphase : phaseTime .mhz20 = 128 := rfl
      have hbit : bitTime .mhz20 = 523 := rfl
      have hsample : sampleAt .mhz20 = 104 := rfl
      have hapart : apart .mhz20 = 407 := rfl
      exact receives 411 hquiet hframe (by omega) (by omega) (by omega) (by omega) (by omega)
        (by omega)
  | mhz16 =>
      have hphase : phaseTime .mhz16 = 108 := rfl
      have hbit : bitTime .mhz16 = 443 := rfl
      have hsample : sampleAt .mhz16 = 83 := rfl
      have hapart : apart .mhz16 = 348 := rfl
      exact receives 352 hquiet hframe (by omega) (by omega) (by omega) (by omega) (by omega)
        (by omega)

/-- Two boards of one clock, each with its receiving pin on the other's
sending pin, that call `uart_tx` no further apart than this, end with each
other's byte. -/
theorem exchange {c d : Byte} {s t : State} {fromS fromT : Nat → Bool}
    (hS : fromS = (uartTx clk fromT c s).2.port) (hT : fromT = (uartTx clk fromS d t).2.port)
    (hs : ∀ u, s.port u = true) (ht : ∀ u, t.port u = true)
    (hst : s.now ≤ t.now + apart clk) (hts : t.now ≤ s.now + apart clk) :
    (uartTx clk fromT c s).2.r24 = d ∧ (uartTx clk fromT c s).2.r25 = 0xff
      ∧ (uartTx clk fromS d t).2.r24 = c ∧ (uartTx clk fromS d t).2.r25 = 0xff := by
  obtain ⟨hd, hd'⟩ := exchange_half (c := c) hT ht hst hts
  obtain ⟨hc, hc'⟩ := exchange_half (c := d) hS hs hts hst
  exact ⟨hd, hd', hc, hc'⟩

/-- The second board begins 300 cycles after the first. -/
theorem exchange_small :
    let s : State := ⟨0, 0, 0, 0, 0, ⟨0, 0, 0⟩, false, 0, fun _ => true⟩
    let t : State := { s with now := 300 }
    let fromS := frameOut .mhz16 0x4f 8 s.port
    let fromT := frameOut .mhz16 0x6b 308 t.port
    (uartTx .mhz16 fromT 0x4f s).2.r24 = 0x6b ∧ (uartTx .mhz16 fromS 0x6b t).2.r24 = 0x4f := by
  intro s t fromS fromT
  have hS : fromS = (uartTx .mhz16 fromT 0x4f s).2.port := by rw [uartTx_port]
  have hT : fromT = (uartTx .mhz16 fromS 0x6b t).2.port := by rw [uartTx_port]
  have h := exchange hS hT (fun _ => rfl) (fun _ => rfl) (by decide) (by decide)
  exact ⟨h.1, h.2.2.1⟩

/-! ## A byte that only comes -/

/-- From one sample of `uart_rx` to the next. -/
def takeTime (clk : Clock) : Nat := bitWait clk + 11

/-- A turn of `uart_rx` up to the test. -/
def State.took (clk : Clock) (line : Nat → Bool) (s : State) : State := { s with
  txCount := s.txCount - 1, waitCount := 0, r24 := shiftIn s.r24 (line (s.now - 1))
  carry := s.r24.getLsbD 0, now := s.now + 1 + 3 + 1 + 3 + bitWait clk + 1 }

theorem take_run (s : State) (rest : LineM Unit) :
    (do
      let b ← inPin line
      tick 3
      modify fun s => { s with r24 := shiftIn s.r24 b, carry := s.r24.getLsbD 0 }
      tick 1
      tick 3
      x4wait clk
      modify fun s => { s with txCount := s.txCount - 1 }
      tick 1
      if (← get).txCount ≠ 0 then
        tick 2
        rest
      else tick 1 : LineM Unit) s
      = if s.txCount - 1 ≠ 0 then rest { s.took clk line with now := (s.took clk line).now + 2 }
        else ((), { s.took clk line with now := (s.took clk line).now + 1 }) := by
  have hwait := x4wait_run clk { s with
    r24 := shiftIn s.r24 (line (s.now - 1)), carry := s.r24.getLsbD 0
    now := s.now + 1 + 3 + 1 + 3 }
  have hstart : (do
      let b ← inPin line
      tick 3
      modify fun s => { s with r24 := shiftIn s.r24 b, carry := s.r24.getLsbD 0 }
      tick 1
      tick 3
      x4wait clk
      modify fun s => { s with txCount := s.txCount - 1 }
      tick 1
      if (← get).txCount ≠ 0 then
        tick 2
        rest
      else tick 1 : LineM Unit) s = (do
        x4wait clk
        modify fun s => { s with txCount := s.txCount - 1 }
        tick 1
        if (← get).txCount ≠ 0 then
          tick 2
          rest
        else tick 1 : LineM Unit) { s with
          r24 := shiftIn s.r24 (line (s.now - 1)), carry := s.r24.getLsbD 0
          now := s.now + 1 + 3 + 1 + 3 } := rfl
  rw [hstart, bind_of_run hwait, modify_bind_run, bind_run (tick 1), get_bind_run, ite_run]
  rfl

theorem takeBits_run (clk : Clock) (line : Nat → Bool) {b : Nat → Bool} :
    ∀ (n : Nat) {k : Nat} {s : State},
    s.txCount.toNat = n + 1 → 0 < s.now → Holds b k s.r24 →
    (∀ j, line (s.now - 1 + j * takeTime clk) = b (k + j)) →
    ∃ s', takeBits clk line (n + 1) s = ((), s') ∧ Holds b (k + (n + 1)) s'.r24
  | 0, k, s, h, hnow, hholds, hline => by
      have hlast : s.txCount - 1 = 0 := by
        rw [show s.txCount = 1 from BitVec.eq_of_toNat_eq h]
        rfl
      rw [takeBits, take_run, if_neg (not_not_intro hlast)]
      refine ⟨_, rfl, ?_⟩
      have hbit := hline 0
      rw [Nat.zero_mul, Nat.add_zero, Nat.add_zero] at hbit
      show Holds b (k + 1) (shiftIn s.r24 (line (s.now - 1)))
      rw [hbit]
      exact hholds.step
  | n + 1, k, s, h, hnow, hholds, hline => by
      have hdec : (s.txCount - 1).toNat = n + 1 := by
        have := s.txCount.isLt
        rw [BitVec.toNat_sub, show (1 : Byte).toNat = 1 from rfl]
        omega
      have hne : s.txCount - 1 ≠ 0 := by
        intro h0
        rw [h0] at hdec
        exact absurd hdec (by simp)
      have hstep : Holds b (k + 1) (shiftIn s.r24 (line (s.now - 1))) := by
        have hbit := hline 0
        rw [Nat.zero_mul, Nat.add_zero, Nat.add_zero] at hbit
        rw [hbit]
        exact hholds.step
      have hnext (j : Nat) : line ((s.took clk line).now + 2 - 1 + j * takeTime clk)
          = b (k + 1 + j) := by
        have hlater : s.now + 1 + 3 + 1 + 3 + bitWait clk + 1 + 2 - 1 + j * takeTime clk
            = s.now - 1 + (j + 1) * takeTime clk := by
          rw [Nat.succ_mul, takeTime]
          omega
        rw [State.took, hlater, hline, show k + (j + 1) = k + 1 + j by omega]
      obtain ⟨s', hrun, hend⟩ := takeBits_run clk line n (s := { s.took clk line with
        now := (s.took clk line).now + 2 }) hdec (Nat.succ_pos _) hstep hnext
      rw [takeBits, take_run, if_pos hne]
      exact ⟨s', hrun, by rwa [show k + (n + 1 + 1) = k + 1 + (n + 1) by omega]⟩

/-- The cycle of the line in which `uart_rx`, called in cycle `t`, takes its
first sample. -/
def firstTake (clk : Clock) (t : Nat) : Nat := t + 3 + bitWait clk

theorem uartRx_run (clk : Clock) (line : Nat → Bool) (s : State) : ∃ s', uartRx clk line s = ((), s')
    ∧ Holds (fun j => line (firstTake clk s.now + j * takeTime clk)) 8 s'.r24 := by
  have hwait := x4wait_run clk { s with now := s.now + 3 }
  obtain ⟨s', hrun, hholds⟩ := takeBits_run clk line
    (b := fun j => line (firstTake clk s.now + j * takeTime clk)) 7 (k := 0) (s := { s with
      txCount := 8, waitCount := 0, now := s.now + 3 + bitWait clk + 1 }) rfl (Nat.succ_pos _)
    (.zero _ _) (fun j => by rw [Nat.zero_add]; rfl)
  have hstart : uartRx clk line s = (do
      x4wait clk
      modify fun s => { s with txCount := 8 }
      tick 1
      takeBits clk line 8
      tick 4 : LineM Unit) { s with now := s.now + 3 } := rfl
  rw [hstart, bind_of_run hwait, modify_bind_run, bind_run (tick 1)]
  exact ⟨_, bind_of_run hrun _, hholds⟩

/-- What `uart_rx` makes of a byte that another board sends, when it is
called `latency` cycles after the start bit begins. -/
def received (clk : Clock) (fromOther : Nat → Bool) (c : Byte) (sender receiver : State)
    (latency : Nat) : Byte :=
  (uartRx clk (uartTx clk fromOther c sender).2.port
    { receiver with now := sender.now + 8 + latency }).2.r24

/-- The bit that each sample finds. -/
theorem received_bits (clk : Clock) (fromOther : Nat → Bool) (c : Byte) (sender receiver : State)
    (latency : Nat) :
    Holds (fun j => frameOut clk c (sender.now + 8) sender.port
      (firstTake clk (sender.now + 8 + latency) + j * takeTime clk)) 8
      (received clk fromOther c sender receiver latency) := by
  obtain ⟨s', hrun, hholds⟩ := uartRx_run clk (uartTx clk fromOther c sender).2.port
    { receiver with now := sender.now + 8 + latency }
  rw [received, hrun]
  rw [uartTx_port] at hholds
  exact hholds

/-- The latencies of which each byte comes to no harm. -/
def InTime : Clock → Nat → Prop
  | .mhz20, latency => 24 ≤ latency ∧ latency < 533
  | .mhz16, latency => 216 ≤ latency ∧ latency < 477

/-- The samples fall into the bits of the data, one after the other. -/
theorem takes_inTime {latency j : Nat} (h : InTime clk latency) (hj : j < 8) (e : Nat) :
    e + (j + 1) * bitTime clk ≤ firstTake clk (e + latency) + j * takeTime clk
      ∧ firstTake clk (e + latency) + j * takeTime clk < e + (j + 1 + 1) * bitTime clk := by
  cases clk with
  | mhz20 =>
      obtain ⟨hlo, hhi⟩ : 24 ≤ latency ∧ latency < 533 := h
      have hbit : bitTime .mhz20 = 523 := rfl
      have htake : takeTime .mhz20 = 521 := rfl
      have hfirst : firstTake .mhz20 (e + latency) = e + latency + 513 := rfl
      rw [hbit, htake, hfirst]
      omega
  | mhz16 =>
      obtain ⟨hlo, hhi⟩ : 216 ≤ latency ∧ latency < 477 := h
      have hbit : bitTime .mhz16 = 443 := rfl
      have htake : takeTime .mhz16 = 417 := rfl
      have hfirst : firstTake .mhz16 (e + latency) = e + latency + 409 := rfl
      rw [hbit, htake, hfirst]
      omega

/-- Too early, the last sample still finds the bit before the last; too
late, the first finds the second or a later one. -/
theorem takes_outside {latency : Nat} (h : ¬InTime clk latency) (e : Nat) :
    firstTake clk (e + latency) + 7 * takeTime clk < e + 8 * bitTime clk
      ∨ e + 2 * bitTime clk ≤ firstTake clk (e + latency) := by
  cases clk with
  | mhz20 =>
      have hout : ¬(24 ≤ latency ∧ latency < 533) := h
      have hbit : bitTime .mhz20 = 523 := rfl
      have htake : takeTime .mhz20 = 521 := rfl
      have hfirst : firstTake .mhz20 (e + latency) = e + latency + 513 := rfl
      rw [hbit, htake, hfirst]
      omega
  | mhz16 =>
      have hout : ¬(216 ≤ latency ∧ latency < 477) := h
      have hbit : bitTime .mhz16 = 443 := rfl
      have htake : takeTime .mhz16 = 417 := rfl
      have hfirst : firstTake .mhz16 (e + latency) = e + latency + 409 := rfl
      rw [hbit, htake, hfirst]
      omega

theorem frameBit_80 : ∀ k ≤ 7, frameBit 0x80 k = false := by decide

theorem frameBit_fe : ∀ k ≤ 9, 2 ≤ k → frameBit 0xfe k = true := by decide

/-- Every byte arrives exactly at these latencies. -/
theorem received_iff (fromOther : Nat → Bool) (sender receiver : State) (latency : Nat) :
    (∀ c, received clk fromOther c sender receiver latency = c) ↔ InTime clk latency := by
  constructor
  · intro hall
    by_contra hout
    let e := sender.now + 8
    have hfirst : e ≤ firstTake clk (e + latency) := by
      rw [firstTake]
      omega
    rcases takes_outside hout e with hearly | hlate
    · -- the last bit of 0x80 is read low
      let u := firstTake clk (e + latency) + 7 * takeTime clk
      have hcarries := frameOut_carries clk 0x80 e sender.port u (by omega) (by omega)
      have hcut : (u - e) / bitTime clk ≤ 7 := by
        have := Nat.div_lt_of_lt_mul (show u - e < bitTime clk * 8 by omega)
        omega
      rw [frameBit_80 _ hcut] at hcarries
      have hbit := received_bits clk fromOther 0x80 sender receiver latency 7 (by decide)
        (by decide)
      rw [hall] at hbit
      exact absurd (hbit.trans hcarries) (by decide)
    · -- the first bit of 0xfe is read high
      let u := firstTake clk (e + latency)
      have hhigh : frameOut clk 0xfe e sender.port u = true := by
        rcases Nat.lt_or_ge u (e + 10 * bitTime clk) with hu | hu
        · rw [frameOut_carries clk 0xfe e sender.port u hfirst hu]
          have hpos := bitTime_pos clk
          have hge := (Nat.le_div_iff_mul_le hpos).mpr (show 2 * bitTime clk ≤ u - e by omega)
          have hlt := Nat.div_lt_of_lt_mul (show u - e < bitTime clk * 10 by omega)
          exact frameBit_fe _ (by omega) hge
        · exact frameOut_after clk _ _ (by omega)
      have hbit : _ = frameOut clk 0xfe e sender.port (u + 0 * takeTime clk) :=
        received_bits clk fromOther 0xfe sender receiver latency 0 (by decide) (by decide)
      simp only [hall, Nat.zero_mul, Nat.add_zero, hhigh] at hbit
      exact absurd hbit (by decide)
  · intro h c
    refine (received_bits clk fromOther c sender receiver latency).eq_of_frame (by decide) fun j hj => ?_
    rw [Nat.sub_self, Nat.zero_add]
    obtain ⟨hlo, hhi⟩ := takes_inTime h hj (sender.now + 8)
    rw [frameOut_bit clk c _ (by omega) hlo hhi, frameBit_data hj]

end UartLine

end CpMega88
