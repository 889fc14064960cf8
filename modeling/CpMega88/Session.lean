import CpMega88.EepromCrash
import CpMega88.Footprint

/-!
# A session at the monitor

What a person who types at the monitor can rely on. `Desk` is what they
have to do with: RAM, the settings and whether the machine boots by
itself; `Desk.step` says what a line does to it. Whatever else the
commands do, with the card, the directories or the console, the desk is
what the lines have made of it (`session_refines`).

The keys of a line come first (`typedLine`): from any buffer, the string
that the commands find is the line as it was left by the erasures.
-/

namespace CpMega88

open Bytes

namespace Prompt

/-! ## What has been typed -/

/-- What a key does to the line, recalls apart. -/
def editKey (line : List Byte) (k : Byte) : List Byte :=
  if k = 0x08 ∨ k = 0x7f then line.dropLast
  else if k = 0x0a then line
  else if line.length = maxPrompt then line
  else line ++ [k]

def typedLine (keys : List Byte) : List Byte := keys.foldl editKey []

theorem key_line {d : Draft} {k : Byte} (hk : k ≠ 0x10) : (d.key k).line = editKey d.line k := by
  have hrecall : ¬(d.line = [] ∧ k = 0x10) := fun h => hk h.2
  simp only [Draft.key, editKey, if_neg hrecall]
  split_ifs with herase hlf hfull
  · rfl
  · rfl
  · rw [Draft.type, dif_pos hfull]
  · rw [Draft.type, dif_neg hfull]

/-- Without a recall the line does not depend on the buffer, nor can it
run out of it. -/
theorem keys_line {keys : List Byte} (hkeys : 0x10 ∉ keys) (d : Draft) :
    (keys.foldl Draft.key d).line = keys.foldl editKey d.line ∧ d.TakesAll keys := by
  induction keys generalizing d with
  | nil => exact ⟨rfl, trivial⟩
  | cons k keys ih =>
      rw [List.mem_cons, not_or] at hkeys
      obtain ⟨hline, htakes⟩ := ih hkeys.2 (d.key k)
      rw [key_line (Ne.symm hkeys.1)] at hline
      exact ⟨hline, fun h => absurd h.2.symm hkeys.1, htakes⟩

/-! ## The strings found -/

theorem string_text {cs : List Byte} (hnul : 0 ∈ cs) {p left : Nat} {e : Editor}
    (hp : e.buffer.toList.drop p = cs) (hleft : cs.length < left) :
    string left p e = some (Machine.cstr cs, e) := by
  induction cs generalizing p left with
  | nil => exact absurd hnul List.not_mem_nil
  | cons c cs ih =>
      rcases left with _ | left
      · exact absurd hleft (Nat.not_lt_zero _)
      rw [string, Prog.bind_of_run (load_run hp), Prog.ite_run, Machine.cstr_cons]
      split_ifs with hc
      · rfl
      · rw [Prog.bind_of_run (ih (nul_later hnul hc) (drop_succ hp)
          (Nat.lt_of_succ_lt_succ hleft))]
        rfl

/-- `split` finds a place with the rest of the line in it. -/
theorem split_text (sep : Byte) {cs : List Byte} (hnul : 0 ∈ cs) {p left : Nat} {e : Editor}
    (hp : e.buffer.toList.drop p = cs) (hleft : cs.length < left) :
    ∃ found, split sep left p e = some (found, e)
      ∧ found.map (e.buffer.toList.drop ·) = Machine.split sep cs
      ∧ ∀ q ∈ found, 0 ∈ e.buffer.toList.drop q := by
  induction cs generalizing p left with
  | nil => exact absurd hnul List.not_mem_nil
  | cons c cs ih =>
      rcases left with _ | left
      · exact absurd hleft (Nat.not_lt_zero _)
      rw [split, Prog.bind_of_run (load_run hp), Prog.ite_run, Prog.ite_run, Machine.split]
      split_ifs with hc hsep
      · exact ⟨none, rfl, rfl, fun q hq => absurd hq (Option.not_mem_none q)⟩
      · refine ⟨some (p + 1), rfl, congrArg some (drop_succ hp), ?_⟩
        rintro q ⟨⟩
        rw [drop_succ hp]
        exact nul_later hnul hc
      · exact ih (nul_later hnul hc) (drop_succ hp) (Nat.lt_of_succ_lt_succ hleft)

theorem strings_text {e : Editor} (hnul : 0 ∈ e.buffer.toList) :
    strings e = some ((Machine.cstr e.buffer.toList,
      (Machine.split 0x20 e.buffer.toList).map Machine.cstr), e) := by
  have hleft (p : Nat) : (e.buffer.toList.drop p).length < maxPrompt + 2 := by
    rw [List.length_drop, Vector.length_toList]
    omega
  obtain ⟨found, hfound, hrest, hinside⟩ := split_text 0x20 (p := 0) hnul rfl (hleft 0)
  have hcmd := string_text (p := 0) hnul rfl (hleft 0)
  rw [strings, Prog.bind_of_run hfound, Prog.bind_of_run hcmd, ← hrest]
  cases found with
  | none => rfl
  | some q =>
      have harg := string_text (hinside q rfl) rfl (hleft q)
      exact Prog.bind_of_run harg _

end Prompt

namespace Machine

/-! ## A line at the prompt -/

theorem split_cstr (c : Byte) (s : List Byte) : split c (cstr s) = (split c s).map cstr := by
  induction s with
  | nil => rfl
  | cons b s ih =>
      rw [cstr_cons, split]
      split_ifs with hb hc
      · rfl
      · rw [split, if_neg hb, if_pos hc]
        rfl
      · rw [split, if_neg hb, if_neg hc, ih]

theorem cstr_append_nul (s r : List Byte) : cstr (s ++ 0 :: r) = cstr s := by
  induction s with
  | nil => rfl
  | cons c s ih => rw [List.cons_append, cstr_cons, cstr_cons, ih]

end Machine

namespace Prompt

/-- What is typed reaches the commands: the keys of a line, up to the
return, and no more of the input. -/
theorem prompt_typed {e : Editor} {keys : List Byte} {rest : List Int} (hcr : 0x0d ∉ keys)
    (hrecall : 0x10 ∉ keys)
    (h : ahead e.console = codes keys ++ ((0x0d : Byte).toNat : Int) :: rest) :
    ∃ e', prompt e = some ((Machine.cstr (typedLine keys),
        Machine.split 0x20 (Machine.cstr (typedLine keys))), e') ∧ ahead e'.console = rest := by
  obtain ⟨e₀, hstart, h₀⟩ := start_run h
  have hfuel : keys.length < e₀.console.stdin.length + 2 := by
    have hlength := ahead_length e₀.console
    rw [h₀.input] at hlength
    simp [codes] at hlength
    omega
  obtain ⟨hline, htakes⟩ := keys_line hrecall (.blank e.buffer)
  obtain ⟨e₁, hloop, h₁⟩ := editLoop_run h₀ hcr htakes hfuel
  generalize keys.foldl Draft.key (.blank e.buffer) = d at h₁ hline
  have hroom : d.line.length < d.cells.toList.length := by
    rw [Vector.length_toList]
    exact Draft.room
  have hstore : store d.line.length 0 e₁
      = some ((), { e₁ with buffer := e₁.buffer.set d.line.length 0 Draft.room }) :=
    dif_pos Draft.room
  have hbuffer : (e₁.buffer.set d.line.length 0 Draft.room).toList
      = typedLine keys ++ 0 :: d.cells.toList.drop (d.line.length + 1) := by
    rw [h₁.buffer, Vector.toList_set, List.set_eq_take_append_cons_drop, if_pos hroom, ← d.kept,
      hline]
    rfl
  have hstrings := strings_text
    (e := { e₁ with buffer := e₁.buffer.set d.line.length 0 Draft.room })
    (by rw [hbuffer]; exact List.mem_append_right _ List.mem_cons_self)
  refine ⟨{ e₁ with buffer := e₁.buffer.set d.line.length 0 Draft.room }, ?_, h₁.input⟩
  rw [prompt, Prog.bind_of_run hstart, Prog.get_bind_run, Prog.bind_of_run hloop,
    Prog.get_bind_run, h₁.size, Prog.bind_of_run hstore, hstrings, ← Machine.split_cstr, hbuffer,
    Machine.cstr_append_nul]

end Prompt

namespace Machine

open CharArray (field)
open Fat (Volume fatNext fatName fatInit fatAttr fatChdir fatRewind)
open Prompt (ahead codes typedLine)

/-! ## Numbers that are returned -/

theorem int_some {n m : Int} (h : int n = some m) : m = n := by
  rw [int] at h
  split_ifs at h
  exact (Option.some.inj h).symm

theorem numLoop_some {base : Nat} (hbase : 0 < base) {digit : Byte → Option Nat}
    (hnul : digit 0 = none) {s : List Byte} (rc : Nat) {n : Int}
    (h : numLoop base digit s rc = some n) :
    n = (Nat.ofDigits base (digitRun digit s).reverse
      + rc * base ^ (digitRun digit s).length : Nat) := by
  induction s generalizing rc with
  | nil =>
      cases h
      simp [digitRun]
  | cons c s ih =>
      rw [numLoop] at h
      split_ifs at h with hc
      · cases h
        rw [digitRun_end (hc ▸ hnul)]
        simp
      obtain ⟨m, hmul, h⟩ := Option.bind_eq_some_iff.mp h
      obtain rfl := int_some hmul
      cases hd : digit c with
      | none =>
          rw [hd] at h
          cases h
          rw [digitRun_end hd, Int.mul_tdiv_cancel _ (by omega)]
          simp
      | some d =>
          rw [hd] at h
          obtain ⟨m, hadd, h⟩ := Option.bind_eq_some_iff.mp h
          obtain rfl := int_some hadd
          rw [digitRun_digit hd, List.length_cons, ofDigits_run]
          exact ih (rc * base + d) (by exact_mod_cast h)

/-- Wherever `getnum` returns, it is the value of the number. -/
theorem getnum_some {s : List Byte} {n : Int} (h : getnum s = some n) : n = numeralValue s := by
  rw [getnum] at h
  rw [numeralValue, numeral]
  by_cases hx : ascii "0x" <+: s
  · rw [if_pos ((strndcmp_zero_iff s).mpr hx)] at h
    rw [if_pos hx, numLoop_some (by decide) hexDigit_zero 0 h]
    simp
  · rw [if_neg (mt (strndcmp_zero_iff s).mp hx)] at h
    rw [if_neg hx, numLoop_some (by decide) decDigit_zero 0 h]
    simp

theorem number_eq_some {s : List Byte} {t t' : State} {n : Int} (h : number s t = some (n, t')) :
    n = numeralValue s ∧ t' = t := by
  obtain ⟨m, hm, hpair⟩ := Option.map_eq_some_iff.mp h
  cases hpair
  exact ⟨getnum_some hm, rfl⟩

/-! ## The desk -/

/-- What a line typed at the monitor can change for the one who types it:
RAM, the two settings, and the byte of the EEPROM that makes
`machine_boot` boot. -/
@[ext]
structure Desk where
  ram : Mem
  wrPrt : Byte
  vtCnv : Byte
  auto : Byte

def State.desk (s : State) : Desk := ⟨s.sram, s.wrPrt, s.vtCnv, s.eeprom.cells 8⟩

/-- One of two values, by an argument that is `on` or anything else. -/
def onOff (arg : List Byte) (on off : Byte) : Byte := if cstr arg = ascii "on" then on else off

/-- The four commands that have to do with the desk. -/
def Desk.obey (d : Desk) (name arg : List Byte) : Desk :=
  if name = ascii "a" then { d with auto := onOff arg 0x88 0 }
  else if name = ascii "wp" then { d with wrPrt := onOff arg 1 0 }
  else if name = ascii "vt" then { d with vtCnv := onOff arg 1 0 }
  else if name = ascii "mw" then
    match split 0x2c arg with
    | none => d
    | some data => { d with
        ram := Function.update d.ram (BitVec.ofNat 16 (numeralValue arg))
          (BitVec.ofNat 8 (numeralValue data)) }
  else d

/-- A line is a name, and behind the first space an argument. -/
def Desk.step (d : Desk) (line : List Byte) : Desk :=
  match split 0x20 line with
  | none => d
  | some arg => d.obey (field 0x20 line) arg

theorem Desk.obey_other (d : Desk) {name : List Byte}
    (h : name ∉ [ascii "a", ascii "wp", ascii "vt", ascii "mw"]) (arg : List Byte) :
    d.obey name arg = d := by
  simp only [List.mem_cons, List.not_mem_nil, or_false, not_or] at h
  obtain ⟨ha, hwp, hvt, hmw⟩ := h
  rw [Desk.obey, if_neg ha, if_neg hwp, if_neg hvt, if_neg hmw]

theorem Desk.step_other (d : Desk) {line : List Byte}
    (h : field 0x20 line ∉ [ascii "a", ascii "wp", ascii "vt", ascii "mw"]) : d.step line = d := by
  rw [Desk.step]
  cases split 0x20 line with
  | none => rfl
  | some arg => exact d.obey_other h arg

/-! ## What leaves it alone -/

/-- RAM and settings are what they were, and so is what has been typed. -/
structure Beside (s s' : State) : Prop where
  sram : s'.sram = s.sram
  wrPrt : s'.wrPrt = s.wrPrt
  vtCnv : s'.vtCnv = s.vtCnv
  input : ahead s'.console = ahead s.console

/-- And so is the EEPROM. -/
structure Aside (s s' : State) : Prop extends Beside s s' where
  eeprom : s'.eeprom = s.eeprom

instance : IsPreorder State Beside where
  refl _ := ⟨rfl, rfl, rfl, rfl⟩
  trans _ _ _ h h' := ⟨h'.sram.trans h.sram, h'.wrPrt.trans h.wrPrt, h'.vtCnv.trans h.vtCnv,
    h'.input.trans h.input⟩

instance : IsPreorder State Aside where
  refl s := ⟨Std.Refl.refl s, rfl⟩
  trans _ _ _ h h' := ⟨IsTrans.trans _ _ _ h.toBeside h'.toBeside, h'.eeprom.trans h.eeprom⟩

instance : MayPrint Aside := ⟨fun _ _ => ⟨⟨rfl, rfl, rfl, rfl⟩, rfl⟩⟩

instance : MayPrint Beside := ⟨fun _ _ => ⟨rfl, rfl, rfl, rfl⟩⟩

instance : MayNote Beside := ⟨fun _ _ => ⟨rfl, rfl, rfl, rfl⟩⟩

instance : MayMount Beside := ⟨fun _ _ => ⟨rfl, rfl, rfl, rfl⟩⟩

/-- Nothing on the desk is part of the volume. -/
theorem ofVolume_aside (v v' : Fat.Volume) : OfVolume Aside v v' := by
  rintro s rfl
  exact ⟨⟨rfl, rfl, rfl, rfl⟩, rfl⟩

theorem ofVolume_beside (v v' : Fat.Volume) : OfVolume Beside v v' :=
  fun s hs => (ofVolume_aside v v' s hs).toBeside

instance : Fat.MayRead (OfVolume Aside) := .of_image fun v v' _ => ofVolume_aside v v'

instance : Fat.MayWrite (OfVolume Aside) where
  write v _ _ := ofVolume_aside v _
  store v _ := ofVolume_aside v _

instance : Fat.MayBrowse (OfVolume Aside) := .of_read fun v _ => ofVolume_aside v _

instance : Fat.MayEnter (OfVolume Aside) := ⟨fun v _ _ => ofVolume_aside v _⟩

instance : Fat.MayInit (OfVolume Aside) := ⟨fun v _ => ofVolume_aside v _⟩

instance : Fat.MayReopen (OfVolume Aside) := ⟨fun v _ _ => ofVolume_aside v _⟩

instance : Fat.MayRead (OfVolume Beside) := .of_image fun v v' _ => ofVolume_beside v v'

instance : Fat.MayBrowse (OfVolume Beside) := .of_read fun v _ => ofVolume_beside v _

instance : Fat.MayOpen (OfVolume Beside) where
  cluster v _ := ofVolume_beside v _
  size v _ := ofVolume_beside v _

/-! ## A line -/

/-- The line has done to the desk what it says. -/
structure Done (line : List Byte) (s s' : State) : Prop where
  works : s'.eeprom.Works
  desk : s'.desk = s.desk.step line
  input : ahead s'.console = ahead s.console

theorem Aside.desk {s s' : State} (h : Aside s s') : s'.desk = s.desk := by
  rw [State.desk, State.desk, h.sram, h.wrPrt, h.vtCnv, h.eeprom]

theorem Aside.done {line : List Byte} {s s' : State} (h : Aside s s') (hs : s.eeprom.Works)
    (hstep : s.desk.step line = s.desk) : Done line s s' :=
  ⟨h.eeprom ▸ hs, h.desk.trans hstep.symm, h.input⟩

theorem Done.before {line : List Byte} {s t u : State} (h : Done line t u) (hst : Aside s t) :
    Done line s u :=
  ⟨h.works, hst.desk ▸ h.desk, h.input.trans hst.input⟩

theorem Done.after {line : List Byte} {s t u : State} (h : Done line s t) (htu : Aside t u) :
    Done line s u :=
  ⟨htu.eeprom ▸ h.works, htu.desk.trans h.desk, htu.input.trans h.input⟩

theorem on_iff (arg : List Byte) : strdcmp (ascii "on") arg 0 = 0 ↔ cstr arg = ascii "on" := by
  rw [strdcmp_nul_iff, eq_comm]
  rfl

theorem loByte_ofNat (n : Nat) : loByte (BitVec.ofNat 16 n) = BitVec.ofNat 8 n := by
  apply BitVec.eq_of_toNat_eq
  rw [toNat_loByte, BitVec.toNat_ofNat, BitVec.toNat_ofNat]
  omega

section Commands

variable {line arg : List Byte} {s s' : State} (hs : s.eeprom.Works)
  (hline : split 0x20 line = some arg)

include hs

/-- `wp` and `vt`, by the setting they make. -/
theorem setting_done {text : List Byte} (set : Byte → State → State)
    (hset : ∀ t, t.eeprom.Works → Done line t (set (onOff arg 1 0) t))
    (h : (do
      puts text
      if strdcmp (ascii "on") arg 0 = 0 then
        puts (ascii " on")
        modify (set 1)
      else
        puts (ascii " off")
        modify (set 0)
      putsln (ascii ">") : MachineM Unit) s = some ((), s')) : Done line s s' := by
  obtain ⟨_, t, htext, h⟩ := Prog.bind_eq_some.mp h
  have ht : Aside s t := (puts_returns _).keeps s _ t htext
  have hends {on : List Byte} {v : Byte} (hv : onOff arg 1 0 = v)
      (h : (do puts on; modify (set v); putsln (ascii ">") : MachineM Unit) t = some ((), s')) :
      Done line s s' := by
    obtain ⟨_, u, hon, h⟩ := Prog.bind_eq_some.mp h
    have hu : Aside t u := (puts_returns _).keeps t _ u hon
    rw [Prog.modify_bind_run] at h
    have hworks : u.eeprom.Works := hu.eeprom ▸ ht.eeprom ▸ hs
    exact (((hv ▸ hset u hworks).after ((putsln_returns _).keeps _ _ s' h)).before hu).before ht
  rw [Prog.ite_run] at h
  split_ifs at h with hon
  · exact hends (if_pos ((on_iff arg).mp hon)) h
  · exact hends (if_neg (mt (on_iff arg).mpr hon)) h

theorem mount_done {fuel : Nat} (hname : field 0x20 line = ascii "m")
    (h : mount fuel arg s = some ((), s')) : Done line s s' := by
  have hstep : s.desk.step line = s.desk := s.desk.step_other (hname ▸ by decide)
  obtain ⟨hsram, hprt, hcnv, hinput⟩ : Beside s s' := mount_keeps fuel arg s _ s' h
  have hcell : s'.eeprom.Works ∧ s'.eeprom.cells 8 = s.eeprom.cells 8 := by
    cases mount_ends h with
    | missing hmode hrom => exact ⟨hrom ▸ hs, hrom ▸ rfl⟩
    | found hmode hopens hrom =>
        obtain ⟨hworks, hcells, -⟩ := hs.perform (mountCalls arg)
        rw [← hrom] at hworks hcells
        exact ⟨hworks, hcells ▸ mountCalls_below hopens (by decide) _⟩
  refine ⟨hcell.1, ?_, hinput⟩
  rw [hstep, State.desk, State.desk, hsram, hprt, hcnv, hcell.2]

include hline

theorem wp_done (hname : field 0x20 line = ascii "wp") (h : wp arg s = some ((), s')) :
    Done line s s' := by
  refine setting_done hs (fun v s => { s with wrPrt := v }) (fun t ht => ⟨ht, ?_, rfl⟩) h
  rw [Desk.step, hline, hname]
  rfl

theorem vt100_done (hname : field 0x20 line = ascii "vt") (h : vt100 arg s = some ((), s')) :
    Done line s s' := by
  refine setting_done hs (fun v s => { s with vtCnv := v }) (fun t ht => ⟨ht, ?_, rfl⟩) h
  rw [Desk.step, hline, hname]
  rfl

theorem autoBoot_done (hname : field 0x20 line = ascii "a") (h : autoBoot arg s = some ((), s')) :
    Done line s s' := by
  have hends {text : List Byte} {v : Byte} (hv : onOff arg 0x88 0 = v)
      (h : (do putsln text; onEeprom (Eeprom.write 8 v) : MachineM Unit) s = some ((), s')) :
      Done line s s' := by
    obtain ⟨_, t, htext, h⟩ := Prog.bind_eq_some.mp h
    have ht : Aside s t := (putsln_returns _).keeps s _ t htext
    rw [onEeprom_run] at h
    cases h
    obtain ⟨hworks, hcells, -⟩ := (ht.eeprom ▸ hs : t.eeprom.Works).write 8 v
    refine Done.before (t := t) ⟨hworks, ?_, rfl⟩ ht
    rw [Desk.step, hline, hname, State.desk, hcells, CellWrites.apply_cons,
      CellWrites.apply_nil, Function.update_self, ← hv]
    rfl
  rw [autoBoot, Prog.ite_run] at h
  split_ifs at h with hon
  · exact hends (if_pos ((on_iff arg).mp hon)) h
  · exact hends (if_neg (mt (on_iff arg).mpr hon)) h

theorem memoryWrite_done {data : List Byte} (hname : field 0x20 line = ascii "mw")
    (hdata : split 0x2c arg = some data) (h : memoryWrite arg data s = some ((), s')) :
    Done line s s' := by
  obtain ⟨nAddr, u, hu, hrest⟩ := Prog.bind_eq_some.mp h
  obtain ⟨rfl, rfl⟩ := number_eq_some hu
  obtain ⟨nData, v, hv, hwrite⟩ := Prog.bind_eq_some.mp hrest
  obtain ⟨rfl, rfl⟩ := number_eq_some hv
  simp only [BitVec.ofInt_natCast, loByte_ofNat] at hwrite
  obtain ⟨_, t₁, h₁, h⟩ := Prog.bind_eq_some.mp hwrite
  obtain ⟨_, t₂, h₂, h⟩ := Prog.bind_eq_some.mp h
  obtain ⟨_, t₃, h₃, h⟩ := Prog.bind_eq_some.mp h
  obtain ⟨_, t₄, h₄, h⟩ := Prog.bind_eq_some.mp h
  obtain ⟨_, t₅, h₅, h⟩ := Prog.bind_eq_some.mp h
  have hsaid : Aside v t₅ := by
    have hputs : Aside v t₁ := (puts_returns _).keeps v _ t₁ h₁
    have haddr : Aside t₁ t₂ := (puthexWord_returns _).keeps t₁ _ t₂ h₂
    have hcomma : Aside t₂ t₃ := (puts_returns _).keeps t₂ _ t₃ h₃
    have hdata : Aside t₃ t₄ := (puthex_returns _).keeps t₃ _ t₄ h₄
    have hend : Aside t₄ t₅ := (putsln_returns _).keeps t₄ _ t₅ h₅
    exact IsTrans.trans _ _ _ (IsTrans.trans _ _ _ hputs haddr)
      (IsTrans.trans _ _ _ hcomma (IsTrans.trans _ _ _ hdata hend))
  cases h
  refine Done.before (t := t₅) ⟨hsaid.eeprom ▸ hs, ?_, rfl⟩ hsaid
  rw [Desk.step, hline, hname]
  dsimp only
  rw [Desk.obey, if_neg (by simp [ascii]), if_neg (by simp [ascii]), if_neg (by simp [ascii]),
    if_pos rfl, hdata]
  rfl

end Commands

/-- A command without its argument is answered with the help. -/
theorem withArg_done {line : List Byte} {s s' : State} (hs : s.eeprom.Works)
    {x : List Byte → MachineM Unit}
    (hx : ∀ arg, split 0x20 line = some arg → x arg s = some ((), s') → Done line s s')
    (h : withArg (split 0x20 line) x s = some ((), s')) : Done line s s' := by
  cases hline : split 0x20 line with
  | none =>
      rw [hline] at h
      have hsame : Aside s s' := usage_returns.keeps s _ s' h
      refine hsame.done hs ?_
      rw [Desk.step, hline]
  | some arg =>
      rw [hline] at h
      exact hx arg hline h

theorem ite_of {α : Type} {P : α → Prop} {c : Prop} [Decidable c] {x y : α} (hx : c → P x)
    (hy : ¬c → P y) : P (if c then x else y) := by
  split
  · exact hx ‹_›
  · exact hy ‹_›

theorem named {name line : List Byte} (hname : ∀ c ∈ name, c ≠ 0 ∧ c ≠ 0x20)
    (h : strdcmp name line 0x20 = 0) : field 0x20 line = name :=
  (names_command hname line).mp h

theorem field_cstr (d : Byte) (line : List Byte) : field d (cstr line) = field d line := by
  induction line with
  | nil => rfl
  | cons c line ih =>
      rw [cstr_cons]
      split_ifs with hc
      · exact (CharArray.field_end (.inl hc) line).symm
      · by_cases hd : c = d
        · rw [CharArray.field_end (.inr hd), CharArray.field_end (.inr hd)]
        · have hgo : ¬(c = 0 ∨ c = d) := fun h => h.elim hc hd
          rw [CharArray.field_cons hgo, CharArray.field_cons hgo, ih]

/-- A command that takes no argument is found by the whole line. -/
theorem alone {name line : List Byte} (hname : ∀ c ∈ name, c ≠ 0 ∧ c ≠ 0x20)
    (h : strdcmp name line 0 = 0) : field 0x20 line = name := by
  have hself : cstr name = name := by
    rw [cstr, List.takeWhile_eq_self_iff]
    exact fun c hc => decide_eq_true (hname c hc).1
  rw [← field_cstr, ← (strdcmp_nul_iff _ _).mp h, hself, field, List.takeWhile_eq_self_iff]
  exact fun c hc => decide_eq_true (hname c hc)

/-- What a line is taken for, by its name. -/
theorem dispatch_cases {fuel : Nat} {line : List Byte} {arg : Option (List Byte)}
    {P : MachineM Unit → Prop}
    (ha : field 0x20 line = ascii "a" → P (withArg arg autoBoot))
    (hwp : field 0x20 line = ascii "wp" → P (withArg arg wp))
    (hmr : field 0x20 line = ascii "mr" → P (withArg arg memoryRead))
    (hmw : field 0x20 line = ascii "mw" →
      P (withArg arg fun addr => withArg (split 0x2c addr) (memoryWrite addr)))
    (hso : field 0x20 line = ascii "so" → P sdcardOpen)
    (hsd : field 0x20 line = ascii "sd" → P sdcardDump)
    (hsf : field 0x20 line = ascii "sf" → P (withArg arg sdcardFetch))
    (hss : field 0x20 line = ascii "ss" → P (withArg arg sdcardStore))
    (hls : field 0x20 line = ascii "ls" → P (ls fuel))
    (hcd : field 0x20 line = ascii "cd" → P (cd fuel arg))
    (hm : field 0x20 line = ascii "m" → P (withArg arg (mount fuel)))
    (hvt : field 0x20 line = ascii "vt" → P (withArg arg vt100))
    (husage : field 0x20 line ∉ [ascii "a", ascii "wp", ascii "mw", ascii "sf", ascii "ss",
      ascii "vt"] → P usage) : P (dispatch fuel line arg) := by
  have hfield {name : List Byte} (hname : ∀ c ∈ name, c ≠ 0 ∧ c ≠ 0x20)
      (h : field 0x20 line = name) : strdcmp name line 0x20 = 0 := (names_command hname line).mpr h
  unfold dispatch
  refine ite_of (ha ∘ named (by simp [ascii])) fun hna => ?_
  refine ite_of (hwp ∘ named (by simp [ascii])) fun hnwp => ?_
  refine ite_of (hmr ∘ named (by simp [ascii])) fun _ => ?_
  refine ite_of (hmw ∘ named (by simp [ascii])) fun hnmw => ?_
  refine ite_of (hso ∘ alone (by simp [ascii])) fun _ => ?_
  refine ite_of (hsd ∘ alone (by simp [ascii])) fun _ => ?_
  refine ite_of (hsf ∘ named (by simp [ascii])) fun hnsf => ?_
  refine ite_of (hss ∘ named (by simp [ascii])) fun hnss => ?_
  refine ite_of (hls ∘ alone (by simp [ascii])) fun _ => ?_
  refine ite_of (hcd ∘ named (by simp [ascii])) fun _ => ?_
  refine ite_of (hm ∘ named (by simp [ascii])) fun _ => ?_
  refine ite_of (hvt ∘ named (by simp [ascii])) fun hnvt => husage fun hmem => ?_
  simp only [List.mem_cons, List.not_mem_nil, or_false] at hmem
  rcases hmem with h | h | h | h | h | h
  · exact hna (hfield (by simp [ascii]) h)
  · exact hnwp (hfield (by simp [ascii]) h)
  · exact hnmw (hfield (by simp [ascii]) h)
  · exact hnsf (hfield (by simp [ascii]) h)
  · exact hnss (hfield (by simp [ascii]) h)
  · exact hnvt (hfield (by simp [ascii]) h)

theorem Aside.done_named {line name : List Byte} {s s' : State} (h : Aside s s')
    (hs : s.eeprom.Works) (hname : field 0x20 line = name)
    (hother : name ∉ [ascii "a", ascii "wp", ascii "vt", ascii "mw"]) : Done line s s' :=
  h.done hs (s.desk.step_other (hname.symm ▸ hother))

theorem dispatch_done {fuel : Nat} {line : List Byte} {s s' : State} (hs : s.eeprom.Works)
    (h : dispatch fuel line (split 0x20 line) s = some ((), s')) : Done line s s' := by
  have haside {x : MachineM Unit} (hx : Prog.Keeps Aside x) {name : List Byte}
      (hother : name ∉ [ascii "a", ascii "wp", ascii "vt", ascii "mw"])
      (hname : field 0x20 line = name) (h : x s = some ((), s')) : Done line s s' :=
    (hx s _ s' h).done_named hs hname hother
  revert h
  refine dispatch_cases (P := fun x => x s = some ((), s') → Done line s s')
    (fun ha => withArg_done hs fun arg hline => autoBoot_done hs hline ha)
    (fun hwp => withArg_done hs fun arg hline => wp_done hs hline hwp)
    (haside (withArg_keeps memoryRead_keeps _) (by simp [ascii]))
    (fun hmw => withArg_done hs fun arg hline h => ?_)
    (haside sdcardOpen_keeps (by simp [ascii])) (haside sdcardDump_returns.keeps (by simp [ascii]))
    (haside (withArg_keeps sdcardFetch_keeps _) (by simp [ascii]))
    (haside (withArg_keeps sdcardStore_keeps _) (by simp [ascii]))
    (haside (ls_keeps fuel) (by simp [ascii])) (haside (cd_keeps fuel _) (by simp [ascii]))
    (fun hm => withArg_done hs fun arg _ => mount_done hs hm)
    (fun hvt => withArg_done hs fun arg hline => vt100_done hs hline hvt)
    (fun husage h => ?_)
  · cases hdata : split 0x2c arg with
    | none =>
        rw [hdata] at h
        have hsame : Aside s s' := usage_returns.keeps s _ s' h
        refine hsame.done hs ?_
        rw [Desk.step, hline, hmw]
        dsimp only
        rw [Desk.obey, if_neg (by simp [ascii]), if_neg (by simp [ascii]),
          if_neg (by simp [ascii]), if_pos rfl, hdata]
    | some data =>
        rw [hdata] at h
        exact memoryWrite_done hs hline hmw hdata h
  · have hsub : [ascii "a", ascii "wp", ascii "vt", ascii "mw"]
        ⊆ [ascii "a", ascii "wp", ascii "mw", ascii "sf", ascii "ss", ascii "vt"] := by simp [ascii]
    have hsame : Aside s s' := usage_returns.keeps s _ s' h
    exact hsame.done hs (s.desk.step_other fun hmem => husage (hsub hmem))

theorem execute_done {fuel : Nat} {line : List Byte} {s s' : State} (hs : s.eeprom.Works)
    (h : execute fuel line (split 0x20 line) s = some (.prompt, s')) : Done line s s' := by
  rcases Prog.ite_eq_some.mp h with ⟨hblank, h⟩ | ⟨-, h⟩
  · cases h
    have hsplit : split 0x20 line = none := by
      rcases line with _ | ⟨c, line⟩
      · rfl
      · exact if_pos hblank
    refine (Std.Refl.refl s : Aside s s).done hs ?_
    rw [Desk.step, hsplit]
  rcases Prog.ite_eq_some.mp h with ⟨-, h⟩ | ⟨-, h⟩
  · cases h
  rcases Prog.ite_eq_some.mp h with ⟨-, h⟩ | ⟨-, h⟩
  · obtain ⟨_, t, -, h⟩ := Prog.bind_eq_some.mp h
    cases h
  obtain ⟨_, t, hrun, h⟩ := Prog.bind_eq_some.mp h
  cases h
  exact dispatch_done hs hrun

/-! ## A session -/

/-- The keys of a line that is typed without a recall, up to the return. -/
def Plain (keys : List Byte) : Prop := 0x0d ∉ keys ∧ 0x10 ∉ keys

instance (keys : List Byte) : Decidable (Plain keys) := inferInstanceAs (Decidable (_ ∧ _))

/-- What `con_getchar` returns for a line. -/
def entered (keys : List Byte) : List Int := codes keys ++ [((0x0d : Byte).toNat : Int)]

/-- The line as the commands find it. -/
def lineOf (keys : List Byte) : List Byte := cstr (typedLine keys)

theorem prompt_run (fuel : Nat) (cells : Vector Byte (Prompt.maxPrompt + 1)) {keys : List Byte}
    {rest : List Int} {s : State} (hplain : Plain keys)
    (hkeys : ahead s.console = entered keys ++ rest) :
    ∃ con, prompt fuel cells s = execute fuel (lineOf keys) (split 0x20 (lineOf keys))
        { s with console := con }
      ∧ ahead con = rest := by
  rw [entered, List.append_assoc] at hkeys
  obtain ⟨e', hrun, hrest⟩ :=
    Prompt.prompt_typed (e := ⟨cells, 0, s.console⟩) hplain.1 hplain.2 hkeys
  have hedit : edit cells s = some ((lineOf keys, split 0x20 (lineOf keys)),
      { s with console := e'.console }) := by
    rw [edit, hrun]
    rfl
  exact ⟨e'.console, Prog.bind_of_run hedit _, hrest⟩

/-- A turn of the monitor takes one line, and does what it says. -/
theorem prompt_done {fuel : Nat} {cells : Vector Byte (Prompt.maxPrompt + 1)} {keys : List Byte}
    {rest : List Int} {s s' : State} (hs : s.eeprom.Works) (hplain : Plain keys)
    (hkeys : ahead s.console = entered keys ++ rest)
    (h : prompt fuel cells s = some (.prompt, s')) :
    s'.eeprom.Works ∧ s'.desk = s.desk.step (lineOf keys) ∧ ahead s'.console = rest := by
  obtain ⟨con, hrun, hrest⟩ := prompt_run fuel cells hplain hkeys
  rw [hrun] at h
  obtain ⟨hworks, hdesk, hinput⟩ := execute_done (s := { s with console := con }) hs h
  exact ⟨hworks, hdesk, hinput.trans hrest⟩

theorem monitor_cons {fuel : Nat} {cells : Vector Byte (Prompt.maxPrompt + 1)}
    {frames : List (Vector Byte (Prompt.maxPrompt + 1))} {s s' : State}
    (h : monitor fuel (cells :: frames) s = some (.prompt, s')) :
    ∃ t, prompt fuel cells s = some (.prompt, t) ∧ monitor fuel frames t = some (.prompt, s') := by
  obtain ⟨after, t, hprompt, h⟩ := Prog.bind_eq_some.mp h
  cases after with
  | prompt => exact ⟨t, hprompt, h⟩
  | reset | guest => cases h

theorem session_done (fuel : Nat) (typed : List (List Byte))
    (frames : List (Vector Byte (Prompt.maxPrompt + 1))) (rest : List Int) {s s' : State}
    (hs : s.eeprom.Works) (hplain : ∀ keys ∈ typed, Plain keys)
    (hlength : frames.length = typed.length)
    (hkeys : ahead s.console = typed.flatMap entered ++ rest)
    (h : monitor fuel frames s = some (.prompt, s')) :
    s'.eeprom.Works ∧ s'.desk = (typed.map lineOf).foldl Desk.step s.desk
      ∧ ahead s'.console = rest := by
  induction typed generalizing frames s with
  | nil =>
      obtain rfl := List.length_eq_zero_iff.mp hlength
      cases h
      exact ⟨hs, rfl, hkeys⟩
  | cons keys typed ih =>
      rcases frames with _ | ⟨cells, frames⟩
      · cases hlength
      rw [List.flatMap_cons, List.append_assoc] at hkeys
      obtain ⟨t, hprompt, hrest⟩ := monitor_cons h
      obtain ⟨hworks, hdesk, hinput⟩ :=
        prompt_done hs (hplain keys List.mem_cons_self) hkeys hprompt
      obtain ⟨hworks', hdesk', hinput'⟩ := ih frames hworks
        (fun k hk => hplain k (List.mem_cons_of_mem _ hk)) (Nat.succ.inj hlength) hinput hrest
      refine ⟨hworks', ?_, hinput'⟩
      rw [hdesk', hdesk]
      rfl

/-- The desk is what the lines have made of it, whatever else the commands
have done, and no more has been read than the lines. -/
theorem session_refines (fuel : Nat) (typed : List (List Byte))
    (frames : List (Vector Byte (Prompt.maxPrompt + 1))) (rest : List Int) {s s' : State}
    (hs : s.eeprom.Works) (hplain : ∀ keys ∈ typed, Plain keys)
    (hlength : frames.length = typed.length)
    (hkeys : ahead s.console = typed.flatMap entered ++ rest)
    (h : monitor fuel frames s = some (.prompt, s')) :
    s'.desk = (typed.map lineOf).foldl Desk.step s.desk ∧ ahead s'.console = rest :=
  (session_done fuel typed frames rest hs hplain hlength hkeys h).2

/-! ## What `mr` shows -/

/-- A line with another name than `r` and `b` comes to the commands. -/
theorem execute_dispatch {fuel : Nat} {line : List Byte} (arg : Option (List Byte))
    (hblank : line.headD 0 ≠ 0) (hname : field 0x20 line ∉ [ascii "r", ascii "b"]) :
    execute fuel line arg = (do dispatch fuel line arg; return .prompt) := by
  simp only [List.mem_cons, List.not_mem_nil, or_false, not_or] at hname
  obtain ⟨hr, hb⟩ := hname
  rw [execute, if_neg hblank, if_neg (mt (alone (by simp [ascii])) hr),
    if_neg (mt (alone (by simp [ascii])) hb)]

theorem headD_ne {line : List Byte} (h : field 0x20 line ≠ []) : line.headD 0 ≠ 0 := by
  intro h0
  rcases line with _ | ⟨c, line⟩
  · exact h rfl
  · exact h (CharArray.field_end (.inl h0) line)

theorem dispatch_mr {fuel : Nat} {line : List Byte} (h : field 0x20 line = ascii "mr")
    (arg : Option (List Byte)) : dispatch fuel line arg = withArg arg memoryRead := by
  have hother {name : List Byte} (hname : ∀ c ∈ name, c ≠ 0 ∧ c ≠ 0x20) (hne : ascii "mr" ≠ name) :
      ¬strdcmp name line 0x20 = 0 := fun hcmp => hne (h.symm.trans (named hname hcmp))
  rw [dispatch, if_neg (hother (by simp [ascii]) (by simp [ascii])),
    if_neg (hother (by simp [ascii]) (by simp [ascii])),
    if_pos ((names_command (by simp [ascii]) line).mpr h)]

theorem memoryRead_shows {arg : List Byte} {s s' : State} (h : memoryRead arg s = some ((), s')) :
    (Con.hexText (s.sram (BitVec.ofNat 16 (numeralValue arg))) ++ ascii "\r\n")
      <:+ s'.console.stdout := by
  obtain ⟨n, t, hnum, hrest⟩ := Prog.bind_eq_some.mp h
  obtain ⟨rfl, rfl⟩ := number_eq_some hnum
  simp only [BitVec.ofInt_natCast] at hrest
  obtain ⟨_, t₁, h₁, hrest⟩ := Prog.bind_eq_some.mp hrest
  obtain ⟨_, t₂, h₂, hrest⟩ := Prog.bind_eq_some.mp hrest
  obtain ⟨_, t₃, h₃, hrest⟩ := Prog.bind_eq_some.mp hrest
  have hram : t₃.sram = t.sram := by
    have hputs : Aside t t₁ := (puts_returns _).keeps t _ t₁ h₁
    have haddr : Aside t₁ t₂ := (puthexWord_returns _).keeps t₁ _ t₂ h₂
    have hend : Aside t₂ t₃ := (putsln_returns _).keeps t₂ _ t₃ h₃
    exact hend.sram.trans (haddr.sram.trans hputs.sram)
  obtain ⟨c, t₄, h₄, hrest⟩ := Prog.bind_eq_some.mp hrest
  cases h₄
  rw [Prog.bind_of_run (puthex_said _ _), putsln_said (by simp)] at hrest
  cases hrest
  rw [hram]
  exact ⟨t₃.console.stdout, by simp [State.said, Con.Console.said]⟩

theorem monitor_append {fuel : Nat} {frames : List (Vector Byte (Prompt.maxPrompt + 1))}
    {cells : Vector Byte (Prompt.maxPrompt + 1)} {s s' : State}
    (h : monitor fuel (frames ++ [cells]) s = some (.prompt, s')) :
    ∃ t, monitor fuel frames s = some (.prompt, t) ∧ prompt fuel cells t = some (.prompt, s') := by
  induction frames generalizing s with
  | nil =>
      obtain ⟨t, hprompt, hend⟩ := monitor_cons h
      cases hend
      exact ⟨s, rfl, hprompt⟩
  | cons cells' frames ih =>
      obtain ⟨t, hprompt, hrest⟩ := monitor_cons h
      obtain ⟨u, hfront, hlast⟩ := ih hrest
      exact ⟨u, (Prog.bind_of_run hprompt _).trans hfront, hlast⟩

/-- At the end of a session, `mr` shows what the lines have made of the
byte: the datum of the last `mw` to its address. -/
theorem session_shows (fuel : Nat) (typed : List (List Byte)) (last arg : List Byte)
    (frames : List (Vector Byte (Prompt.maxPrompt + 1)))
    (cells : Vector Byte (Prompt.maxPrompt + 1)) {s s' : State}
    (hs : s.eeprom.Works) (hplain : ∀ keys ∈ typed, Plain keys) (hlast : Plain last)
    (hname : field 0x20 (lineOf last) = ascii "mr") (harg : split 0x20 (lineOf last) = some arg)
    (hlength : frames.length = typed.length)
    (hkeys : ahead s.console = typed.flatMap entered ++ entered last)
    (h : monitor fuel (frames ++ [cells]) s = some (.prompt, s')) :
    (Con.hexText (((typed.map lineOf).foldl Desk.step s.desk).ram
        (BitVec.ofNat 16 (numeralValue arg))) ++ ascii "\r\n") <:+ s'.console.stdout := by
  obtain ⟨t, hsession, hprompt⟩ := monitor_append h
  obtain ⟨-, hdesk, hinput⟩ := session_done fuel typed frames _ hs hplain hlength hkeys hsession
  rw [← List.append_nil (entered last)] at hinput
  obtain ⟨con, hrun, -⟩ := prompt_run fuel cells hlast hinput
  have hblank : (lineOf last).headD 0 ≠ 0 := headD_ne (hname ▸ by decide)
  rw [hrun, execute_dispatch _ hblank (hname ▸ by decide)] at hprompt
  obtain ⟨_, u, hread, hend⟩ := Prog.bind_eq_some.mp hprompt
  cases hend
  rw [dispatch_mr hname, harg] at hread
  have hshown := memoryRead_shows hread
  rw [← hdesk]
  exact hshown

/-- A machine at its first prompt, with keys to come. -/
def typing (keys : List Byte) : State :=
  { State.initial (Fat.blankCard []) with console := ⟨[], keys.map some, -1⟩ }

/-- A byte is written, an erasure made on the way, and the card protected. -/
def threeLines : List (List Byte) :=
  [ascii "mw 0x12344\x08,86", ascii "wp on", ascii "a on"]

theorem session_refines_three : ∃ s', monitor 0 (List.replicate 3 (.replicate 17 0))
      (typing (threeLines.flatMap (· ++ [0x0d]))) = some (.prompt, s')
    ∧ s'.desk.ram 0x1234 = 0x56 ∧ s'.desk.wrPrt = 1 ∧ s'.desk.auto = 0x88 := by
  have hback : (monitor 0 (List.replicate 3 (.replicate 17 0))
      (typing (threeLines.flatMap (· ++ [0x0d])))).map Prod.fst = some .prompt := by decide +kernel
  obtain ⟨⟨after, s'⟩, hrun, rfl⟩ := Option.map_eq_some_iff.mp hback
  obtain ⟨hdesk, -⟩ := session_refines 0 threeLines _ [] (.inr ⟨rfl, rfl, rfl⟩) (by decide) rfl
    (by decide +kernel) hrun
  refine ⟨s', hrun, ?_⟩
  rw [hdesk]
  decide +kernel

/-- It is read back. -/
theorem session_shows_three : ∃ s', monitor 0 (List.replicate 3 (.replicate 17 0) ++
      [.replicate 17 0]) (typing ((threeLines ++ [ascii "mr 4660"]).flatMap (· ++ [0x0d])))
        = some (.prompt, s')
    ∧ ascii "56\r\n" <:+ s'.console.stdout := by
  have hback : (monitor 0 (List.replicate 3 (.replicate 17 0) ++ [.replicate 17 0])
      (typing ((threeLines ++ [ascii "mr 4660"]).flatMap (· ++ [0x0d])))).map Prod.fst
        = some .prompt := by decide +kernel
  obtain ⟨⟨after, s'⟩, hrun, rfl⟩ := Option.map_eq_some_iff.mp hback
  refine ⟨s', hrun, ?_⟩
  have hshown := session_shows 0 threeLines (ascii "mr 4660") (ascii "4660") _ _
    (.inr ⟨rfl, rfl, rfl⟩) (by decide) (by decide) (by decide +kernel) (by decide +kernel) rfl
    (by decide +kernel) hrun
  exact hshown

end Machine

end CpMega88
