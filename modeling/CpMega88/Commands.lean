import CpMega88.GetNum
import CpMega88.LineEditor

/-!
# The commands of the monitor

The rest of `prompt`: what the line is taken for, and the commands that
are not in `Machine`. A command is found by its name, which ends at the
first space or, where it takes no argument, at the end of the line.

`r` leaves for `platform_reset` and does not come back; `b` loads the
guest, whose run is not a matter of the monitor (`After`). What the buffer
of `prompt` holds when it is entered is a parameter.
-/

namespace CpMega88

open Bytes

namespace Machine

/-- What comes after a command: the next prompt, `platform_reset`, or the
guest. -/
inductive After where
  | prompt
  | reset
  | guest
deriving DecidableEq

/-- `split`: the string behind the first `c`. -/
def split (c : Byte) : List Byte → Option (List Byte)
  | [] => none
  | b :: s => if b = 0 then none else if c = b then some s else split c s

/-- `getnum`, where it returns. -/
def number (s : List Byte) : MachineM Int := fun t => (getnum s).map (·, t)

/-- `con_puthex(n >> 8); con_puthex(n);`. -/
def puthexWord (n : Word) : MachineM Unit := do
  puthex (hiByte n)
  puthex (loByte n)

/-! ## Settings -/

/-- `a` with an argument. -/
def autoBoot (arg : List Byte) : MachineM Unit := do
  if strdcmp (ascii "on") arg 0 = 0 then
    putsln (ascii " on")
    onEeprom (Eeprom.write 8 0x88)
  else
    putsln (ascii " off")
    onEeprom (Eeprom.write 8 0)

/-- `vt` with an argument. -/
def vt100 (arg : List Byte) : MachineM Unit := do
  puts (ascii "<vt100 compatible mode")
  if strdcmp (ascii "on") arg 0 = 0 then
    puts (ascii " on")
    modify fun s => { s with vtCnv := 1 }
  else
    puts (ascii " off")
    modify fun s => { s with vtCnv := 0 }
  putsln (ascii ">")

/-! ## Memory -/

/-- `mr` with an argument. -/
def memoryRead (arg : List Byte) : MachineM Unit := do
  let n := BitVec.ofInt 16 (← number arg)
  puts (ascii "<memory read 0x")
  puthexWord n
  putsln (ascii "> ")
  puthex (← sramRead n)
  putsln []

/-- `mw` with both arguments. -/
def memoryWrite (addr data : List Byte) : MachineM Unit := do
  let nAddr := BitVec.ofInt 16 (← number addr)
  let nData := BitVec.ofInt 16 (← number data)
  puts (ascii "<memory write 0x")
  puthexWord nAddr
  puts (ascii ",0x")
  puthex (loByte nData)
  putsln (ascii ">")
  sramWrite nAddr (loByte nData)

/-! ## The card -/

/-- `so`. -/
def sdcardOpen : MachineM Unit := do
  putsln (ascii "<sdcard open>")
  let rc := BitVec.ofInt 8 (← onCard Sdcard.openCard)
  if 0 ≤ rc.toInt then putsln (ascii " detect")
  else
    puts (ascii " not detect(")
    puthex (-rc)
    putsln (ascii ")")

/-- What a byte is shown as beside its number. -/
def shown (rc : Byte) : Byte := if rc < 0x21#8 ∨ 0x7e#8 < rc then 0x20 else rc

/-- The loop of `sd`, with what is in `buf`. -/
def dumpLoop : Nat → Nat → List Byte → MachineM Unit
  | 0, _, _ => pure ()
  | left + 1, i, buf => do
    onlyIf (i % 4 = 0) (putchar 0x5f)
    let rc ← onCard (Sdcard.read (BitVec.ofNat 16 i))
    puthex rc
    if i % 16 = 15 then
      puts (ascii ": ")
      puts (buf ++ [shown rc])
      putsln (ascii " ")
      dumpLoop left (i + 1) []
    else dumpLoop left (i + 1) (buf ++ [shown rc])

/-- `sd`. -/
def sdcardDump : MachineM Unit := do
  putsln (ascii "<sdcard dump block buffer>")
  dumpLoop 512 0 []
  puts (ascii "crc: ")
  puthexWord Sdcard.crc
  putsln []

/-- What `sf` and `ss` say about a result. -/
def sdcardResult (rc : Byte) : MachineM Unit := do
  if 0 ≤ rc.toInt then putsln (ascii " ok")
  else
    puts (ascii " error(")
    puthex (-rc)
    putsln (ascii ")")

/-- `sf` with an argument. -/
def sdcardFetch (arg : List Byte) : MachineM Unit := do
  let addr := BitVec.ofInt 64 (← number arg)
  puts (ascii "<sdcard fetch block 0x")
  puthexWord (addr.setWidth 16)
  putsln (ascii ">")
  sdcardResult (BitVec.ofInt 8 (← onCard (Sdcard.fetch (addr <<< 9))))

/-- `ss` with an argument. -/
def sdcardStore (arg : List Byte) : MachineM Unit := do
  let addr := BitVec.ofInt 64 (← number arg)
  puts (ascii "<sdcard store block 0x")
  puthexWord (addr.setWidth 16)
  putsln (ascii ">")
  sdcardResult (BitVec.ofInt 8 (← onCard (Sdcard.store (addr <<< 9))))

/-! ## The line -/

def helpText : List (List Byte) :=
  [ascii "monitor commands",
    ascii " r                : reset",
    ascii " b                : boot CP/M 2.2",
    ascii " wp <on/off>      : file system write protection",
    ascii " a <on/off>       : auto boot",
    ascii " mr <addr>        : memory read from <addr>",
    ascii " mw <addr>,<data> : memory write <data> to <addr>",
    ascii " so               : sdcard open",
    ascii " sd               : sdcard dump block buffer",
    ascii " sf <addr>        : sdcard fetch block",
    ascii " ss <addr>        : sdcard store block",
    ascii " ls               : file listing",
    ascii " cd               : change directory",
    ascii " m <filename>     : mount image disk",
    ascii " vt <on/off>      : vt100 compatible mode"]

/-- What is at `usage`. -/
def usage : MachineM Unit := Prog.runAll putsln helpText

/-- A command that wants an argument. -/
def withArg (arg : Option (List Byte)) (x : List Byte → MachineM Unit) : MachineM Unit :=
  match arg with
  | none => usage
  | some arg => x arg

/-- The commands that come back to the prompt. -/
def dispatch (fuel : Nat) (cmd : List Byte) (arg : Option (List Byte)) : MachineM Unit :=
  if strdcmp (ascii "a") cmd 0x20 = 0 then withArg arg autoBoot
  else if strdcmp (ascii "wp") cmd 0x20 = 0 then withArg arg wp
  else if strdcmp (ascii "mr") cmd 0x20 = 0 then withArg arg memoryRead
  else if strdcmp (ascii "mw") cmd 0x20 = 0 then
    withArg arg fun addr => withArg (split 0x2c addr) (memoryWrite addr)
  else if strdcmp (ascii "so") cmd 0 = 0 then sdcardOpen
  else if strdcmp (ascii "sd") cmd 0 = 0 then sdcardDump
  else if strdcmp (ascii "sf") cmd 0x20 = 0 then withArg arg sdcardFetch
  else if strdcmp (ascii "ss") cmd 0x20 = 0 then withArg arg sdcardStore
  else if strdcmp (ascii "ls") cmd 0 = 0 then ls fuel
  else if strdcmp (ascii "cd") cmd 0x20 = 0 then cd fuel arg
  else if strdcmp (ascii "m") cmd 0x20 = 0 then withArg arg (mount fuel)
  else if strdcmp (ascii "vt") cmd 0x20 = 0 then withArg arg vt100
  else usage

/-- What the line is taken for. -/
def execute (fuel : Nat) (cmd : List Byte) (arg : Option (List Byte)) : MachineM After := do
  if cmd.headD 0 = 0 then return .prompt
  else if strdcmp (ascii "r") cmd 0 = 0 then return .reset
  else if strdcmp (ascii "b") cmd 0 = 0 then
    boot fuel
    return .guest
  else
    dispatch fuel cmd arg
    return .prompt

/-- The line is edited in a buffer that holds `cells`. -/
def edit (cells : Vector Byte (Prompt.maxPrompt + 1)) :
    MachineM (List Byte × Option (List Byte)) := fun s =>
  (Prompt.prompt ⟨cells, 0, s.console⟩).map fun r => (r.1, { s with console := r.2.console })

def prompt (fuel : Nat) (cells : Vector Byte (Prompt.maxPrompt + 1)) : MachineM After := do
  let (cmd, arg) ← edit cells
  execute fuel cmd arg

/-- `for (;;) prompt();`, for as many turns as there are buffers, or up to
the one that does not come back. -/
def monitor (fuel : Nat) : List (Vector Byte (Prompt.maxPrompt + 1)) → MachineM After
  | [] => return .prompt
  | cells :: frames => do
    match ← prompt fuel cells with
    | .prompt => monitor fuel frames
    | .reset => return .reset
    | .guest => return .guest

end Machine

end CpMega88
