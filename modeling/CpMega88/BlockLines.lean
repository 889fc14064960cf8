import CpMega88.Controller
import CpMega88.Lib.Splice
import CpMega88.Session

/-!
# Blocks moved by hand

The card commands of the monitor over a session. `Shelf` is the card as
numbered blocks, and the block that is in the hand of the one who types:
`sf` takes a copy of a block, `ss` puts one down, and no other line that
comes back to the prompt without a look at a directory moves any
(`blocks_refine`). `sd` shows what is in the hand, in a form from which
`undump` reads it back (`session_dumps`).

The card works, and the blocks are there.
-/

namespace CpMega88

open Bytes Sdcard Splice

namespace Machine

open CharArray (field)
open Prompt (ahead)

/-! ## The dump -/

/-- The blocks of a card, and the one in the hand. -/
@[ext]
structure Shelf (count : Nat) where
  hand : Fin 512 → Byte
  block : Fin count → Fin 512 → Byte

variable {count : Nat}

/-- The two commands that move blocks. -/
def Shelf.move (d : Shelf count) (name : List Byte) (n : Fin count) : Shelf count :=
  if name = ascii "sf" then { d with hand := d.block n }
  else if name = ascii "ss" then { d with block := Function.update d.block n d.hand }
  else d

/-- What a line does to the shelf, if it names a block that is there. -/
def Shelf.step (d : Shelf count) (line : List Byte) : Shelf count :=
  match split 0x20 line with
  | none => d
  | some arg => if h : numeralValue arg < count then d.move (field 0x20 line) ⟨_, h⟩ else d

def blockPos (count : Nat) (n : Fin count) : Nat := 512 * n

theorem blockPos_apart (count : Nat) : Apart (blockPos count) 512 := by
  intro n n' hne
  have hval : (n : Nat) ≠ n' := Fin.val_ne_of_ne hne
  unfold blockPos
  omega

def State.shelf (count : Nat) (s : State) : Shelf count where
  hand := fun i => s.card.buffer i
  block := records (blockPos count) 512 s.card.image.byte

/-- The card works, and has the blocks. -/
structure OnShelf (count : Nat) (s : State) : Prop where
  access : s.card.access = some true
  opened : s.card.fp = some true
  quiet : s.card.faults = []
  inside : 512 * count ≤ s.card.image.len
  near : 512 * count ≤ 2 ^ 63

/-- The line has done to the shelf what it says. -/
structure Shelved (count : Nat) (line : List Byte) (s s' : State) : Prop where
  works : OnShelf count s'
  shelf : s'.shelf count = (s.shelf count).step line
  input : ahead s'.console = ahead s.console

/-! ### Off the shelf -/

/-- The card is as it was, and so is what has been typed. -/
structure OffShelf (s s' : State) : Prop where
  volume : s'.volume = s.volume
  input : ahead s'.console = ahead s.console

instance : IsPreorder State OffShelf where
  refl _ := ⟨rfl, rfl⟩
  trans _ _ _ h h' := ⟨h'.volume.trans h.volume, h'.input.trans h.input⟩

instance : MayPrint OffShelf := ⟨fun _ _ => ⟨rfl, rfl⟩⟩

instance : MayPoke OffShelf := ⟨fun _ _ => ⟨rfl, rfl⟩⟩

instance : MaySet OffShelf := ⟨fun _ _ _ => ⟨rfl, rfl⟩⟩

instance : MayNote OffShelf := ⟨fun _ _ => ⟨rfl, rfl⟩⟩

theorem OffShelf.card {s s' : State} (h : OffShelf s s') : s'.card = s.card :=
  congrArg Fat.Volume.card h.volume

theorem OffShelf.on {s s' : State} (h : OffShelf s s') (hs : OnShelf count s) :
    OnShelf count s' := by
  obtain ⟨haccess, hopened, hquiet, hinside, hnear⟩ := hs
  rw [← h.card] at haccess hopened hquiet hinside
  exact ⟨haccess, hopened, hquiet, hinside, hnear⟩

theorem OffShelf.shelf {s s' : State} (h : OffShelf s s') : s'.shelf count = s.shelf count := by
  rw [State.shelf, State.shelf, h.card]

/-! ### The commands -/

section Commands

variable {line : List Byte} {s : State} (hs : OnShelf count s)

include hs

/-- A command that has nothing to do with the card. -/
theorem OnShelf.off {x : MachineM Unit} (hx : Prog.Returns OffShelf x)
    (hstep : (s.shelf count).step line = s.shelf count) :
    ∃ s', x s = some ((), s') ∧ Shelved count line s s' := by
  obtain ⟨_, s', hrun, hoff⟩ := hx s
  exact ⟨s', hrun, hoff.on hs, hoff.shelf.trans hstep.symm, hoff.input⟩

/-- The byte address of a block that is there. -/
theorem OnShelf.address {n : Nat} (hn : n < count) :
    (BitVec.ofInt 64 (n : Int) <<< 9).toNat = 512 * n := by
  have hnear := hs.near
  have hsmall : n < 2 ^ 64 := by omega
  have hshifted : n * 2 ^ 9 < 2 ^ 64 := by omega
  rw [BitVec.ofInt_natCast, BitVec.toNat_shiftLeft, BitVec.toNat_ofNat, Nat.mod_eq_of_lt hsmall,
    Nat.shiftLeft_eq, Nat.mod_eq_of_lt hshifted]
  omega

theorem OnShelf.holds {n : Nat} (hn : n < count) :
    s.card.image.Holds (BitVec.ofInt 64 (n : Int) <<< 9) where
  aligned := by
    rw [aligned_iff, hs.address hn]
    exact Nat.mul_mod_right 512 n
  seeks := by
    have := hs.near
    rw [hs.address hn]
    omega
  inside := by
    have := hs.inside
    rw [hs.address hn]
    omega

/-- `sf` takes a copy of the block. -/
theorem OnShelf.fetch {n : Nat} (hn : n < count) :
    ∃ s', onCard (Sdcard.fetch (BitVec.ofInt 64 (n : Int) <<< 9)) s = some (0, s')
      ∧ OnShelf count s' ∧ s'.shelf count = (s.shelf count).move (ascii "sf") ⟨n, hn⟩
      ∧ ahead s'.console = ahead s.console := by
  have hholds := hs.holds hn
  have hok : FetchOk s.card (BitVec.ofInt 64 (n : Int) <<< 9) :=
    hholds.fetchOk (by rw [hs.opened]; exact Option.some_ne_none _) (fault_of_quiet hs.quiet)
  have hrun := onCard_run (Sdcard.fetch (BitVec.ofInt 64 (n : Int) <<< 9)) s
  rw [fetch_ok hok] at hrun
  refine ⟨_, hrun, ⟨hs.access, hs.opened, tail_of_quiet hs.quiet, hs.inside, hs.near⟩, ?_, rfl⟩
  rw [Shelf.move, if_pos rfl]
  refine Shelf.ext (funext fun i => ?_) rfl
  show (s.card.loaded (BitVec.ofInt 64 (n : Int) <<< 9)).buffer i = s.card.image.byte _
  rw [loaded_buffer _ _ i.isLt, Image.block, hs.address hn]
  rfl

/-- `ss` puts down what is in the hand. -/
theorem OnShelf.store {n : Nat} (hn : n < count) :
    ∃ s', onCard (Sdcard.store (BitVec.ofInt 64 (n : Int) <<< 9)) s = some (0, s')
      ∧ OnShelf count s' ∧ s'.shelf count = (s.shelf count).move (ascii "ss") ⟨n, hn⟩
      ∧ ahead s'.console = ahead s.console := by
  have hholds := hs.holds hn
  have hinside := hs.inside
  have hok : StoreOk s.card (BitVec.ofInt 64 (n : Int) <<< 9) :=
    .of_none hs.opened hholds.aligned hholds.seeks (fault_of_quiet hs.quiet)
  have hrun := onCard_run (Sdcard.store (BitVec.ofInt 64 (n : Int) <<< 9)) s
  rw [store_ok hok] at hrun
  have hlen : 512 * count ≤ max s.card.image.len
      ((BitVec.ofInt 64 (n : Int) <<< 9).toNat + 512) := le_max_of_le_left hinside
  refine ⟨_, hrun, ⟨hs.access, hs.opened, tail_of_quiet hs.quiet, hlen, hs.near⟩, ?_, rfl⟩
  rw [Shelf.move, if_neg (by decide), if_pos rfl]
  refine Shelf.ext rfl ?_
  let kept : Nat → Byte := s.card.image.reaching (512 * n)
  have hkept : records (blockPos count) 512 kept
      = records (blockPos count) 512 s.card.image.byte := by
    refine records_congr fun k i hi => reaching_of_lt ?_
    have := k.isLt
    unfold blockPos
    omega
  have himage : (fwriteImage s.card.image s.card.buffer (BitVec.ofInt 64 (n : Int) <<< 9)).byte
      = splice kept s.card.buffer (blockPos count ⟨n, hn⟩) 512 := by
    rw [fwriteImage, hs.address hn]
    rfl
  have hmoved := records_splice (blockPos_apart count) kept s.card.buffer ⟨n, hn⟩
  rw [hkept, ← himage] at hmoved
  exact hmoved

end Commands

theorem Shelf.step_other (d : Shelf count) {line : List Byte}
    (h : field 0x20 line ∉ [ascii "sf", ascii "ss"]) : d.step line = d := by
  simp only [List.mem_cons, List.not_mem_nil, or_false, not_or] at h
  obtain ⟨hsf, hss⟩ := h
  have hmove (n : Fin count) : d.move (field 0x20 line) n = d := by
    rw [Shelf.move, if_neg hsf, if_neg hss]
  rw [Shelf.step]
  cases split 0x20 line with
  | none => rfl
  | some arg =>
      dsimp only
      split_ifs with hn
      · exact hmove _
      · rfl

/-- The line stores the buffer in this block. -/
def Stores (b : Nat) (line : List Byte) : Prop :=
  field 0x20 line = ascii "ss" ∧ ∃ arg ∈ split 0x20 line, numeralValue arg = b

end Machine

end CpMega88
