import CpMega88.CardStart
import CpMega88.Sdcard

/-!
# One disk, two drivers

`sdcard_posix.c` over an image file and `sdcard_avr.c` over a card with
the same blocks: whatever is fetched, written and stored, as long as the
blocks are there and can be written, both do the same (`drivers_agree`).
What the file does is shown of the device that the card amounts to
(`Mirrors`).
-/

namespace CpMega88

open Bytes Splice

namespace SdcardPins

/-- `sdcard_posix.c` called in the same way. -/
def posixCall : DriverCall → Sdcard.CardM Int
  | .fetch a => Sdcard.fetch (a.setWidth 64)
  | .write x => do
    Sdcard.write x.1 x.2
    return 0
  | .store a => Sdcard.store (a.setWidth 64)
  | .flush => Sdcard.flush

def posixRun (card : Sdcard.Card) : List DriverCall → List Int × Sdcard.Card
  | [] => ([], card)
  | c :: cs =>
    ((posixCall c card).1 :: (posixRun (posixCall c card).2 cs).1,
      (posixRun (posixCall c card).2 cs).2)

/-- The address of one of the first blocks. -/
def Existing (size : Nat) (a : ULong32) : Prop := a.toNat % 512 = 0 ∧ a.toNat / 512 < size

/-- The blocks asked for are there. -/
def CallOk (size : Nat) : DriverCall → Prop
  | .fetch a | .store a => Existing size a
  | .write _ | .flush => True

/-- Every block that is there can be read and written. -/
structure Layout.Sound (lay : Layout) (size : Nat) : Prop where
  locate : ∀ a, a % 512 = 0 → a / 512 < size → lay.locate a = some (a / 512)
  worn : ∀ n, n < size → lay.worn n = false

/-- An image file that works, with the blocks of a device in it. -/
structure Mirrors (size : Nat) (s : Store) (card : Sdcard.Card) : Prop where
  fp : card.fp = some true
  quiet : card.faults = []
  inside : size * 512 ≤ card.image.len
  block : ∀ n < size, ∀ i : Fin 512, s.block n i = card.image.byte (n * 512 + i)
  buffer : ∀ i : Fin 512, s.buffer i = card.buffer i
  curBlk : card.curBlk = s.curBlk.setWidth 64
  here : Existing size s.curBlk

theorem toNat_wide (a : ULong32) : (a.setWidth 64).toNat = a.toNat := by
  rw [BitVec.toNat_setWidth, Nat.mod_eq_of_lt (by have := a.isLt; omega)]

theorem Existing.holds {size : Nat} {a : ULong32} (h : Existing size a) {image : Sdcard.Image}
    (hinside : size * 512 ≤ image.len) : image.Holds (a.setWidth 64) := by
  obtain ⟨hmod, hlt⟩ := h
  have hnat := toNat_wide a
  have := a.isLt
  refine ⟨(Sdcard.aligned_iff _).mpr (by omega), by omega, by omega⟩

section Step

variable {size : Nat} {s : Store} {card : Sdcard.Card}

theorem Mirrors.fetch (h : Mirrors size s card) {lay : Layout} (hlay : lay.Sound size)
    {a : ULong32} (ha : Existing size a) :
    (s.call lay (.fetch a)).1 = 0 ∧ (posixCall (.fetch a) card).1 = 0
      ∧ Mirrors size (s.call lay (.fetch a)).2 (posixCall (.fetch a) card).2 := by
  have hok : Sdcard.FetchOk card (a.setWidth 64) :=
    (ha.holds h.inside).fetchOk (by rw [h.fp]; decide) (Sdcard.fault_of_quiet h.quiet)
  have hrun : posixCall (.fetch a) card = (0, card.loaded (a.setWidth 64)) := Sdcard.fetch_ok hok
  rw [hrun, Store.call, hlay.locate _ ha.1 ha.2]
  refine ⟨rfl, rfl, h.fp, Sdcard.tail_of_quiet h.quiet, h.inside, h.block, fun i => ?_, rfl, ha⟩
  have haddr : (a.setWidth 64).toNat + i.val = a.toNat / 512 * 512 + i.val := by
    have := ha.1
    rw [toNat_wide]
    omega
  rw [Sdcard.loaded_buffer _ _ i.isLt, Sdcard.Image.block, haddr]
  exact h.block _ ha.2 i

theorem Mirrors.write (h : Mirrors size s card) (lay : Layout) (x : Word × Byte) :
    (s.call lay (.write x)).1 = 0 ∧ (posixCall (.write x) card).1 = 0
      ∧ Mirrors size (s.call lay (.write x)).2 (posixCall (.write x) card).2 := by
  refine ⟨rfl, rfl, h.fp, h.quiet, h.inside, h.block, fun i => ?_, h.curBlk, h.here⟩
  have hbuffer : s.buffer = fun i : Fin 512 => card.buffer i := funext h.buffer
  show editBlock x s.buffer i = Function.update card.buffer x.1.toNat x.2 i
  rw [hbuffer]
  exact congrFun (update_block card.buffer x).symm i

theorem Mirrors.store (h : Mirrors size s card) {lay : Layout} (hlay : lay.Sound size)
    {a : ULong32} (ha : Existing size a) :
    (s.put lay a).1 = 0 ∧ (Sdcard.store (a.setWidth 64) card).1 = 0
      ∧ Mirrors size (s.put lay a).2 (Sdcard.store (a.setWidth 64) card).2 := by
  have hholds := ha.holds h.inside
  have hstore : Sdcard.StoreOk card (a.setWidth 64) :=
    .of_none h.fp hholds.aligned hholds.seeks (Sdcard.fault_of_quiet h.quiet)
  have haddr : (a.setWidth 64).toNat = a.toNat / 512 * 512 := by
    have := ha.1
    rw [toNat_wide]
    omega
  rw [Sdcard.store_ok hstore, Store.put, hlay.locate _ ha.1 ha.2]
  simp only [hlay.worn _ ha.2, Bool.false_eq_true, if_false]
  refine ⟨trivial, trivial, h.fp, Sdcard.tail_of_quiet h.quiet, ?_, fun n hn i => ?_, h.buffer,
    h.curBlk, h.here⟩
  · exact h.inside.trans (le_max_left _ _)
  · have hi := i.isLt
    have hin : n * 512 + i.val < card.image.len := by
      have := h.inside
      omega
    show Function.update s.block (a.toNat / 512) s.buffer n i
      = (Sdcard.fwriteImage card.image card.buffer (a.setWidth 64)).byte (n * 512 + i.val)
    by_cases hhere : n = a.toNat / 512
    · rw [hhere, Function.update_self, ← haddr, Sdcard.fwriteImage_add hi]
      exact h.buffer i
    · rw [Function.update_of_ne hhere, Sdcard.fwriteImage_out (by omega) hin]
      exact h.block n hn i

theorem Mirrors.call (h : Mirrors size s card) {lay : Layout} (hlay : lay.Sound size)
    {c : DriverCall} (hc : CallOk size c) :
    (s.call lay c).1 = 0 ∧ (posixCall c card).1 = 0
      ∧ Mirrors size (s.call lay c).2 (posixCall c card).2 := by
  cases c with
  | fetch a => exact h.fetch hlay hc
  | write x => exact h.write lay x
  | store a => exact h.store hlay hc
  | flush =>
      have hcur : posixCall .flush card = Sdcard.store (s.curBlk.setWidth 64) card :=
        congrArg (Sdcard.store · card) h.curBlk
      rw [hcur]
      exact h.store hlay h.here

end Step

theorem agree_run {size : Nat} {cs : List DriverCall} (hcs : ∀ c ∈ cs, CallOk size c) :
    ∀ {w : Wired} {card : Sdcard.Card}, Ready w → (layout w.card).Sound size →
    Mirrors size w.store card →
    (run w cs).1 = List.replicate cs.length 0 ∧ (posixRun card cs).1 = List.replicate cs.length 0
      ∧ Mirrors size (run w cs).2.store (posixRun card cs).2 := by
  induction cs with
  | nil => exact fun _ _ h => ⟨rfl, rfl, h⟩
  | cons c cs ih =>
      intro w card hready hlay h
      obtain ⟨hcall, hstore, hready', hlayout⟩ := call_refines hready c
      obtain ⟨hdone, hrc, hnext⟩ := h.call hlay (hcs c List.mem_cons_self)
      rw [← hstore] at hnext
      obtain ⟨hdone', hrc', hlast⟩ := ih (fun c' hc' => hcs c' (List.mem_cons_of_mem c hc'))
        hready' (hlayout ▸ hlay) hnext
      refine ⟨?_, ?_, hlast⟩
      · rw [run, hcall, hdone, hdone', List.length_cons, List.replicate_succ]
      · rw [posixRun, hrc, hrc', List.length_cons, List.replicate_succ]

theorem layout_sound {c : SpiCard.Card} (hworn : ∀ n, n < c.size → c.worn n = false) :
    (layout c).Sound c.size := by
  refine ⟨fun a hmod hlt => ?_, hworn⟩
  rw [layout]
  exact if_pos ⟨.inr hmod, hlt⟩

/-- A card and an image file with the same blocks: every call returns 0
with both drivers, and afterwards the blocks, the buffers and the block
numbers are the same again. -/
theorem drivers_agree {w : Wired} {card : Sdcard.Card} (h : Ready w)
    (hworn : ∀ n, n < w.card.size → w.card.worn n = false)
    (hsame : Mirrors w.card.size w.store card) {cs : List DriverCall}
    (hcs : ∀ c ∈ cs, CallOk w.card.size c) :
    (run w cs).1 = List.replicate cs.length 0 ∧ (posixRun card cs).1 = List.replicate cs.length 0
      ∧ Mirrors w.card.size (run w cs).2.store (posixRun card cs).2 :=
  agree_run hcs h (layout_sound hworn) hsame

/-- The first three blocks of that card as a file. -/
def smallImage : Sdcard.Card where
  image := ⟨1536, fun k => BitVec.ofNat 8 (k / 512 + k % 512)⟩
  access := some true
  buffer _ := 0
  curBlk := 0
  fp := some true
  faults := []

/-- Fetches, a byte changed, and the buffer stored twice. -/
def smallCalls : List DriverCall :=
  [.fetch 512, .write (0, 0xaa), .store 1024, .flush, .fetch 1024]

theorem drivers_agree_small :
    (posixRun smallImage smallCalls).1 = [0, 0, 0, 0, 0]
      ∧ Mirrors 3 (run { smallWired with card := { smallCard with size := 3 } } smallCalls).2.store
        (posixRun smallImage smallCalls).2 := by
  have hready : Ready { smallWired with card := { smallCard with size := 3 } } :=
    ⟨rfl, ⟨rfl, rfl, rfl, fun _ => (by decide : 5 < 0xffff)⟩, rfl, by decide⟩
  have hsame : Mirrors 3 ({ smallWired with card := { smallCard with size := 3 } } : Wired).store
      smallImage := by
    refine ⟨rfl, rfl, by decide, fun n hn i => ?_, fun _ => rfl, rfl, by decide, by decide⟩
    have hi := i.isLt
    show BitVec.ofNat 8 (n + i.val) = BitVec.ofNat 8 ((n * 512 + i.val) / 512
      + (n * 512 + i.val) % 512)
    exact congrArg _ (by omega)
  have hworn : ∀ n, n < 3 → smallCard.worn n = false := by decide
  have hcs : ∀ c ∈ smallCalls, CallOk 3 c := by
    intro c hc
    simp only [smallCalls, List.mem_cons, List.not_mem_nil, or_false] at hc
    rcases hc with rfl | rfl | rfl | rfl | rfl
    · exact ⟨by decide, by decide⟩
    · trivial
    · exact ⟨by decide, by decide⟩
    · trivial
    · exact ⟨by decide, by decide⟩
  exact (drivers_agree hready hworn hsame hcs).2

end SdcardPins

end CpMega88
