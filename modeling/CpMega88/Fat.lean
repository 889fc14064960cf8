import CpMega88.Lib.Prog
import CpMega88.Sdcard

/-!
# The FAT16 reader

`fat.c`, over the card driver. `Volume` holds its static variables: the
geometry taken from the boot sector (`Geometry`), the place in the
directory, the open file, and the record of the last request to
`fetch_cluster`.

The loop of `fetch_cluster` need not end, so every function that calls it
takes the number of links it may follow (`fuel`) and returns nothing when
that was not enough. `fat_init` returns nothing when it divides by zero.
-/

namespace CpMega88

open Bytes Sdcard

namespace Fat

structure Geometry where
  sectorsPerCluster : Byte
  fatFirstSect : ULong
  reservedSectors : Word
  dirSector : ULong
  dirEntries : Word
  dirSize : Word

structure Volume extends Geometry where
  card : Card
  dirOffset : Word
  dirCluster : Word
  fileCluster : Word
  fileOffset : ULong
  fileSize : ULong
  lastCluster : Word
  lastOffset : ULong

abbrev FatM := Prog Volume

/-- The static variables before the first call, over a card. -/
def Volume.initial (card : Card) : Volume where
  sectorsPerCluster := 0
  fatFirstSect := 0
  reservedSectors := 0
  dirSector := 0
  dirEntries := 0
  dirSize := 0
  card := card
  dirOffset := 0
  dirCluster := 0
  fileCluster := 0
  fileOffset := 0
  fileSize := 0
  lastCluster := 0xffff
  lastOffset := 0

/-- Run a card operation. -/
def onCard {α : Type} (x : CardM α) : FatM α := fun v =>
  some ((x v.card).1, { v with card := (x v.card).2 })

def read2 (off : Word) : FatM Word := do
  return word (← onCard (Sdcard.read (off + 1))) (← onCard (Sdcard.read off))

def read4 (off : Word) : FatM ULong := do
  return ((← read2 (off + 2)).setWidth 64 <<< 16) ||| (← read2 off).setWidth 64

/-! ## Clusters -/

/-- `sectors_per_cluster << 9`. -/
def Geometry.clusterBytes (g : Geometry) : ULong := g.sectorsPerCluster.setWidth 64 <<< 9

/-- Where the FAT entry of a cluster is on the card. -/
def Geometry.fatPos (g : Geometry) (cluster : Word) : ULong :=
  ((g.fatFirstSect + g.reservedSectors.setWidth 64) <<< 9) + (cluster.setWidth 64 <<< 1)

/-- The sector of an offset from the beginning of a cluster. -/
def Geometry.dataSector (g : Geometry) (cluster : Word) (offset : ULong) : ULong :=
  g.dirSector
    + (g.dirSize.setWidth 64 + cluster.setWidth 64 - 2#64) * g.sectorsPerCluster.setWidth 64
    + (offset >>> 9)

/-- The sector of an offset in the root directory. -/
def Geometry.rootSector (g : Geometry) (offset : ULong) : ULong := g.dirSector + (offset >>> 9)

/-- The loop of `fetch_cluster`: follow the chain from `cluster` while
more than a cluster of `offset` is left, or return an error. -/
def walk : Nat → Word → ULong → FatM (Except Int (Word × ULong))
  | 0, _, _ => failure
  | fuel + 1, cluster, offset => do
    let v ← get
    if v.clusterBytes < offset then
      let pos := v.fatPos cluster
      if (← onCard (fetch (pos &&& 0xfffffe00#64))) < 0 then return .error (-1)
      else
        let cluster ← read2 ((pos &&& 0x000001ff#64).setWidth 16)
        if cluster < 2 ∨ 0xfff7#16 ≤ cluster then return .error (-2)
        else walk fuel cluster (offset - v.clusterBytes)
    else return .ok (cluster, offset)

/-- The request is the one on record. -/
def Volume.hit (v : Volume) (cluster : Word) (offset : ULong) : Prop :=
  cluster = v.lastCluster ∧ offset &&& 0xfe00#64 = v.lastOffset &&& 0xfe00#64

instance (v : Volume) (cluster : Word) (offset : ULong) : Decidable (v.hit cluster offset) :=
  inferInstanceAs (Decidable (_ ∧ _))

def fetchCluster (fuel : Nat) (cluster : Word) (offset : ULong) : FatM Int := do
  let v ← get
  if v.hit cluster offset then return 0
  else
    modify fun v => { v with lastCluster := cluster, lastOffset := offset }
    if cluster = 0 then
      onCard (fetch (v.rootSector offset <<< 9))
    else
      match ← walk fuel cluster offset with
      | .error e => return e
      | .ok (cluster, offset) => onCard (fetch (v.dataSector cluster offset <<< 9))

/-! ## The volume -/

def fatRewind : FatM Unit := modify fun v => { v with dirOffset := 0xffff }

/-- The two signature bytes of a boot sector. -/
def signature : FatM Bool := do
  return (← onCard (Sdcard.read 510)) = 0x55#8 ∧ (← onCard (Sdcard.read 511)) = 0xaa#8

def fatInit : FatM Int := do
  if (← onCard (fetch 0)) < 0 then return -1
  else
    let fsDesc := (← onCard (Sdcard.read 450)).toInt
    if !(← signature) then return -2
    else if fsDesc ≠ 4 ∧ fsDesc ≠ 6 then return -80 - fsDesc
    else
      let fatFirstSect ← read4 454
      modify fun v => { v with fatFirstSect := fatFirstSect }
      if (← onCard (fetch (fatFirstSect <<< 9))) < 0 then return -3
      else if !(← signature) then return -4
      else
        let bytesPerSector ← read2 11
        let numberOfFats ← onCard (Sdcard.read 16)
        let sectorsPerFat ← read2 22
        let reservedSectors ← read2 14
        let sectorsPerCluster ← onCard (Sdcard.read 13)
        let dirEntries ← read2 17
        if sectorsPerCluster = 0 then failure  -- the division for `dir_size`
        else
          modify fun v => { v with
            reservedSectors := reservedSectors
            sectorsPerCluster := sectorsPerCluster
            dirEntries := dirEntries
            dirSector := fatFirstSect + reservedSectors.setWidth 64
              + sectorsPerFat.setWidth 64 * numberOfFats.setWidth 64
            dirSize := BitVec.ofNat 16 (((dirEntries >>> 4).toNat + sectorsPerCluster.toNat - 1)
              / sectorsPerCluster.toNat) }
          if bytesPerSector ≠ 512 then return -5
          else
            modify fun v => { v with dirCluster := 0 }
            fatRewind
            return fsDesc

/-! ## The directory -/

/-- `(dir_offset % 16) << 5`: the entry within its block. -/
def Volume.entryOff (v : Volume) : Word := (v.dirOffset % 16#16) <<< 5

def fatAttr : FatM Byte := do onCard (Sdcard.read ((← get).entryOff + 11))

/-- The loop of `fat_next`, with `left` the entries from `dir_offset` on. -/
def nextLoop (fuel : Nat) : Nat → FatM Int
  | 0 => return -1
  | left + 1 => do
    let v ← get
    if (← fetchCluster fuel v.dirCluster (v.dirOffset.setWidth 64 <<< 5)) < 0 then return -2
    else
      let firstChar ← onCard (Sdcard.read v.entryOff)
      if firstChar = 0 ∨ firstChar &&& 0x80#8 ≠ 0 ∨ (← fatAttr) = 0x0f#8 then
        modify fun v => { v with dirOffset := v.dirOffset + 1 }
        nextLoop fuel left
      else return v.dirOffset.toNat

def fatNext (fuel : Nat) : FatM Int := do
  modify fun v => { v with dirOffset := v.dirOffset + 1 }
  let v ← get
  nextLoop fuel (v.dirEntries.toNat - v.dirOffset.toNat)

/-- The bytes `fat_name` writes from index `i` on, before the final NUL. -/
def nameFrom : Nat → Nat → FatM (List Byte)
  | 0, _ => return []
  | left + 1, i => do
    let c ← onCard (Sdcard.read ((← get).entryOff + BitVec.ofNat 16 i))
    let rest ← nameFrom left (i + 1)
    if c = 0x20#8 then return rest
    else if i = 8 then return 0x2e#8 :: c :: rest
    else return c :: rest

def fatName : FatM (List Byte) := nameFrom 11 0

def fatChdir : FatM Int := do
  let cluster ← read2 ((← get).entryOff + 26)
  modify fun v => { v with dirCluster := cluster }
  fatRewind
  return 0

def fatSize : FatM ULong := do read4 ((← get).entryOff + 28)

/-! ## The open file -/

def fatSeek (pos : ULong) : FatM Int := do
  if (← get).fileSize ≤ pos then return -1
  else
    modify fun v => { v with fileOffset := pos }
    return 0

def fatOpen : FatM Int := do
  let cluster ← read2 ((← get).entryOff + 26)
  modify fun v => { v with fileCluster := cluster }
  let size ← fatSize
  modify fun v => { v with fileSize := size }
  fatSeek 0

def fatRead (fuel : Nat) : FatM Int := do
  let v ← get
  fetchCluster fuel v.fileCluster v.fileOffset

end Fat

end CpMega88
