import CpMega88.Lib.ShortName
import CpMega88.Listing

/-!
# Finding a file by its name

The eleven bytes of a directory entry hold a short name; `fat_name` writes
it out with a dot, and `mount` compares that with the string it is given.
`mount_by_name`: where all entries in use have such names, `mount` opens
the first one whose eleven bytes are the encoding of the string, and fails
if there is none.
-/

namespace CpMega88

open Bytes Sdcard

namespace Fat

/-! ## Names -/

/-- A character of a name. -/
def Letter (c : Byte) : Prop := c ≠ 0x20 ∧ c ≠ 0x2e ∧ c ≠ 0

instance : DecidablePred Letter := fun _ => inferInstanceAs (Decidable (_ ∧ _ ∧ _))

abbrev FileName := ShortName Letter 8 3

/-- The name bytes of an entry of the root directory. -/
def Geometry.nameBytes (g : Geometry) (image : Image) (i : Nat) : List Byte :=
  (List.range 11).map (g.entryByte image i)

/-- The name bytes of the file with such a name, if it is one. -/
def encode (s : List Byte) : Option (List Byte) :=
  (ShortName.ofText 8 3 0x2e s).map fun n : FileName => n.padded 0x20

theorem not_letter_pad : ¬Letter 0x20 := by simp [Letter]

theorem not_letter_dot : ¬Letter 0x2e := by simp [Letter]

theorem encode_eq_some {s bytes : List Byte} :
    encode s = some bytes ↔ ∃ n : FileName, n.text 0x2e = s ∧ n.padded 0x20 = bytes := by
  rw [encode, Option.map_eq_some_iff]
  exact exists_congr fun n => and_congr_left' (ShortName.ofText_eq_some not_letter_dot)

/-- A written name contains no NUL. -/
theorem cstr_text (n : FileName) : Machine.cstr (n.text 0x2e) = n.text 0x2e := by
  rw [Machine.cstr, List.takeWhile_eq_self_iff]
  intro c hc
  rw [ShortName.text, List.mem_append] at hc
  have hne : c ≠ 0 := by
    rcases hc with hc | hc
    · exact (n.base_letters c hc).2.2
    · split at hc
      · cases hc
      · rcases List.mem_cons.mp hc with rfl | hc
        · decide
        · exact (n.extension_letters c hc).2.2
  exact decide_eq_true hne

/-! ## What `fat_name` writes -/

/-- The bytes that `nameAt` goes through. -/
theorem nameAt_eq_render (buffer : Nat → Byte) (off : Word) (left i : Nat) :
    nameAt buffer off left i = ShortName.render 0x20 0x2e 8 i
      ((List.range' i left).map fun k => buffer (off + BitVec.ofNat 16 k).toNat) := by
  induction left generalizing i with
  | zero => rfl
  | succ left ih =>
      rw [nameAt, List.range'_succ, List.map_cons, ShortName.render, ih]
      rfl

/-- What the buffer holds of the entry. -/
theorem shown_byte {g : Geometry} {image : Image} {p : Int × Volume} {i k : Nat}
    (h : Shown g image p i) (hk : k < 32) :
    p.2.card.buffer (p.2.entryOff + BitVec.ofNat 16 k).toNat = g.entryByte image i k := by
  have hoff : p.2.entryOff.toNat = i % 16 * 32 := h.off.trans (Nat.mul_comm ..)
  have haddr : (p.2.entryOff + BitVec.ofNat 16 k).toNat = i % 16 * 32 + k :=
    toNat_add_ofNat hoff (by omega)
  rw [haddr, h.block _ (by omega)]
  rfl

theorem shown_name {g : Geometry} {image : Image} {p : Int × Volume} {i : Nat}
    (h : Shown g image p i) :
    p.2.entryName = ShortName.render 0x20 0x2e 8 0 (g.nameBytes image i) := by
  rw [Volume.entryName, nameAt_eq_render, Geometry.nameBytes, List.range_eq_range']
  congr 1
  refine List.map_congr_left fun k hk => shown_byte h ?_
  have hk' : k < 11 := by simpa using hk
  omega

/-- First cluster and size of the file of an entry. -/
def Geometry.firstCluster (g : Geometry) (image : Image) (i : Nat) : Nat :=
  (g.entryByte image i 26).toNat + 256 * (g.entryByte image i 27).toNat

def Geometry.fileBytes (g : Geometry) (image : Image) (i : Nat) : Nat :=
  (g.entryByte image i 28).toNat + 256 * (g.entryByte image i 29).toNat
    + 65536 * (g.entryByte image i 30).toNat + 16777216 * (g.entryByte image i 31).toNat

theorem shown_cluster {g : Geometry} {image : Image} {r : Int} {v : Volume} {i : Nat}
    (h : Shown g image (r, v) i) : v.entryCluster.toNat = g.firstCluster image i := by
  have hbyte (k : Nat) (hk : k < 32) :
      v.card.buffer (v.entryOff + BitVec.ofNat 16 k).toNat = g.entryByte image i k :=
    shown_byte h hk
  have hnext : v.entryOff + 26 + 1 = v.entryOff + BitVec.ofNat 16 27 := add_assoc ..
  rw [Volume.entryCluster, toNat_word, hnext, hbyte 27 (by decide),
    show (26 : Word) = BitVec.ofNat 16 26 from rfl, hbyte 26 (by decide), Geometry.firstCluster,
    Nat.add_comm]

theorem shown_size {g : Geometry} {image : Image} {r : Int} {v : Volume} {i : Nat}
    (h : Shown g image (r, v) i) : v.entrySize.toNat = g.fileBytes image i := by
  have hbyte (k : Nat) (hk : k < 32) :
      v.card.buffer (v.entryOff + BitVec.ofNat 16 k).toNat = g.entryByte image i k :=
    shown_byte h hk
  have h29 : v.entryOff + 28 + 1 = v.entryOff + BitVec.ofNat 16 29 := add_assoc ..
  have h30 : v.entryOff + 28 + 2 = v.entryOff + BitVec.ofNat 16 30 := add_assoc ..
  have h31 : v.entryOff + BitVec.ofNat 16 30 + 1 = v.entryOff + BitVec.ofNat 16 31 :=
    add_assoc ..
  rw [Volume.entrySize, toNat_words, toNat_word, toNat_word, h30, h31, h29, hbyte 31 (by decide),
    hbyte 30 (by decide), hbyte 29 (by decide), show (28 : Word) = BitVec.ofNat 16 28 from rfl,
    hbyte 28 (by decide), Geometry.fileBytes]
  omega

/-- The entries in use have short names. -/
def Named (g : Geometry) (image : Image) : Prop :=
  ∀ i ∈ g.liveEntries image, ∃ n : FileName, n.padded 0x20 = g.nameBytes image i

/-- What `fat_name` writes for an entry with a short name. -/
theorem fatName_text {g : Geometry} {image : Image} {p : Int × Volume} {i : Nat} {n : FileName}
    (h : Shown g image p i) (hname : n.padded 0x20 = g.nameBytes image i) :
    fatName p.2 = some (n.text 0x2e, p.2) := by
  rw [fatName_run, shown_name h, ← hname, ShortName.render_padded not_letter_pad]

end Fat

/-! ## What `mount` opens -/

namespace Machine

open Fat (Geometry Volume Shown Standing RootReads Named FileName encode fatName fatNext)

/-- The file of an entry is open, at its beginning; an empty one leaves the
place in the file of `v`. With no entry nothing is mounted, and the open
file is that of `v`. -/
def OpensEntry (g : Geometry) (image : Image) (v : Volume) : Option Nat → State → Prop
  | none, t => t.sdFat = 0 ∧ t.volume.fileCluster = v.fileCluster
      ∧ t.volume.fileSize = v.fileSize ∧ t.volume.fileOffset = v.fileOffset
  | some i, t => t.sdFat = 1 ∧ t.volume.fileCluster.toNat = g.firstCluster image i
      ∧ t.volume.fileSize.toNat = g.fileBytes image i
      ∧ t.volume.fileOffset = if g.fileBytes image i = 0 then v.fileOffset else 0

/-- `fat_open` of an entry in the buffer. -/
theorem opening_opensEntry {g : Geometry} {image : Image} {v u : Volume} {r : Int} {i : Nat}
    (h : Shown g image (r, u) i) (hoffset : u.fileOffset = v.fileOffset) {t : State}
    (hmode : t.sdFat = 1)
    (hvol : t.volume = { u.opening with fileOffset := u.opening.sought 0 }) :
    OpensEntry g image v (some i) t := by
  have hcluster : u.entryCluster.toNat = g.firstCluster image i := Fat.shown_cluster h
  have hsize : u.entrySize.toNat = g.fileBytes image i := Fat.shown_size h
  rw [OpensEntry, hvol]
  refine ⟨hmode, hcluster, hsize, ?_⟩
  show (if u.entrySize ≤ 0 then u.fileOffset else 0) = _
  have hempty : u.entrySize ≤ 0 ↔ g.fileBytes image i = 0 := by
    rw [← hsize, BitVec.le_def]
    exact Nat.le_zero
  simp only [hempty, hoffset]

/-- The entry has the name. -/
def hasName (g : Geometry) (image : Image) (s : List Byte) (i : Nat) : Bool :=
  encode s = some (g.nameBytes image i)

/-- `mount` compares the string with what is written for the entry. -/
theorem strdcmp_iff {g : Geometry} {image : Image} {p : Int × Volume} {i : Nat} {n : FileName}
    {s : List Byte} (h : Shown g image p i) (hname : n.padded 0x20 = g.nameBytes image i) :
    strdcmp s p.2.entryName 0 = 0 ↔ hasName g image (cstr s) i = true := by
  have htext : p.2.entryName = n.text 0x2e := by
    rw [Fat.shown_name h, ← hname, ShortName.render_padded Fat.not_letter_pad]
  rw [strdcmp_nul_iff, htext, Fat.cstr_text, hasName, decide_eq_true_eq, Fat.encode_eq_some]
  constructor
  · intro hs
    exact ⟨n, hs.symm, hname⟩
  · rintro ⟨n', hs, hname'⟩
    have hsame : n' = n := by
      have hrender := congrArg (ShortName.render 0x20 0x2e 8 0) (hname'.trans hname.symm)
      rw [ShortName.render_padded Fat.not_letter_pad, ShortName.render_padded Fat.not_letter_pad]
        at hrender
      exact ShortName.text_injective Fat.not_letter_dot hrender
    rw [← hs, hsame]

theorem mountLoop_by_name (fuel : Nat) (s : List Byte) {g : Geometry} {image : Image}
    {v : Volume} (hblocks : ∀ i < g.dirEntries.toNat, image.Holds (g.rootAddr (i / 16)))
    (hnamed : Named g image) {left i : Nat} {m : State} (h : Standing g image m.volume i)
    (hleft : g.dirEntries.toNat - i < left) (hfile : m.volume.fileCluster = v.fileCluster)
    (hsize : m.volume.fileSize = v.fileSize) (hoffset : m.volume.fileOffset = v.fileOffset) :
    ∃ t, mountLoop fuel s left m = some ((), t)
      ∧ OpensEntry g image v ((g.liveFrom image i).find? (hasName g image (cstr s))) t := by
  induction left generalizing m i with
  | zero => omega
  | succ left ih =>
      obtain ⟨r, u, hnext, hcall⟩ := Fat.fatNext_shown fuel hblocks h
      have hwandered := (Fat.fatNext_wandered hnext).1
      have hfile' := hwandered.file.trans hfile
      have hsize' := hwandered.size.trans hsize
      have hoffset' := hwandered.offset.trans hoffset
      rcases hcall with ⟨hneg, hnone⟩ | ⟨j, hij, hjl, hlive, hshown, hstand⟩
      · obtain ⟨console, hrun⟩ := mountLoop_missing left s hnext hneg
        rw [hnone]
        exact ⟨_, hrun, rfl, hfile', hsize', hoffset'⟩
      · have hindex : r = j := hshown.index
        have hpos : ¬r < 0 := by omega
        obtain ⟨n, hname⟩ := hnamed j (Fat.mem_of_liveFrom hlive)
        have hcompare := strdcmp_iff (s := s) hshown hname
        rw [hlive]
        by_cases hfound : hasName g image (cstr s) j = true
        · obtain ⟨console, hrun⟩ := mountLoop_found left s hnext hpos (hcompare.mpr hfound)
          refine ⟨_, hrun, ?_⟩
          rw [List.find?_cons_of_pos hfound]
          exact opening_opensEntry hshown hoffset' rfl rfl
        · obtain ⟨t, hrun, hopens⟩ := ih (m := { m with volume := u }) hstand (by omega) hfile' hsize'
            hoffset'
          refine ⟨t, (mountLoop_other hnext hpos (mt hcompare.mp hfound)).trans hrun, ?_⟩
          rwa [List.find?_cons_of_neg hfound]

/-- Where the entries in use have short names, `fat_name` needs thirteen
bytes at most and tells the entries apart, and `mount` opens the first
entry with the name it is given, if there is one. -/
theorem mount_by_name (fuel : Nat) (s : List Byte) (m : State)
    (hrecord : m.volume.lastCluster = 0xffff) (hdir : m.volume.dirCluster = 0)
    (hreads : RootReads m.volume) (hnamed : Named m.volume.toGeometry m.card.image) :
    (∀ i ∈ m.volume.liveEntries m.card.image, ∀ p, Shown m.volume.toGeometry m.card.image p i →
        ∃ text, fatName p.2 = some (text, p.2) ∧ cstr text = text ∧ text.length + 1 ≤ 13)
      ∧ (∀ i ∈ m.volume.liveEntries m.card.image, ∀ j ∈ m.volume.liveEntries m.card.image,
        ∀ p q text, Shown m.volume.toGeometry m.card.image p i →
          Shown m.volume.toGeometry m.card.image q j → fatName p.2 = some (text, p.2) →
          fatName q.2 = some (text, q.2) →
          m.volume.nameBytes m.card.image i = m.volume.nameBytes m.card.image j)
      ∧ ∃ t, mount fuel s m = some ((), t)
        ∧ OpensEntry m.volume.toGeometry m.card.image m.volume
          ((m.volume.liveEntries m.card.image).find? (hasName m.volume.toGeometry m.card.image
            (cstr s))) t := by
  refine ⟨fun i hi p hp => ?_, fun i hi j hj p q text hp hq hpt hqt => ?_, ?_⟩
  · obtain ⟨n, hname⟩ := hnamed i hi
    exact ⟨_, Fat.fatName_text hp hname, Fat.cstr_text n,
      Nat.add_le_add_right (ShortName.text_length_le n) 1⟩
  · obtain ⟨n, hname⟩ := hnamed i hi
    obtain ⟨n', hname'⟩ := hnamed j hj
    have htext : n.text 0x2e = n'.text 0x2e := by
      have hn := Option.some.inj ((Fat.fatName_text hp hname).symm.trans hpt)
      have hn' := Option.some.inj ((Fat.fatName_text hq hname').symm.trans hqt)
      exact (congrArg Prod.fst hn).trans (congrArg Prod.fst hn').symm
    have hsame : n = n' := ShortName.text_injective Fat.not_letter_dot htext
    rw [← hname, ← hname', hsame]
  · obtain ⟨console, hrun⟩ := mount_run fuel s m
    obtain ⟨t, ht, hopens⟩ := mountLoop_by_name fuel s hreads.blocks hnamed
      (m := { m with volume := { m.volume with dirOffset := 0xffff }, console := console })
      (Fat.rewound_standing hrecord hdir hreads) (Nat.lt_succ_self _) rfl rfl rfl
    rw [Fat.liveFrom_zero] at hopens
    exact ⟨t, hrun.trans ht, hopens⟩

/-- `A` is the second entry of `dirImage`. -/
theorem mount_by_name_a :
    (dirVolume.liveEntries dirImage).find? (hasName dirVolume.toGeometry dirImage
        (cstr (ascii "A"))) = some 1
      ∧ ∃ t, mount 1 (ascii "A") { fresh with volume := dirVolume } = some ((), t)
        ∧ OpensEntry dirVolume.toGeometry dirImage dirVolume
          ((dirVolume.liveEntries dirImage).find? (hasName dirVolume.toGeometry dirImage
            (cstr (ascii "A")))) t := by
  have hnamed : Named dirVolume.toGeometry dirImage := by
    have hlive : dirVolume.liveEntries dirImage = [0, 1] := by decide +kernel
    intro i hi
    rw [hlive] at hi
    rcases List.mem_cons.mp hi with rfl | hi
    · exact ⟨⟨ascii "D", [], by decide, by decide, by decide, by decide, by decide⟩,
        by decide +kernel⟩
    · obtain rfl := List.mem_singleton.mp hi
      exact ⟨⟨ascii "A", [], by decide, by decide, by decide, by decide, by decide⟩,
        by decide +kernel⟩
  exact ⟨by decide +kernel, (mount_by_name 1 (ascii "A") { fresh with volume := dirVolume } rfl rfl
    Fat.dirVolume_reads hnamed).2.2⟩

end Machine

end CpMega88
