import CpMega88.Fat

/-!
# Where a request lands

`Lands` says, of a geometry and the contents of a card alone, which block
a request to `fetch_cluster` comes to when every read works: `Links`
follows the FAT entries the loop reads, and the block is found from the
last cluster. The two directions connect it with the code: a request with
a landing, on a card that serves its reads, loads that block
(`fetchCluster_ok`), and a request that missed the record and succeeded
had a landing (`fetchCluster_lands`).
-/

namespace CpMega88

open Bytes Sdcard Splice

namespace Fat

/-! ## Landings -/

/-- The block of the FAT the code reads for a cluster, and the offset in
it. -/
def Geometry.fatBlock (g : Geometry) (c : Word) : ULong := g.fatPos c &&& 0xfffffe00#64

def Geometry.fatOff (g : Geometry) (c : Word) : Word := (g.fatPos c &&& 0x000001ff#64).setWidth 16

/-- The FAT entry the code reads for a cluster. -/
def Geometry.entry (g : Geometry) (image : Image) (c : Word) : Word :=
  word (image.block (g.fatBlock c) (g.fatOff c + 1).toNat)
    (image.block (g.fatBlock c) (g.fatOff c).toNat)

/-- A cluster number that is no end mark and not reserved. -/
def IsLink (c : Word) : Prop := 2 ≤ c.toNat ∧ c.toNat < 0xfff7

instance (c : Word) : Decidable (IsLink c) := inferInstanceAs (Decidable (_ ∧ _))

/-- The loop of `fetch_cluster` on a card that can be read: after `n`
links it stops at a cluster, with less than a cluster of the offset
left. -/
inductive Links (g : Geometry) (image : Image) : Word → ULong → Nat → Word → ULong → Prop
  | stop {c : Word} {o : ULong} : ¬g.clusterBytes < o → Links g image c o 0 c o
  | link {c c' : Word} {o o' : ULong} {n : Nat} : g.clusterBytes < o →
      image.Holds (g.fatBlock c) → IsLink (g.entry image c) →
      Links g image (g.entry image c) (o - g.clusterBytes) n c' o' → Links g image c o (n + 1) c' o'

/-- A request for an offset in the chain from `c` comes to a block. -/
inductive Lands (g : Geometry) (image : Image) : Word → ULong → Nat → ULong → Prop
  | root {o : ULong} : image.Holds (g.rootSector o <<< 9) →
      Lands g image 0 o 0 (g.rootSector o <<< 9)
  | data {c c' : Word} {o o' : ULong} {n : Nat} : c ≠ 0 → Links g image c o n c' o' →
      image.Holds (g.dataSector c' o' <<< 9) → Lands g image c o n (g.dataSector c' o' <<< 9)

theorem isLink_iff (c : Word) : IsLink c ↔ ¬(c < 2 ∨ 0xfff7#16 ≤ c) := by
  rw [IsLink, not_or, BitVec.not_lt, BitVec.not_le]
  exact Iff.rfl

theorem Links.unique {g : Geometry} {image : Image} {c c' c'' : Word} {o o' o'' : ULong}
    {n m : Nat} (h : Links g image c o n c' o') (h' : Links g image c o m c'' o'') :
    n = m ∧ c' = c'' ∧ o' = o'' := by
  induction h generalizing m with
  | stop hstop =>
      cases h' with
      | stop => exact ⟨rfl, rfl, rfl⟩
      | link hgo => exact absurd hgo hstop
  | link hgo _ _ _ ih =>
      cases h' with
      | stop hstop => exact absurd hgo hstop
      | link _ _ _ hrest =>
          obtain ⟨hn, hc, ho⟩ := ih hrest
          exact ⟨congrArg Nat.succ hn, hc, ho⟩

theorem Lands.unique {g : Geometry} {image : Image} {c : Word} {o blk blk' : ULong} {n m : Nat}
    (h : Lands g image c o n blk) (h' : Lands g image c o m blk') : n = m ∧ blk = blk' := by
  cases h with
  | root =>
      cases h' with
      | root => exact ⟨rfl, rfl⟩
      | data hc => exact absurd rfl hc
  | data hc hlinks =>
      cases h' with
      | root => exact absurd rfl hc
      | data _ hlinks' =>
          obtain ⟨rfl, rfl, rfl⟩ := hlinks.unique hlinks'
          exact ⟨rfl, rfl⟩

/-! ## Data sectors -/

/-- The address of a sector of a cluster, where nothing overflows. -/
theorem toNat_dataSector (g : Geometry) (hdir : g.dirSector.toNat < 2 ^ 33) {c : Word}
    (hc : 2 ≤ c.toNat) {o : ULong} (ho : o.toNat < 2 ^ 17) :
    (g.dataSector c o <<< 9).toNat
        = (g.dirSector.toNat + (g.dirSize.toNat + (c.toNat - 2)) * g.sectorsPerCluster.toNat
          + o.toNat / 512) * 512
      ∧ (g.dataSector c o <<< 9).toNat < 2 ^ 62 := by
  have hclt := c.isLt
  have hsizelt := g.dirSize.isLt
  have hspc := g.sectorsPerCluster.isLt
  have hcount : (g.dirSize.setWidth 64 + c.setWidth 64 - 2#64 : ULong).toNat
      = g.dirSize.toNat + (c.toNat - 2) := by
    have htwo : (2#64).toNat = 2 := rfl
    simp only [BitVec.toNat_sub, BitVec.toNat_add, BitVec.toNat_setWidth, htwo]
    omega
  have hmul : (g.dirSize.toNat + (c.toNat - 2)) * g.sectorsPerCluster.toNat < 2 ^ 25 := by
    have hlt : g.dirSize.toNat + (c.toNat - 2) < 2 ^ 17 := by omega
    exact (Nat.mul_lt_mul'' hlt hspc).trans_le (by decide)
  have hprod : ((g.dirSize.setWidth 64 + c.setWidth 64 - 2#64)
      * g.sectorsPerCluster.setWidth 64 : ULong).toNat
      = (g.dirSize.toNat + (c.toNat - 2)) * g.sectorsPerCluster.toNat := by
    rw [BitVec.toNat_mul, hcount, BitVec.toNat_setWidth_of_le (by decide)]
    exact Nat.mod_eq_of_lt (hmul.trans (by decide))
  have hsector : (g.dataSector c o).toNat = g.dirSector.toNat
      + (g.dirSize.toNat + (c.toNat - 2)) * g.sectorsPerCluster.toNat + o.toNat / 512 := by
    simp only [Geometry.dataSector, BitVec.toNat_add, hprod, BitVec.toNat_ushiftRight,
      Nat.shiftRight_eq_div_pow]
    omega
  have hshift : (g.dataSector c o <<< 9).toNat = (g.dataSector c o).toNat * 512 := by
    rw [BitVec.toNat_shiftLeft, Nat.shiftLeft_eq]
    exact Nat.mod_eq_of_lt (by omega)
  rw [hshift, hsector]
  exact ⟨rfl, by omega⟩

/-! ## The loop -/

/-- The volume after a card operation. -/
def Volume.withCard (v : Volume) (card : Card) : Volume := { v with card := card }

theorem onCard_run {α : Type} (x : CardM α) (v : Volume) :
    onCard x v = some ((x v.card).1, v.withCard (x v.card).2) := rfl

theorem onCard_bind_run {α β : Type} (x : CardM α) (k : α → FatM β) (v : Volume) :
    (onCard x >>= k) v = k (x v.card).1 (v.withCard (x v.card).2) := rfl

theorem read2_bind_run {α : Type} (off : Word) (k : Word → FatM α) (v : Volume) :
    (read2 off >>= k) v
      = k (word (v.card.buffer (off + 1).toNat) (v.card.buffer off.toNat)) v := rfl

/-- The entry found in the buffer after the FAT block has been read. -/
def Volume.found (v : Volume) (c : Word) : Word :=
  word (v.card.buffer (v.fatOff c + 1).toNat) (v.card.buffer (v.fatOff c).toNat)

/-- The volume after the FAT block of a cluster has been fetched. -/
def Volume.atEntry (v : Volume) (c : Word) : Volume :=
  v.withCard (fetch (v.fatBlock c) v.card).2

theorem walk_run (fuel : Nat) (c : Word) (o : ULong) (v : Volume) :
    walk (fuel + 1) c o v =
      if v.clusterBytes < o then
        if (fetch (v.fatBlock c) v.card).1 < 0 then some (.error (-1), v.atEntry c)
        else if (v.atEntry c).found c < 2 ∨ 0xfff7#16 ≤ (v.atEntry c).found c then
          some (.error (-2), v.atEntry c)
        else walk fuel ((v.atEntry c).found c) (o - v.clusterBytes) (v.atEntry c)
      else some (.ok (c, o), v) := by
  simp only [walk, Prog.get_bind_run, Prog.ite_run, onCard_bind_run, read2_bind_run, Prog.pure_run]
  rfl

theorem fatPos_even (g : Geometry) (c : Word) : (g.fatPos c).toNat % 2 = 0 := by
  simp only [Geometry.fatPos, BitVec.toNat_add, BitVec.toNat_shiftLeft, Nat.shiftLeft_eq]
  omega

theorem toNat_fatOff (g : Geometry) (c : Word) :
    (g.fatOff c).toNat = (g.fatPos c).toNat % 512
      ∧ (g.fatOff c + 1).toNat = (g.fatPos c).toNat % 512 + 1
      ∧ (g.fatPos c).toNat % 512 + 1 < 512 := by
  have heven := fatPos_even g c
  have hoff : (g.fatOff c).toNat = (g.fatPos c).toNat % 512 := by
    rw [Geometry.fatOff, BitVec.toNat_setWidth, toNat_and_1ff]
    omega
  refine ⟨hoff, ?_, by omega⟩
  exact toNat_add_one hoff (by omega)

theorem toNat_fatBlock (g : Geometry) (c : Word) :
    (g.fatBlock c).toNat = (g.fatPos c).toNat % 2 ^ 32 / 512 * 512 :=
  toNat_and_mask _

/-- The entry read for a cluster, at an address of 32 bits. -/
theorem entry_eq (g : Geometry) (image : Image) (c : Word) : g.entry image c
      = word (image.byte ((g.fatPos c).toNat % 2 ^ 32 + 1))
        (image.byte ((g.fatPos c).toNat % 2 ^ 32)) := by
  obtain ⟨hoff, hoff1, -⟩ := toNat_fatOff g c
  have hsplit : (g.fatPos c).toNat % 2 ^ 32 / 512 * 512 + (g.fatPos c).toNat % 512
      = (g.fatPos c).toNat % 2 ^ 32 := by omega
  rw [Geometry.entry, hoff, hoff1]
  simp only [Image.block, toNat_fatBlock, ← Nat.add_assoc, hsplit]

theorem atEntry_ok {v : Volume} {c : Word} (h : FetchOk v.card (v.fatBlock c)) :
    v.atEntry c = v.withCard (v.card.loaded (v.fatBlock c))
      ∧ (v.atEntry c).found c = v.entry v.card.image c := by
  have hrun : v.atEntry c = v.withCard (v.card.loaded (v.fatBlock c)) := by
    rw [Volume.atEntry, fetch_ok h]
  obtain ⟨hoff, hoff1, hlt⟩ := toNat_fatOff v.toGeometry c
  have hbuf : ∀ i < 512, (v.card.loaded (v.fatBlock c)).buffer i
      = v.card.image.block (v.fatBlock c) i := fun i hi => splice_in (Nat.zero_le i) (by omega)
  refine ⟨hrun, ?_⟩
  rw [hrun]
  show word ((v.card.loaded (v.fatBlock c)).buffer (v.fatOff c + 1).toNat)
    ((v.card.loaded (v.fatBlock c)).buffer (v.fatOff c).toNat) = _
  rw [hbuf _ (by omega), hbuf _ (by omega)]
  rfl

/-- A card whose next `n` calls work. -/
def Quiet (card : Card) (n : Nat) : Prop := ∀ f ∈ card.faults.take n, f = Fault.none

theorem Quiet.head {card : Card} {n : Nat} (h : Quiet card (n + 1)) : card.fault = .none := by
  cases hf : card.faults with
  | nil => exact fault_of_quiet hf
  | cons f fs =>
      have hmem : f ∈ card.faults.take (n + 1) := by
        rw [hf, List.take_succ_cons]
        exact List.mem_cons_self
      rw [Card.fault, hf]
      exact h f hmem

theorem Quiet.loaded {card : Card} {n : Nat} (h : Quiet card (n + 1)) (blk : ULong) :
    Quiet (card.loaded blk) n := by
  intro f hf
  have htail : (card.loaded blk).faults = card.faults.tail := rfl
  rw [htail] at hf
  cases hfs : card.faults with
  | nil => rw [hfs] at hf; simp at hf
  | cons f' fs =>
      rw [hfs, List.tail_cons] at hf
      refine h f ?_
      rw [hfs, List.take_succ_cons]
      exact List.mem_cons_of_mem _ hf

/-- On a card that serves its reads the loop follows the links. -/
theorem walk_links {v : Volume} {c c' : Word} {o o' : ULong} {n : Nat}
    (h : Links v.toGeometry v.card.image c o n c' o') (hfp : v.card.fp ≠ none)
    {m : Nat} (hquiet : Quiet v.card (n + m)) {fuel : Nat} (hfuel : n < fuel) :
    ∃ card, walk fuel c o v = some (.ok (c', o'), v.withCard card) ∧ Moved v.card card
      ∧ Quiet card m := by
  generalize hg : v.toGeometry = g at h
  generalize himage : v.card.image = image at h
  induction h generalizing v fuel with
  | stop hstop =>
      obtain ⟨fuel, rfl⟩ := Nat.exists_eq_succ_of_ne_zero (Nat.ne_of_gt hfuel)
      subst hg
      refine ⟨v.card, ?_, Moved.refl _, by rwa [Nat.zero_add] at hquiet⟩
      rw [walk_run, if_neg hstop]
      rfl
  | @link c c' o o' n hgo hholds hlink _ ih =>
      obtain ⟨fuel, rfl⟩ := Nat.exists_eq_succ_of_ne_zero (Nat.ne_of_gt (by omega : 0 < fuel))
      subst hg himage
      rw [Nat.add_right_comm] at hquiet
      have hfetch : FetchOk v.card (v.fatBlock c) := hholds.fetchOk hfp hquiet.head
      obtain ⟨hat, hfound⟩ := atEntry_ok hfetch
      have hpos : ¬(fetch (v.fatBlock c) v.card).1 < 0 := by
        rw [fetch_ok hfetch]
        exact lt_irrefl 0
      obtain ⟨card, hrun, hmoved, hquiet'⟩ := @ih (v.atEntry c) (by rw [hat]; exact hfp)
        (by rw [hat]; exact hquiet.loaded _) fuel (Nat.lt_of_succ_lt_succ hfuel)
        (by rw [hat]; rfl) (by rw [hat]; rfl)
      refine ⟨card, ?_, (loaded_moved _ _).trans (by rwa [hat] at hmoved), hquiet'⟩
      rw [walk_run, if_pos hgo, if_neg hpos, hfound, if_neg ((isLink_iff _).mp hlink), hrun, hat]
      rfl

/-- However the loop ends, it has only moved the card on; if it ends with
a cluster, it has followed links to it. -/
theorem walk_outcome {fuel : Nat} {c : Word} {o : ULong} {v v' : Volume}
    {r : Except Int (Word × ULong)} (h : walk fuel c o v = some (r, v')) :
    (∃ card, v' = v.withCard card ∧ Moved v.card card)
      ∧ (∀ e, r = .error e → e < 0)
      ∧ ∀ c' o', r = .ok (c', o') → ∃ n, Links v.toGeometry v.card.image c o n c' o' := by
  induction fuel generalizing c o v with
  | zero => cases (Prog.failure_run v).symm.trans h
  | succ fuel ih =>
      rw [walk_run] at h
      split_ifs at h with hgo hneg hlink
      · cases h
        exact ⟨⟨_, rfl, fetch_moved _ _⟩, fun e he => by cases he; decide,
          fun _ _ he => (nomatch he)⟩
      · cases h
        exact ⟨⟨_, rfl, fetch_moved _ _⟩, fun e he => by cases he; decide,
          fun _ _ he => (nomatch he)⟩
      · have hfetch := fetchOk_of_not_neg hneg
        obtain ⟨hat, hfound⟩ := atEntry_ok hfetch
        obtain ⟨⟨card, rfl, hmoved⟩, herror, hok⟩ := ih h
        refine ⟨⟨card, rfl, (fetch_moved _ _).trans hmoved⟩, herror, fun c' o' hr => ?_⟩
        obtain ⟨n, hn⟩ := hok c' o' hr
        rw [hfound] at hn hlink
        rw [hat] at hn
        exact ⟨n + 1, .link hgo hfetch.holds ((isLink_iff _).mpr hlink) hn⟩
      · cases h
        refine ⟨⟨_, rfl, Moved.refl _⟩, fun e he => (nomatch he), fun c' o' hr => ?_⟩
        cases hr
        exact ⟨0, .stop hgo⟩

/-! ## The request -/

/-- The volume with a request on record. -/
def Volume.recorded (v : Volume) (c : Word) (o : ULong) : Volume :=
  { v with lastCluster := c, lastOffset := o }

theorem fetchCluster_hit {v : Volume} {c : Word} {o : ULong} (h : v.hit c o) (fuel : Nat) :
    fetchCluster fuel c o v = some (0, v) := by
  rw [fetchCluster, Prog.get_bind_run, Prog.ite_run, if_pos h]
  rfl

theorem fetchCluster_root {v : Volume} {o : ULong} (h : ¬v.hit 0 o) (fuel : Nat) :
    fetchCluster fuel 0 o v = onCard (fetch (v.rootSector o <<< 9)) (v.recorded 0 o) := by
  rw [fetchCluster, Prog.get_bind_run, Prog.ite_run, if_neg h, Prog.modify_bind_run, Prog.ite_run,
    if_pos rfl]
  rfl

theorem fetchCluster_data {v : Volume} {c : Word} {o : ULong} (h : ¬v.hit c o) (hc : c ≠ 0)
    (fuel : Nat) :
    fetchCluster fuel c o v = (walk fuel c o >>= fun r => match r with
      | .error e => pure e
      | .ok (c', o') => onCard (fetch (v.dataSector c' o' <<< 9))) (v.recorded c o) := by
  rw [fetchCluster, Prog.get_bind_run, Prog.ite_run, if_neg h, Prog.modify_bind_run, Prog.ite_run,
    if_neg hc]
  rfl

/-- The volume after a request has loaded its block. -/
def Fetched (v : Volume) (c : Word) (o blk : ULong) (v' : Volume) : Prop :=
  ∃ card, Moved v.card card ∧ card.curBlk = blk
    ∧ (∀ i < 512, card.buffer i = v.card.image.block blk i)
    ∧ v' = (v.recorded c o).withCard card

/-- A request that misses the record and has a landing, on a card that
serves its reads, loads the block and goes on record. -/
theorem fetchCluster_ok {v : Volume} {c : Word} {o blk : ULong} {n : Nat} (hmiss : ¬v.hit c o)
    (h : Lands v.toGeometry v.card.image c o n blk) (hfp : v.card.fp ≠ none)
    (hquiet : Quiet v.card (n + 1)) {fuel : Nat} (hfuel : n < fuel) :
    ∃ v', fetchCluster fuel c o v = some (0, v') ∧ Fetched v c o blk v' := by
  cases h with
  | root hholds =>
      have hfetch : FetchOk v.card (v.rootSector o <<< 9) := hholds.fetchOk hfp hquiet.head
      refine ⟨_, ?_, v.card.loaded (v.rootSector o <<< 9), loaded_moved _ _, rfl,
        fun i hi => loaded_buffer _ _ hi, rfl⟩
      rw [fetchCluster_root hmiss, onCard_run]
      show some ((fetch _ v.card).1, (v.recorded 0 o).withCard (fetch _ v.card).2) = _
      rw [fetch_ok hfetch]
  | @data _ c' _ o' _ hc hlinks hholds =>
      obtain ⟨card, hrun, hmoved, hquiet'⟩ :=
        walk_links (v := v.recorded c o) hlinks hfp hquiet hfuel
      have hfetch : FetchOk card (v.dataSector c' o' <<< 9) :=
        Image.Holds.fetchOk (hmoved.image ▸ hholds) (hmoved.fp ▸ hfp) hquiet'.head
      refine ⟨_, ?_, card.loaded (v.dataSector c' o' <<< 9), hmoved.trans (loaded_moved _ _), rfl,
        fun i hi => (loaded_buffer _ _ hi).trans (by rw [hmoved.image]; rfl), rfl⟩
      rw [fetchCluster_data hmiss hc, Prog.bind_of_run hrun]
      show some ((fetch _ card).1, (v.recorded c o).withCard (fetch _ card).2) = _
      rw [fetch_ok hfetch]

theorem onCard_fetch_eq_zero {v v' : Volume} {blk : ULong}
    (h : onCard (fetch blk) v = some (0, v')) :
    FetchOk v.card blk ∧ v' = v.withCard (v.card.loaded blk) := by
  rw [onCard_run, Option.some.injEq, Prod.mk.injEq] at h
  have hfetch := (fetch_iff _ _).mp h.1
  rw [fetch_ok hfetch] at h
  exact ⟨hfetch, h.2.symm⟩

/-- A request that missed the record and succeeded had a landing. -/
theorem fetchCluster_lands {v v' : Volume} {c : Word} {o : ULong} {fuel : Nat}
    (hmiss : ¬v.hit c o) (h : fetchCluster fuel c o v = some (0, v')) :
    ∃ n blk, Lands v.toGeometry v.card.image c o n blk ∧ Fetched v c o blk v'
      ∧ v.card.fp ≠ none := by
  by_cases hc : c = 0
  · subst hc
    rw [fetchCluster_root hmiss] at h
    obtain ⟨hfetch, rfl⟩ := onCard_fetch_eq_zero h
    exact ⟨0, _, .root hfetch.holds, ⟨v.card.loaded (v.rootSector o <<< 9), loaded_moved _ _, rfl,
      fun i hi => loaded_buffer _ _ hi, rfl⟩, hfetch.opened⟩
  · rw [fetchCluster_data hmiss hc] at h
    obtain ⟨r, u, hwalk, hrest⟩ := Prog.bind_eq_some.mp h
    obtain ⟨⟨card, rfl, hmoved⟩, herror, hok⟩ := walk_outcome hwalk
    cases r with
    | error e =>
        have he : e = 0 := congrArg Prod.fst (Option.some.inj hrest)
        exact absurd (herror e rfl) (by rw [he]; exact lt_irrefl 0)
    | ok p =>
        obtain ⟨c', o'⟩ := p
        obtain ⟨hfetch, rfl⟩ := onCard_fetch_eq_zero hrest
        obtain ⟨n, hlinks⟩ := hok c' o' rfl
        exact ⟨n, _, .data hc hlinks (hmoved.image ▸ hfetch.holds),
          ⟨_, hmoved.trans (loaded_moved _ _), rfl,
            fun i hi => (loaded_buffer _ _ hi).trans (by rw [hmoved.image]; rfl), rfl⟩,
          fun hfp => hfetch.opened (hmoved.fp.trans hfp)⟩

/-- Whatever comes of it, a request moves the card on and goes on
record. -/
theorem fetchCluster_moves {v v' : Volume} {c : Word} {o : ULong} {fuel : Nat} {r : Int}
    (hmiss : ¬v.hit c o) (h : fetchCluster fuel c o v = some (r, v')) :
    ∃ card, Moved v.card card ∧ v' = (v.recorded c o).withCard card := by
  by_cases hc : c = 0
  · subst hc
    rw [fetchCluster_root hmiss] at h
    cases h
    exact ⟨_, fetch_moved _ _, rfl⟩
  · rw [fetchCluster_data hmiss hc] at h
    obtain ⟨r', u, hwalk, hrest⟩ := Prog.bind_eq_some.mp h
    obtain ⟨⟨card, rfl, hmoved⟩, -, -⟩ := walk_outcome hwalk
    cases r' with
    | error e =>
        cases hrest
        exact ⟨card, hmoved, rfl⟩
    | ok p =>
        cases hrest
        exact ⟨_, hmoved.trans (fetch_moved _ _), rfl⟩

end Fat

end CpMega88
