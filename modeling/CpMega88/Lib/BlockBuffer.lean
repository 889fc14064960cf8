import Mathlib.Data.List.Induction

/-!
# A buffer for one block

A device of numbered blocks behind one buffer and one block number. A
fetch brings a block in, writes edit what is there, and a flush stores
the buffer under the number kept beside it.

A fetch may fail, and then it may leave the buffer alone or spoil it.
`held` follows a run of calls and says which block's contents the buffer
is about. As long as every flush finds the number of that block
(`Whole`), everything a flush stores came from a fetch of the block it is
stored to, and only writes have changed it since (`Paired`). When that is
so depends on which fetches a driver notes, those that load a block
(`whole_of_held`) or all of them (`whole_of_asked`).
-/

namespace BlockBuffer

/-- What a fetch does to the buffer. -/
inductive Outcome where
  | loaded
  | kept
  | spoiled
deriving DecidableEq

inductive Call (α ω : Type*) where
  | fetch (a : α)
  | write (w : ω)
  | flush

/-- The block of the last fetch of a run, whatever became of it. -/
def lastAsked {α ω : Type*} : List (Call α ω) → Option α → Option α
  | [], a => a
  | .fetch a :: cs, _ => lastAsked cs (some a)
  | .write _ :: cs, a => lastAsked cs a
  | .flush :: cs, a => lastAsked cs a

/-- A driver with states `σ`, block numbers `α`, contents `γ` and writes `ω`. -/
structure Driver (σ α γ ω : Type*) where
  fetch : α → σ → σ
  write : ω → σ → σ
  flush : σ → σ
  buffer : σ → γ
  block : σ → α
  edit : ω → γ → γ
  outcome : σ → α → Outcome
  /-- What a fetch that succeeds brings in. -/
  content : σ → α → γ
  /-- The flush from here puts something of the buffer on the device. -/
  Stores : σ → Prop
  buffer_loaded : ∀ s a, outcome s a = .loaded → buffer (fetch a s) = content s a
  buffer_kept : ∀ s a, outcome s a = .kept → buffer (fetch a s) = buffer s
  buffer_write : ∀ w s, buffer (write w s) = edit w (buffer s)
  buffer_flush : ∀ s, buffer (flush s) = buffer s

namespace Driver

variable {σ α γ ω : Type*} (D : Driver σ α γ ω)

def call : Call α ω → σ → σ
  | .fetch a => D.fetch a
  | .write w => D.write w
  | .flush => D.flush

def run : List (Call α ω) → σ → σ
  | [], s => s
  | c :: cs, s => run cs (D.call c s)

/-- The writes of a run, applied to a block's contents. -/
def edited : List (Call α ω) → γ → γ
  | [], x => x
  | .write w :: cs, x => edited cs (D.edit w x)
  | .fetch _ :: cs, x => edited cs x
  | .flush :: cs, x => edited cs x

/-- The block the buffer is about, after a call. -/
def holds (s : σ) (h : Option α) : Call α ω → Option α
  | .fetch a =>
      match D.outcome s a with
      | .loaded => some a
      | .kept => h
      | .spoiled => none
  | .write _ => h
  | .flush => h

/-- The block the buffer is about, after a run. -/
def held : List (Call α ω) → σ → Option α → Option α
  | [], _, h => h
  | c :: cs, s, h => held cs (D.call c s) (D.holds s h c)

/-- `x` is what a fetch of `a` brought in, changed only by the writes
after it. -/
def LoadedAs (cs : List (Call α ω)) (s : σ) (a : α) (x : γ) : Prop :=
  ∃ front back, cs = front ++ .fetch a :: back ∧ D.outcome (D.run front s) a = .loaded
    ∧ x = D.edited back (D.content (D.run front s) a)

/-- Whatever a flush stores was loaded from where it goes. -/
def Paired (cs : List (Call α ω)) (s : σ) : Prop :=
  ∀ front back, cs = front ++ .flush :: back → D.Stores (D.run front s) →
    D.LoadedAs front s (D.block (D.run front s)) (D.buffer (D.run front s))

/-- Every flush finds the number of the block the buffer is about. -/
def Whole (cs : List (Call α ω)) (s : σ) : Prop :=
  ∀ front back, cs = front ++ .flush :: back → D.Stores (D.run front s) →
    D.held front s none = some (D.block (D.run front s))

/-! ## A call at the end of a run -/

theorem run_append (cs : List (Call α ω)) (c : Call α ω) :
    ∀ s, D.run (cs ++ [c]) s = D.call c (D.run cs s) := by
  induction cs with
  | nil => intro s; rfl
  | cons c' cs ih => intro s; exact ih (D.call c' s)

theorem held_append (cs : List (Call α ω)) (c : Call α ω) :
    ∀ s h, D.held (cs ++ [c]) s h = D.holds (D.run cs s) (D.held cs s h) c := by
  induction cs with
  | nil => intro s h; rfl
  | cons c' cs ih => intro s h; exact ih (D.call c' s) (D.holds s h c')

theorem edited_append (cs : List (Call α ω)) (c : Call α ω) :
    ∀ x, D.edited (cs ++ [c]) x = D.edited [c] (D.edited cs x) := by
  induction cs with
  | nil => intro x; rfl
  | cons c' cs ih =>
      intro x
      cases c' with
      | fetch a => exact ih x
      | write w => exact ih (D.edit w x)
      | flush => exact ih x

theorem LoadedAs.append {D : Driver σ α γ ω} {cs : List (Call α ω)} {s : σ} {a : α} {x : γ}
    (h : D.LoadedAs cs s a x) (c : Call α ω) : D.LoadedAs (cs ++ [c]) s a (D.edited [c] x) := by
  obtain ⟨front, back, rfl, hloaded, rfl⟩ := h
  exact ⟨front, back ++ [c], by simp, hloaded, (D.edited_append back c _).symm⟩

/-! ## The buffer along a run -/

/-- What `held` names, the buffer holds. -/
theorem loadedAs_of_held {cs : List (Call α ω)} {s : σ} {a : α}
    (h : D.held cs s none = some a) : D.LoadedAs cs s a (D.buffer (D.run cs s)) := by
  induction cs using List.reverseRecOn with
  | nil => cases h
  | append_singleton cs c ih =>
      rw [held_append] at h
      rw [run_append]
      cases c with
      | fetch b =>
          cases hout : D.outcome (D.run cs s) b with
          | loaded =>
              rw [holds, hout] at h
              obtain rfl : b = a := Option.some.inj h
              exact ⟨cs, [], rfl, hout, D.buffer_loaded _ _ hout⟩
          | kept =>
              rw [holds, hout] at h
              have hlast := (ih h).append (.fetch b)
              rwa [edited, edited, ← D.buffer_kept _ _ hout] at hlast
          | spoiled =>
              rw [holds, hout] at h
              cases h
      | write w =>
          have hlast := (ih h).append (.write w)
          rwa [edited, edited, ← D.buffer_write] at hlast
      | flush =>
          have hlast := (ih h).append .flush
          rwa [edited, edited, ← D.buffer_flush] at hlast

theorem paired_of_whole {cs : List (Call α ω)} {s : σ} (h : D.Whole cs s) : D.Paired cs s :=
  fun front back hcs hstores => D.loadedAs_of_held (h front back hcs hstores)

/-! ## Drivers that note only what they load -/

section Noted

variable {D} {cs : List (Call α ω)} {s : σ}
  (hload : ∀ s a, D.outcome s a = .loaded → D.block (D.fetch a s) = a)
  (hkeep : ∀ s a, D.outcome s a = .kept → D.block (D.fetch a s) = D.block s)
  (hwrite : ∀ w s, D.block (D.write w s) = D.block s)
  (hflush : ∀ s, D.block (D.flush s) = D.block s)

include hload hkeep hwrite hflush

theorem block_of_held {a : α} (h : D.held cs s none = some a) : D.block (D.run cs s) = a := by
  induction cs using List.reverseRecOn with
  | nil => cases h
  | append_singleton cs c ih =>
      rw [held_append] at h
      rw [run_append]
      cases c with
      | fetch b =>
          cases hout : D.outcome (D.run cs s) b with
          | loaded =>
              rw [holds, hout] at h
              exact (hload _ _ hout).trans (Option.some.inj h)
          | kept =>
              rw [holds, hout] at h
              exact (hkeep _ _ hout).trans (ih h)
          | spoiled =>
              rw [holds, hout] at h
              cases h
      | write w => exact (hwrite w _).trans (ih h)
      | flush => exact (hflush _).trans (ih h)

/-- The buffer of such a driver can only be flushed wrong when it has been
spoiled. -/
theorem whole_of_held (h : ∀ front back, cs = front ++ .flush :: back →
    D.Stores (D.run front s) → D.held front s none ≠ none) : D.Whole cs s := by
  intro front back hcs hstores
  obtain ⟨a, ha⟩ := Option.ne_none_iff_exists'.mp (h front back hcs hstores)
  rw [ha, block_of_held hload hkeep hwrite hflush ha]

end Noted

/-! ## Drivers that note whatever they are asked for -/

section Asked

variable {D} {cs : List (Call α ω)} {s : σ}
  (hfetch : ∀ s a, D.block (D.fetch a s) = a)
  (hwrite : ∀ w s, D.block (D.write w s) = D.block s)
  (hflush : ∀ s, D.block (D.flush s) = D.block s)

include hfetch hwrite hflush

theorem block_of_asked {a : α} {asked : Option α} (hs : ∀ b, asked = some b → D.block s = b)
    (h : lastAsked cs asked = some a) : D.block (D.run cs s) = a := by
  induction cs generalizing s asked with
  | nil => exact hs a h
  | cons c cs ih =>
      cases c with
      | fetch b' => exact ih (fun b hb => (hfetch s b').trans (Option.some.inj hb)) h
      | write w => exact ih (fun b hb => (hwrite w s).trans (hs b hb)) h
      | flush => exact ih (fun b hb => (hflush s).trans (hs b hb)) h

/-- The buffer of such a driver can only be flushed wrong when another
block has been asked for in vain. -/
theorem whole_of_asked (h : ∀ front back, cs = front ++ .flush :: back →
    D.Stores (D.run front s) →
      ∃ a, D.held front s none = some a ∧ lastAsked front none = some a) : D.Whole cs s := by
  intro front back hcs hstores
  obtain ⟨a, hheld, hasked⟩ := h front back hcs hstores
  have hnone (b : α) (hb : (none : Option α) = some b) : D.block s = b :=
    absurd hb (Option.some_ne_none b).symm
  rw [hheld, block_of_asked hfetch hwrite hflush hnone hasked]

end Asked

end Driver

end BlockBuffer
