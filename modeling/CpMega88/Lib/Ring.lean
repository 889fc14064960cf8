import CpMega88.Lib.Bytes

/-!
# Ring buffers and bounded queues

A ring of `N` slots has a read and a write index. What is between them is
waiting (`contents`); one slot always stays free, so that equal indexes
mean an empty ring. Storing into the slot at the write index does not
show (`contents_store`) until the index moves on (`contents_push`).

A bounded queue is what a ring stands for: it drops what comes when it is
full, and gives everything else back in order (`BQueue.run`).
-/

namespace Ring

variable {α : Type*} {N : Nat}

/-- The index after this one. -/
def next (N i : Nat) : Nat := if i + 1 < N then i + 1 else 0

/-- The slot `i` places after the read index. -/
def slot (N rd i : Nat) : Nat := if rd + i < N then rd + i else rd + i - N

/-- How far the write index is ahead. -/
def count (N rd wr : Nat) : Nat := if rd ≤ wr then wr - rd else wr + N - rd

/-- The elements from the read index up to the write index. -/
def contents (N : Nat) (buf : Nat → α) (rd wr : Nat) : List α :=
  (List.range (count N rd wr)).map fun i => buf (slot N rd i)

/-! ## Indexes -/

theorem next_cases {i : Nat} (h : i < N) :
    next N i = i + 1 ∧ i + 1 < N ∨ next N i = 0 ∧ i + 1 = N := by
  unfold next
  split <;> omega

theorem next_lt {i : Nat} (h : i < N) : next N i < N := by
  unfold next
  split <;> omega

theorem count_lt {rd wr : Nat} (hwr : wr < N) : count N rd wr < N := by
  unfold count
  split <;> omega

theorem count_self (N rd : Nat) : count N rd rd = 0 := by
  simp [count]

theorem count_eq_zero {rd wr : Nat} (hrd : rd < N) :
    count N rd wr = 0 ↔ rd = wr := by
  unfold count
  split <;> omega

/-- The write index is about to catch up with the read index. -/
theorem full_iff {rd wr : Nat} (hrd : rd < N) (hwr : wr < N) :
    next N wr = rd ↔ count N rd wr + 1 = N := by
  unfold next count
  split <;> split <;> omega

theorem count_push {rd wr : Nat} (hrd : rd < N) (hwr : wr < N) (hfree : next N wr ≠ rd) :
    count N rd (next N wr) = count N rd wr + 1 := by
  rcases next_cases hwr with ⟨hnext, hlt⟩ | ⟨hnext, hend⟩
  · rw [hnext] at hfree ⊢
    unfold count
    split <;> split <;> omega
  · rw [hnext] at hfree ⊢
    unfold count
    split <;> split <;> omega

theorem count_pop {rd wr : Nat} (hrd : rd < N) (hwr : wr < N) (hne : rd ≠ wr) :
    count N rd wr = count N (next N rd) wr + 1 := by
  rcases next_cases hrd with ⟨hnext, hlt⟩ | ⟨hnext, hend⟩
  · rw [hnext]
    unfold count
    split <;> split <;> omega
  · rw [hnext]
    unfold count
    split <;> split <;> omega

theorem slot_count {rd wr : Nat} (hrd : rd < N) (hwr : wr < N) :
    slot N rd (count N rd wr) = wr := by
  unfold slot count
  split <;> split <;> omega

theorem slot_ne {rd wr i : Nat} (hrd : rd < N) (hi : i < count N rd wr) :
    slot N rd i ≠ wr := by
  unfold count at hi
  unfold slot
  split at hi <;> split <;> omega

theorem slot_zero {rd : Nat} (hrd : rd < N) : slot N rd 0 = rd := if_pos hrd

theorem slot_succ {rd i : Nat} (hrd : rd < N) (hi : i < N) :
    slot N rd (i + 1) = slot N (next N rd) i := by
  unfold slot next
  split <;> split <;> split <;> omega

/-! ## Contents -/

theorem contents_length (N : Nat) (buf : Nat → α) (rd wr : Nat) :
    (contents N buf rd wr).length = count N rd wr := by
  simp [contents]

theorem contents_self (N : Nat) (buf : Nat → α) (rd : Nat) : contents N buf rd rd = [] := by
  simp [contents, count_self]

theorem contents_store {rd wr : Nat} (hrd : rd < N) (buf : Nat → α) (x : α) :
    contents N (Function.update buf wr x) rd wr = contents N buf rd wr := by
  refine List.map_congr_left fun i hi => ?_
  exact Function.update_of_ne (slot_ne hrd (List.mem_range.mp hi)) _ _

theorem contents_push {rd wr : Nat} (hrd : rd < N) (hwr : wr < N) (hfree : next N wr ≠ rd)
    {buf : Nat → α} {x : α} (hx : buf wr = x) :
    contents N buf rd (next N wr) = contents N buf rd wr ++ [x] := by
  unfold contents
  rw [count_push hrd hwr hfree, List.range_succ, List.map_append, List.map_singleton,
    slot_count hrd hwr, hx]

theorem contents_pop {rd wr : Nat} (hrd : rd < N) (hwr : wr < N) (hne : rd ≠ wr)
    (buf : Nat → α) : contents N buf rd wr = buf rd :: contents N buf (next N rd) wr := by
  have hlt : count N (next N rd) wr < N := count_lt hwr
  unfold contents
  rw [count_pop hrd hwr hne, List.range_succ_eq_map, List.map_cons, slot_zero hrd, List.map_map]
  refine congrArg _ (List.map_congr_left fun i hi => ?_)
  rw [Function.comp_apply, slot_succ hrd (Nat.lt_trans (List.mem_range.mp hi) hlt)]

/-! ## Indexes of eight bits -/

section Masked

open Bytes

variable {m : Byte} {k : Nat} (hm : m.toNat = 2 ^ k - 1)

include hm

theorem toNat_and_mask (x : Byte) : (x &&& m).toNat = x.toNat % 2 ^ k := by
  rw [BitVec.toNat_and, hm, Nat.and_two_pow_sub_one_eq_mod]

variable (hk : k ≤ 8)

include hk

/-- `(i + 1) & mask`. -/
theorem toNat_next {i : Byte} (hi : i.toNat < 2 ^ k) :
    ((i + 1) &&& m).toNat = next (2 ^ k) i.toNat := by
  have hone : (1 : Byte).toNat = 1 := rfl
  have hdvd : 2 ^ k ∣ 2 ^ 8 := Nat.pow_dvd_pow 2 hk
  rw [toNat_and_mask hm, BitVec.toNat_add, hone, Nat.mod_mod_of_dvd _ hdvd]
  rcases next_cases hi with ⟨hnext, hlt⟩ | ⟨hnext, hend⟩
  · rw [hnext, Nat.mod_eq_of_lt hlt]
  · rw [hnext, hend, Nat.mod_self]

/-- `(wr - rd) & mask`. -/
theorem toNat_count {rd wr : Byte} (hrd : rd.toNat < 2 ^ k) (hwr : wr.toNat < 2 ^ k) :
    ((wr - rd) &&& m).toNat = count (2 ^ k) rd.toNat wr.toNat := by
  have hdvd : 2 ^ k ∣ 2 ^ 8 := Nat.pow_dvd_pow 2 hk
  obtain ⟨c, hc⟩ := hdvd
  rw [toNat_and_mask hm, BitVec.toNat_sub, Nat.mod_mod_of_dvd _ (Nat.pow_dvd_pow 2 hk)]
  unfold count
  split
  · have hsum : 2 ^ 8 - rd.toNat + wr.toNat = wr.toNat - rd.toNat + 2 ^ k * c := by omega
    rw [hsum, Nat.add_mul_mod_self_left, Nat.mod_eq_of_lt (by omega)]
  · obtain ⟨c, rfl⟩ : ∃ d, c = d + 1 := by
      refine Nat.exists_eq_succ_of_ne_zero fun h0 => ?_
      rw [h0, Nat.mul_zero] at hc
      exact absurd hc (by decide)
    have hsum : 2 ^ 8 - rd.toNat + wr.toNat = wr.toNat + 2 ^ k - rd.toNat + 2 ^ k * c := by
      rw [Nat.mul_succ] at hc
      omega
    rw [hsum, Nat.add_mul_mod_self_left, Nat.mod_eq_of_lt (by omega)]

end Masked

end Ring

/-! ## Bounded queues -/

namespace BQueue

variable {α : Type*}

inductive Op (α : Type*) where
  | push (x : α)
  | pop

/-- What the queue lets in of an element that comes. -/
def admitted (cap : Nat) (q : List α) (x : α) : List α := if q.length < cap then [x] else []

/-- The answer to one operation, if it is a `pop`, and the queue after it. -/
def step (cap : Nat) (q : List α) : Op α → List (Option α) × List α
  | .push x => ([], q ++ admitted cap q x)
  | .pop => ([q.head?], q.tail)

/-- The answers to a sequence of operations, and the queue after it. -/
def run (cap : Nat) : List (Op α) → List α → List (Option α) × List α
  | [], q => ([], q)
  | op :: ops, q =>
    ((step cap q op).1 ++ (run cap ops (step cap q op).2).1, (run cap ops (step cap q op).2).2)

end BQueue
