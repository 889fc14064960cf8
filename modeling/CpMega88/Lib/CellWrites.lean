import Mathlib.Data.List.Induction
import Mathlib.Data.List.TakeDrop
import Mathlib.Logic.Function.Basic

/-!
# Sequences of cell writes

A store is a function from cells to values, changed by writes of one cell
each. A sequence that is cut leaves what its first writes have done
(`cut_states`). To replace a record that takes several writes, one cell is kept as a marker:
it is cleared first and set last (`guarded`), and wherever such a sequence
is cut, either nothing has happened, or the marker is clear, or the whole
record is there (`guarded_cut`).

Where several addresses share a cell, what has been written at each of
them (`marks`) tells them apart only if it differs (`marks_kept_iff`).
-/

namespace CellWrites

variable {α β : Type} [DecidableEq α]

def apply (ws : List (α × β)) (s : α → β) : α → β :=
  ws.foldl (fun s w => Function.update s w.1 w.2) s

@[simp] theorem apply_nil (s : α → β) : apply [] s = s := rfl

theorem apply_cons (w : α × β) (ws : List (α × β)) (s : α → β) :
    apply (w :: ws) s = apply ws (Function.update s w.1 w.2) := rfl

theorem apply_append (ws vs : List (α × β)) (s : α → β) :
    apply (ws ++ vs) s = apply vs (apply ws s) := List.foldl_append

/-- The states after each of the writes. -/
def states : List (α × β) → (α → β) → List (α → β)
  | [], _ => []
  | w :: ws, s => Function.update s w.1 w.2 :: states ws (Function.update s w.1 w.2)

theorem states_append (ws vs : List (α × β)) (s : α → β) :
    states (ws ++ vs) s = states ws s ++ states vs (apply ws s) := by
  induction ws generalizing s with
  | nil => rfl
  | cons w ws ih => rw [List.cons_append, states, ih, states, List.cons_append, apply_cons]

theorem states_length (ws : List (α × β)) (s : α → β) : (states ws s).length = ws.length := by
  induction ws generalizing s with
  | nil => rfl
  | cons w ws ih => rw [states, List.length_cons, List.length_cons, ih]

/-- After the first `k` writes, or all of them, the last state so far is
what these writes have done. -/
theorem cut_states (ws : List (α × β)) (k : Nat) (s : α → β) :
    ((states ws s).take k).getLastD s = apply (ws.take k) s := by
  induction ws generalizing k s with
  | nil => rw [states, List.take_nil, List.take_nil, apply_nil, List.getLastD_nil]
  | cons w ws ih =>
      cases k with
      | zero => rfl
      | succ k => rw [states, List.take_succ_cons, List.getLastD_cons, ih, List.take_succ_cons,
          apply_cons]

/-- A cell that is not written keeps its value. -/
theorem apply_other {ws : List (α × β)} {a : α} (h : ∀ w ∈ ws, w.1 ≠ a) (s : α → β) :
    apply ws s a = s a := by
  induction ws generalizing s with
  | nil => rfl
  | cons w ws ih =>
      rw [apply_cons, ih (fun x hx => h x (List.mem_cons_of_mem _ hx)),
        Function.update_of_ne (h w List.mem_cons_self).symm]

/-- A cell to which only `v` is written holds `v` or what it held. -/
theorem apply_only {ws : List (α × β)} {a : α} {v : β} (h : ∀ w ∈ ws, w.1 = a → w.2 = v)
    (s : α → β) : apply ws s a = s a ∨ apply ws s a = v := by
  induction ws generalizing s with
  | nil => exact .inl rfl
  | cons w ws ih =>
      rw [apply_cons]
      rcases ih (fun x hx => h x (List.mem_cons_of_mem _ hx)) (Function.update s w.1 w.2) with
        hrest | hrest
      · by_cases hw : w.1 = a
        · right
          rw [hrest, ← hw, Function.update_self, h w List.mem_cons_self hw]
        · left
          rw [hrest, Function.update_of_ne (Ne.symm hw)]
      · exact .inr hrest

/-- It holds `v` once it has been written. -/
theorem apply_written {ws : List (α × β)} {a : α} {v : β} (h : ∀ w ∈ ws, w.1 = a → w.2 = v)
    (hmem : ∃ w ∈ ws, w.1 = a) (s : α → β) : apply ws s a = v := by
  obtain ⟨w, hw, ha⟩ := hmem
  obtain ⟨front, back, rfl⟩ := List.append_of_mem hw
  have hback : ∀ x ∈ back, x.1 = a → x.2 = v := fun x hx =>
    h x (List.mem_append_right _ (List.mem_cons_of_mem _ hx))
  rw [apply_append, apply_cons]
  rcases apply_only hback (Function.update (apply front s) w.1 w.2) with hkept | hset
  · rw [hkept, ← ha, Function.update_self, h w hw ha]
  · exact hset

/-! ## Records behind a marker -/

variable {m a : α} {off on : β} {body : List (α × β)}

/-- The marker is cleared, the record written, the marker set. -/
def guarded (m : α) (off on : β) (body : List (α × β)) : List (α × β) :=
  ((m, off) :: body) ++ [(m, on)]

theorem guarded_cut (hbody : ∀ w ∈ body, w.1 ≠ m) (k : Nat) (s : α → β) :
    apply ((guarded m off on body).take k) s = s
      ∨ apply ((guarded m off on body).take k) s m = off
      ∨ (guarded m off on body).length ≤ k := by
  rcases Nat.lt_or_ge k (guarded m off on body).length with hk | hk
  · cases k with
    | zero => exact .inl rfl
    | succ k =>
        right
        left
        have hlen : k + 1 ≤ ((m, off) :: body).length := by
          rw [guarded, List.length_append, List.length_singleton] at hk
          omega
        rw [guarded, List.take_append_of_le_length hlen, List.take_succ_cons, apply_cons,
          apply_other (fun w hw => hbody w (List.mem_of_mem_take hw)), Function.update_self]
  · exact .inr (.inr hk)

theorem guarded_marker (s : α → β) : apply (guarded m off on body) s m = on := by
  rw [guarded, apply_append]
  exact Function.update_self ..

/-! ## Cells that share addresses -/

section Marks

variable {ι : Type} {cell : ι → α} {pat : ι → β} {l : List ι}

/-- At each address, the pattern that belongs there. -/
def marks (cell : ι → α) (pat : ι → β) (l : List ι) : List (α × β) :=
  l.map fun i => (cell i, pat i)

/-- A cell holds the pattern of one of its addresses, of the last one. -/
theorem apply_marks {i : ι} (h : i ∈ l) (s : α → β) :
    ∃ j ∈ l, cell j = cell i ∧ apply (marks cell pat l) s (cell i) = pat j := by
  induction l using List.reverseRecOn with
  | nil => exact absurd h List.not_mem_nil
  | append_singleton l j ih =>
      rw [marks, List.map_append, apply_append]
      by_cases hj : cell j = cell i
      · refine ⟨j, List.mem_append_right _ List.mem_cons_self, hj, ?_⟩
        rw [← hj]
        exact Function.update_self ..
      · have hi : i ∈ l := by
          rcases List.mem_append.mp h with hi | hi
          · exact hi
          · rw [List.mem_singleton.mp hi] at hj
            exact absurd rfl hj
        obtain ⟨k, hk, hcell, hpat⟩ := ih hi
        refine ⟨k, List.mem_append_left _ hk, hcell, ?_⟩
        rw [← hpat]
        exact Function.update_of_ne (Ne.symm hj) _ _

/-- The patterns are all there if and only if those that share a cell are
the same. -/
theorem marks_kept_iff (s : α → β) : (∀ i ∈ l, apply (marks cell pat l) s (cell i) = pat i)
    ↔ ∀ i ∈ l, ∀ j ∈ l, cell i = cell j → pat i = pat j := by
  constructor
  · intro h i hi j hj hij
    rw [← h i hi, ← h j hj, hij]
  · intro h i hi
    obtain ⟨j, hj, hcell, hpat⟩ := @apply_marks _ _ _ _ cell pat l i hi s
    rw [hpat, h j hj i hi hcell]

end Marks

end CellWrites
