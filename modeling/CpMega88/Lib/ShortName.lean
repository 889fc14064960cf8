import Mathlib.Data.List.TakeWhile

/-!
# Short names

A name of at most `n` letters with an extension of at most `m`. It is
stored in `n + m` characters, both parts padded (`padded`), and written
with a dot in front of an extension that is not empty (`text`). Padding
and dot are no letters, so that both forms determine the name; `ofText`
recovers it from the written one, and `render` writes out the stored one
character by character (`render_padded`).
-/

variable {α : Type} {letter : α → Prop} {pad dot : α} {n m : Nat}

@[ext] structure ShortName (letter : α → Prop) (n m : Nat) where
  base : List α
  extension : List α
  base_ne : base ≠ []
  base_le : base.length ≤ n
  extension_le : extension.length ≤ m
  base_letters : ∀ c ∈ base, letter c
  extension_letters : ∀ c ∈ extension, letter c

namespace ShortName

/-- The name as it is stored. -/
def padded (s : ShortName letter n m) (pad : α) : List α :=
  s.base.rightpad n pad ++ s.extension.rightpad m pad

/-- The name as it is written. -/
def text (s : ShortName letter n m) (dot : α) : List α :=
  s.base ++ if s.extension = [] then [] else dot :: s.extension

theorem text_length_le (s : ShortName letter n m) : (s.text dot).length ≤ n + 1 + m := by
  have hbase := s.base_le
  have hext := s.extension_le
  rw [text, List.length_append]
  split <;> simp <;> omega

/-! ## What is written determines the name -/

variable [DecidableEq α]

section Dot

variable (hdot : ¬letter dot)

include hdot

theorem base_before (s : ShortName letter n m) : ∀ c ∈ s.base, decide (c ≠ dot) = true := by
  intro c hc
  have hletter := s.base_letters c hc
  simp only [decide_eq_true_eq]
  rintro rfl
  exact hdot hletter

theorem takeWhile_text (s : ShortName letter n m) :
    (s.text dot).takeWhile (fun c => c ≠ dot) = s.base := by
  rw [text, List.takeWhile_append_of_pos (s.base_before hdot)]
  split <;> simp

theorem dropWhile_text (s : ShortName letter n m) :
    (s.text dot).dropWhile (fun c => c ≠ dot)
      = if s.extension = [] then [] else dot :: s.extension := by
  rw [text, List.dropWhile_append_of_pos (s.base_before hdot)]
  split <;> simp

theorem extension_of_text (s : ShortName letter n m) :
    ((s.text dot).dropWhile (fun c => c ≠ dot)).tail = s.extension := by
  rw [s.dropWhile_text hdot]
  split
  · rename_i h
    rw [h]
    rfl
  · rfl

theorem text_injective : Function.Injective fun s : ShortName letter n m => s.text dot := by
  intro s s' h
  dsimp only at h
  apply ShortName.ext
  · rw [← s.takeWhile_text hdot, h, s'.takeWhile_text hdot]
  · rw [← s.extension_of_text hdot, h, s'.extension_of_text hdot]

end Dot

/-- The name that is written so, if there is one. -/
def ofText [DecidablePred letter] (n m : Nat) (dot : α) (t : List α) :
    Option (ShortName letter n m) :=
  let base := t.takeWhile (fun c => c ≠ dot)
  let rest := t.dropWhile (fun c => c ≠ dot)
  if h : (base ≠ [] ∧ base.length ≤ n ∧ rest.tail.length ≤ m)
      ∧ (∀ c ∈ base, letter c) ∧ (∀ c ∈ rest.tail, letter c) ∧ rest ≠ [dot] then
    some ⟨base, rest.tail, h.1.1, h.1.2.1, h.1.2.2, h.2.1, h.2.2.1⟩
  else none

/-- What comes behind the letters of the base begins with the dot. -/
theorem dotted_rest {t : List α} (h : t.dropWhile (fun c => c ≠ dot) ≠ [dot]) :
    (if (t.dropWhile (fun c => c ≠ dot)).tail = [] then []
      else dot :: (t.dropWhile (fun c => c ≠ dot)).tail) = t.dropWhile (fun c => c ≠ dot) := by
  rcases hd : t.dropWhile (fun c => decide (c ≠ dot)) with _ | ⟨c, rest⟩
  · simp
  · have hc : c = dot := by
      have hne : t.dropWhile (fun c => decide (c ≠ dot)) ≠ [] := hd ▸ List.cons_ne_nil c rest
      have hhead : (t.dropWhile fun c => decide (c ≠ dot)).head hne = c := by
        simp only [hd, List.head_cons]
      have hfirst := List.head_dropWhile_not (fun c => decide (c ≠ dot)) hne
      rw [hhead] at hfirst
      simpa using hfirst
    have hne : rest ≠ [] := by
      rintro rfl
      exact h (hd.trans (by rw [hc]))
    simp [hc, hne]

theorem ofText_eq_some [DecidablePred letter] (hdot : ¬letter dot) {t : List α}
    {s : ShortName letter n m} : ofText n m dot t = some s ↔ s.text dot = t := by
  constructor
  · intro h
    rw [ofText] at h
    split at h
    case isTrue hparts =>
      obtain rfl := Option.some.inj h
      obtain ⟨-, -, -, hrest⟩ := hparts
      refine Eq.trans ?_ (List.takeWhile_append_dropWhile (p := fun c => decide (c ≠ dot)))
      exact congrArg (_ ++ ·) (dotted_rest hrest)
    case isFalse => cases h
  · rintro rfl
    have hbase := s.takeWhile_text hdot
    have hrest := s.dropWhile_text hdot
    have hext := s.extension_of_text hdot
    have hne : (s.text dot).dropWhile (fun c => decide (c ≠ dot)) ≠ [dot] := by
      rw [hrest]
      split <;> simp_all
    rw [ofText, dif_pos]
    · exact congrArg some (ShortName.ext hbase hext)
    · refine ⟨⟨?_, ?_, ?_⟩, ?_, ?_, hne⟩
      · rw [hbase]
        exact s.base_ne
      · rw [hbase]
        exact s.base_le
      · rw [hext]
        exact s.extension_le
      · rw [hbase]
        exact s.base_letters
      · rw [hext]
        exact s.extension_letters

/-! ## Writing out what is stored -/

/-- The stored characters from index `i` on, without the padding and with
a dot in front of the extension. -/
def render (pad dot : α) (n : Nat) : Nat → List α → List α
  | _, [] => []
  | i, c :: cs =>
    if c = pad then render pad dot n (i + 1) cs
    else if i = n then dot :: c :: render pad dot n (i + 1) cs
    else c :: render pad dot n (i + 1) cs

theorem render_pads (i k : Nat) (cs : List α) :
    render pad dot n i (List.replicate k pad ++ cs) = render pad dot n (i + k) cs := by
  induction k generalizing i with
  | zero => rfl
  | succ k ih =>
      rw [List.replicate_succ, List.cons_append, render, if_pos rfl, ih]
      congr 1
      omega

/-- Letters stand for themselves where no extension begins. -/
theorem render_letters {i : Nat} {ls : List α} (cs : List α) (hpad : ∀ c ∈ ls, c ≠ pad)
    (hi : n < i ∨ i + ls.length ≤ n) :
    render pad dot n i (ls ++ cs) = ls ++ render pad dot n (i + ls.length) cs := by
  induction ls generalizing i with
  | nil => rfl
  | cons c ls ih =>
      rw [List.length_cons] at hi
      rw [List.cons_append, render, if_neg (hpad c List.mem_cons_self), if_neg (by omega),
        ih (fun c' hc' => hpad c' (List.mem_cons_of_mem _ hc')) (by omega), List.length_cons,
        List.cons_append]
      congr 3
      omega

theorem render_padded (hpad : ¬letter pad) (s : ShortName letter n m) :
    render pad dot n 0 (s.padded pad) = s.text dot := by
  have hno {ls : List α} (h : ∀ c ∈ ls, letter c) : ∀ c ∈ ls, c ≠ pad := by
    rintro c hc rfl
    exact hpad (h c hc)
  have hbase := s.base_le
  have hend (i k : Nat) : render pad dot n i (List.replicate k pad) = [] := by
    rw [← List.append_nil (List.replicate k pad), render_pads]
    rfl
  rw [padded, List.rightpad, List.rightpad, List.append_assoc,
    render_letters _ (hno s.base_letters) (by omega), render_pads, text]
  congr 1
  have hn : 0 + s.base.length + (n - s.base.length) = n := by omega
  rw [hn]
  rcases he : s.extension with _ | ⟨c, cs⟩
  · rw [if_pos rfl, List.nil_append, hend]
  · have hletters : ∀ c' ∈ c :: cs, c' ≠ pad := hno (he ▸ s.extension_letters)
    rw [if_neg (List.cons_ne_nil c cs), List.cons_append, render,
      if_neg (hletters c List.mem_cons_self), if_pos rfl,
      render_letters _ (fun c' hc' => hletters c' (List.mem_cons_of_mem _ hc'))
        (.inl (Nat.lt_succ_self n)), hend, List.append_nil]

end ShortName
