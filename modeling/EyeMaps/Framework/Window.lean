import Mathlib.Analysis.Convex.Combination
import Mathlib.Data.List.DropRight
import Mathlib.Tactic.Linarith

/-!
# Sliding windows

A filter that looks at the last `n` samples keeps a window: it appends a sample and cuts the list
back to its last `n` entries (`List.rtake`).  Cutting at every step is the same as cutting once at
the end (`rtake_rtake_append`), so a window is a function of the whole history.

Three facts about what such a filter computes are recorded.  A vote over a window changes slowly:
no value is counted more often than it was before plus the times it has been cast since
(`count_rtake_append_le`), so a value that must reach `q` of `n` votes against `p` votes for others
has to be cast at least `p + q - n` times (`le_count_of_overturned`).  The mean of a window stays
in every convex set that the samples lie in (`mean_mem`).  Computed with a rounding after each
operation it is off by two roundings at most, however long the window is
(`abs_roundedMean_sub_mean_le`).
-/

namespace Framework

variable {α : Type*} {n : ℕ}

@[simp] theorem length_rtake (l : List α) : (l.rtake n).length = min n l.length := by
  simp only [List.rtake, List.length_drop]
  omega

theorem rtake_eq_self {l : List α} (h : l.length ≤ n) : l.rtake n = l := by
  simp [List.rtake, Nat.sub_eq_zero_of_le h]

theorem rtake_suffix (l : List α) : l.rtake n <:+ l := List.drop_suffix _ _

/-- Cutting before the append changes nothing. -/
theorem rtake_rtake_append (l r : List α) : (l.rtake n ++ r).rtake n = (l ++ r).rtake n := by
  simp only [List.rtake_eq_reverse_take_reverse, List.reverse_append, List.reverse_reverse,
    List.take_append, List.length_reverse, List.take_take]
  congr 3
  omega

/-! ## Votes -/

section Votes

variable [DecidableEq α]

/-- Nothing is counted more often than before the append plus the times it was appended. -/
theorem count_rtake_append_le (l r : List α) (a : α) :
    ((l ++ r).rtake n).count a ≤ (l.rtake n).count a + r.count a := by
  rw [← rtake_rtake_append, ← List.count_append]
  exact (rtake_suffix (l.rtake n ++ r)).sublist.count_le a

/-- If `a` has `p` votes in a window of `n`, and `b` has `q` after `r` has been cast, then `b` is
among `r` at least `p + q - n` times. -/
theorem le_count_of_overturned {l r : List α} {a b : α} {p q : ℕ} (hne : a ≠ b)
    (hlength : l.length ≤ n) (hp : p ≤ l.count a) (hq : q ≤ ((l ++ r).rtake n).count b) :
    p + q ≤ n + r.count b := by
  have hother : l.count b ≤ l.countP fun x => ¬ (x == a) = true :=
    List.countP_mono_left fun x _ hx => by
      have hxb : x = b := by simpa using hx
      simpa [hxb] using hne.symm
  have hsplit : l.length = l.count a + l.countP fun x => ¬ (x == a) = true :=
    List.length_eq_countP_add_countP (· == a)
  have hgrow := count_rtake_append_le (n := n) l r b
  rw [rtake_eq_self hlength] at hgrow
  omega

end Votes

/-! ## Means -/

section Mean

variable (K : Type*) {E : Type*} [Field K] [AddCommGroup E] [Module K E]

/-- The mean of a list of samples; it is `0` for the empty list. -/
def mean (l : List E) : E := (l.length : K)⁻¹ • l.sum

variable {K}

theorem mean_eq_sum (l : List E) : mean K l = ∑ i : Fin l.length, (l.length : K)⁻¹ • l[i] := by
  rw [mean, ← Finset.smul_sum, ← Fin.sum_univ_getElem]
  rfl

theorem mean_mem [LinearOrder K] [IsStrictOrderedRing K] {s : Set E} (hs : Convex K s)
    {l : List E} (hne : l ≠ []) (h : ∀ x ∈ l, x ∈ s) : mean K l ∈ s := by
  rw [mean_eq_sum]
  have hpos : (0 : K) < l.length := by
    exact_mod_cast List.length_pos_iff.2 hne
  refine hs.sum_mem (fun i _ => ?_) ?_ (fun i _ => h _ (List.getElem_mem i.2))
  · exact (inv_pos.2 hpos).le
  · rw [Finset.sum_const, Finset.card_univ, Fintype.card_fin, nsmul_eq_mul]
    exact mul_inv_cancel₀ hpos.ne'

theorem mean_apply {ι : Type*} (l : List (ι → K)) (i : ι) :
    mean K l i = mean K (l.map (· i)) := by
  have hsum : l.sum i = (l.map (· i)).sum := map_list_sum (Pi.evalAddMonoidHom (fun _ => K) i) l
  rw [mean, mean, Pi.smul_apply, hsum, List.length_map]

end Mean

/-! ## Rounded means -/

section Rounding

variable {K : Type*} [Field K]

/-- The sum of a list from the left, rounded after each addition. -/
def roundedSum (float : K → K) (l : List K) : K := l.foldl (fun sum x => float (sum + x)) 0

/-- The mean of a list, rounded after each operation. -/
def roundedMean (float : K → K) (l : List K) : K := float (roundedSum float l / l.length)

theorem roundedSum_concat (float : K → K) (l : List K) (x : K) :
    roundedSum float (l ++ [x]) = float (roundedSum float l + x) := by
  rw [roundedSum, List.foldl_concat, roundedSum]

variable [LinearOrder K]

/-- No number of magnitude up to `R` is moved by more than `ε`. -/
def RoundsWithin (float : K → K) (ε R : K) : Prop := ∀ x, |x| ≤ R → |float x - x| ≤ ε

variable [IsStrictOrderedRing K] {float : K → K} {ε R M : K} {l : List K}

theorem abs_sum_le_length_mul (hM : ∀ x ∈ l, |x| ≤ M) : |l.sum| ≤ l.length * M := by
  induction l with
  | nil => simp
  | cons x l ih =>
    have hx : |x| ≤ M := hM x List.mem_cons_self
    have hl := ih fun y hy => hM y (List.mem_cons_of_mem x hy)
    calc |(x :: l).sum| ≤ |x| + |l.sum| := by
          rw [List.sum_cons]
          exact abs_add_le x l.sum
      _ ≤ M + l.length * M := add_le_add hx hl
      _ = (x :: l).length * M := by
          rw [List.length_cons]
          push_cast
          ring

/-- Each addition contributes one rounding to the error of the sum. -/
theorem abs_roundedSum_sub_sum_le (hfloat : RoundsWithin float ε R) (hε : 0 ≤ ε)
    (hM : ∀ x ∈ l, |x| ≤ M) (hR : l.length * (M + ε) ≤ R) :
    |roundedSum float l - l.sum| ≤ l.length * ε := by
  induction l using List.reverseRecOn with
  | nil => simp [roundedSum]
  | append_singleton l x ih =>
    have hx : |x| ≤ M := hM x (by simp)
    have hl : ∀ y ∈ l, |y| ≤ M := fun y hy => hM y (List.mem_append_left [x] hy)
    have hM₀ : 0 ≤ M := (abs_nonneg x).trans hx
    have hlength : ((l ++ [x]).length : K) = l.length + 1 := by simp
    rw [hlength] at hR ⊢
    have hprefix : |roundedSum float l - l.sum| ≤ l.length * ε :=
      ih hl (by linarith [add_nonneg hM₀ hε])
    have hsum := abs_sum_le_length_mul hl
    have hround : |float (roundedSum float l + x) - (roundedSum float l + x)| ≤ ε := by
      refine hfloat _ ?_
      calc |roundedSum float l + x|
          = |(roundedSum float l - l.sum) + l.sum + x| := by ring_nf
        _ ≤ |roundedSum float l - l.sum| + |l.sum| + |x| := abs_add_three _ _ _
        _ ≤ l.length * ε + l.length * M + M := add_le_add (add_le_add hprefix hsum) hx
        _ ≤ (l.length + 1) * (M + ε) := by linarith
        _ ≤ R := hR
    calc |roundedSum float (l ++ [x]) - (l ++ [x]).sum|
        = |(float (roundedSum float l + x) - (roundedSum float l + x)) +
            (roundedSum float l - l.sum)| := by
          rw [roundedSum_concat, List.sum_append, List.sum_singleton]
          ring_nf
      _ ≤ ε + l.length * ε := (abs_add_le _ _).trans (add_le_add hround hprefix)
      _ = (l.length + 1) * ε := by ring

/-- The errors of the additions are averaged with the samples, so that the rounded mean is off by
two roundings at most. -/
theorem abs_roundedMean_sub_mean_le (hfloat : RoundsWithin float ε R) (hε : 0 ≤ ε)
    (hne : l ≠ []) (hM : ∀ x ∈ l, |x| ≤ M) (hR : l.length * (M + ε) ≤ R) :
    |roundedMean float l - mean K l| ≤ 2 * ε := by
  have hlength : (1 : K) ≤ l.length := by exact_mod_cast List.length_pos_iff.2 hne
  have hpos : (0 : K) < l.length := zero_lt_one.trans_le hlength
  have hsum := abs_roundedSum_sub_sum_le hfloat hε hM hR
  have hquotient : |roundedSum float l / l.length - mean K l| ≤ ε := by
    have heq : roundedSum float l / l.length - mean K l =
        (roundedSum float l - l.sum) / l.length := by
      rw [mean, smul_eq_mul]
      ring
    rw [heq, abs_div, abs_of_pos hpos, div_le_iff₀ hpos, mul_comm]
    exact hsum
  have hmagnitude : |roundedSum float l / l.length| ≤ R := by
    have hle : |roundedSum float l| ≤ R := by
      calc |roundedSum float l| = |(roundedSum float l - l.sum) + l.sum| := by ring_nf
        _ ≤ l.length * ε + l.length * M :=
          (abs_add_le _ _).trans (add_le_add hsum (abs_sum_le_length_mul hM))
        _ = l.length * (M + ε) := by ring
        _ ≤ R := hR
    rw [abs_div, abs_of_pos hpos]
    exact (div_le_self (abs_nonneg _) hlength).trans hle
  calc |roundedMean float l - mean K l|
      = |(float (roundedSum float l / l.length) - roundedSum float l / l.length) +
          (roundedSum float l / l.length - mean K l)| := by
        rw [roundedMean]
        ring_nf
    _ ≤ ε + ε := (abs_add_le _ _).trans (add_le_add (hfloat _ hmagnitude) hquotient)
    _ = 2 * ε := (two_mul ε).symm

end Rounding

end Framework
