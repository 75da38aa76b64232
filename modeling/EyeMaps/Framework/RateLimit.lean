import Mathlib.Algebra.Order.Floor.Semiring
import Mathlib.Algebra.Order.Field.Basic
import Mathlib.Tactic.Linarith
import Mathlib.Tactic.Ring

/-!
# Events at least a fixed time apart

`Spaced d times` says that the times of a log, in order, are at least `d` apart.  It is kept by
appending a time that is at least `d` later than all before (`Spaced.append`), and it bounds how
many entries any window of time holds (`Spaced.length_window_le`).
-/

namespace Framework

variable {τ : Type*} [Field τ] [LinearOrder τ] {d : τ} {times : List τ}

/-- Each time is at least `d` later than every earlier one. -/
def Spaced (d : τ) (times : List τ) : Prop := times.Pairwise fun a b => a + d ≤ b

theorem Spaced.nil : Spaced d [] := List.Pairwise.nil

theorem Spaced.append {t : τ} (h : Spaced d times) (ht : ∀ a ∈ times, a + d ≤ t) :
    Spaced d (times ++ [t]) := by
  refine List.pairwise_append.2 ⟨h, List.pairwise_singleton _ _, fun a ha b hb => ?_⟩
  rw [List.mem_singleton.1 hb]
  exact ht a ha

/-- The times of a log in the window of length `T` that begins at `a`. -/
def window (a T : τ) (times : List τ) : List τ := times.filter fun t => a ≤ t ∧ t ≤ a + T

theorem spaced_window (h : Spaced d times) (a T : τ) : Spaced d (window a T times) :=
  List.Pairwise.filter _ h

variable [IsStrictOrderedRing τ]

/-- The last of `n + 1` times comes at least `n * d` after the first. -/
theorem Spaced.head_add_le {x b : τ} {xs : List τ} (h : Spaced d (x :: xs))
    (hb : ∀ t ∈ x :: xs, t ≤ b) : x + xs.length * d ≤ b := by
  induction xs generalizing x with
  | nil => simpa using hb x List.mem_cons_self
  | cons y ys ih =>
    obtain ⟨hhead, htail⟩ := List.pairwise_cons.1 h
    have hxy : x + d ≤ y := hhead y List.mem_cons_self
    have hys : y + ys.length * d ≤ b := ih htail fun t ht => hb t (List.mem_cons_of_mem x ht)
    have hlen : ((y :: ys).length : τ) = ys.length + 1 := by simp
    calc x + (y :: ys).length * d = (x + d) + ys.length * d := by rw [hlen]; ring
      _ ≤ y + ys.length * d := by linarith
      _ ≤ b := hys

/-- Times at least `d` apart: a window of length `T` holds at most `⌊T / d⌋ + 1` of them. -/
theorem Spaced.length_window_le [FloorSemiring τ] (h : Spaced d times) (hd : 0 < d) (a T : τ) :
    (window a T times).length ≤ ⌊T / d⌋₊ + 1 := by
  have hspaced := spaced_window h a T
  have hwithin : ∀ t ∈ window a T times, a ≤ t ∧ t ≤ a + T := by
    intro t ht
    simpa using (List.mem_filter.1 ht).2
  cases hlog : window a T times with
  | nil => simp
  | cons x xs =>
    rw [hlog] at hspaced hwithin
    have hfirst : a ≤ x := (hwithin x List.mem_cons_self).1
    have hlast : x + xs.length * d ≤ a + T := hspaced.head_add_le fun t ht => (hwithin t ht).2
    have hlen : (xs.length : τ) ≤ T / d := by
      rw [le_div_iff₀ hd]
      linarith
    simpa using Nat.le_floor hlen

end Framework
