import Mathlib.Data.Matrix.Mul
import Mathlib.LinearAlgebra.Matrix.NonsingularInverse
import Mathlib.Algebra.Group.Action.Basic
import Mathlib.Algebra.Group.MinimalAxioms

/-!
# Rigid motions over a commutative ring

A rigid motion of `ι → K` is an orthogonal linear part followed by a translation.  The rigid
motions form a group that acts on points (`smul_def`), inverses are computed by transposition, and
the action keeps the squared distance of two points (`normSq_smul_sub_smul`).

Two fixed-point facts are recorded because they decide when two frames agree on a point:
`smul_translation_eq_translation_iff` (a motion maps its own origin to itself only when it does
not translate) and `smul_eq_mul_inv_smul_iff` (replaying a point through `g` or through `g * h⁻¹`
gives the same place exactly when `h` fixes the point).
-/

namespace Framework

open Matrix

/-- A rigid motion: an orthogonal matrix and a translation. -/
@[ext]
structure RigidMotion (ι K : Type*) [Fintype ι] [DecidableEq ι] [CommRing K] where
  linear : Matrix ι ι K
  translation : ι → K
  orthogonal : linearᵀ * linear = 1

namespace RigidMotion

variable {ι K : Type*} [Fintype ι] [DecidableEq ι] [CommRing K]

theorem orthogonal' (g : RigidMotion ι K) : g.linear * g.linearᵀ = 1 :=
  mul_eq_one_comm.1 g.orthogonal

/-! ## The group -/

instance : One (RigidMotion ι K) := ⟨⟨1, 0, by simp⟩⟩

instance : Mul (RigidMotion ι K) where
  mul g h :=
    { linear := g.linear * h.linear
      translation := g.linear *ᵥ h.translation + g.translation
      orthogonal := by
        rw [transpose_mul, Matrix.mul_assoc, ← Matrix.mul_assoc g.linearᵀ, g.orthogonal,
          Matrix.one_mul, h.orthogonal] }

instance : Inv (RigidMotion ι K) where
  inv g :=
    { linear := g.linearᵀ
      translation := -(g.linearᵀ *ᵥ g.translation)
      orthogonal := by rw [transpose_transpose, g.orthogonal'] }

@[simp] theorem one_linear : (1 : RigidMotion ι K).linear = 1 := rfl

@[simp] theorem one_translation : (1 : RigidMotion ι K).translation = 0 := rfl

@[simp] theorem mul_linear (g h : RigidMotion ι K) : (g * h).linear = g.linear * h.linear := rfl

@[simp] theorem mul_translation (g h : RigidMotion ι K) :
    (g * h).translation = g.linear *ᵥ h.translation + g.translation := rfl

@[simp] theorem inv_linear (g : RigidMotion ι K) : g⁻¹.linear = g.linearᵀ := rfl

@[simp] theorem inv_translation (g : RigidMotion ι K) :
    g⁻¹.translation = -(g.linearᵀ *ᵥ g.translation) := rfl

instance : Group (RigidMotion ι K) :=
  Group.ofLeftAxioms
    (fun g h k => by
      ext1
      · simp [Matrix.mul_assoc]
      · simp [mulVec_add, mulVec_mulVec, add_assoc])
    (fun g => by ext1 <;> simp)
    (fun g => by ext1 <;> simp [g.orthogonal])

/-! ## The action on points -/

instance : MulAction (RigidMotion ι K) (ι → K) where
  smul g p := g.linear *ᵥ p + g.translation
  one_smul p := by
    change (1 : Matrix ι ι K) *ᵥ p + 0 = p
    simp
  mul_smul g h p := by
    change (g.linear * h.linear) *ᵥ p + (g.linear *ᵥ h.translation + g.translation) =
      g.linear *ᵥ (h.linear *ᵥ p + h.translation) + g.translation
    rw [mulVec_add, mulVec_mulVec, add_assoc]

theorem smul_def (g : RigidMotion ι K) (p : ι → K) : g • p = g.linear *ᵥ p + g.translation := rfl

/-- The motion that only translates by `v`. -/
def translate (v : ι → K) : RigidMotion ι K := ⟨1, v, by simp⟩

@[simp] theorem translate_linear (v : ι → K) : (translate v).linear = 1 := rfl

@[simp] theorem translate_translation (v : ι → K) : (translate v).translation = v := rfl

@[simp] theorem mul_translate_translation (g : RigidMotion ι K) (v : ι → K) :
    (g * translate v).translation = g • v := rfl

/-! ## Distances -/

/-- The squared length of a vector. -/
def normSq (v : ι → K) : K := v ⬝ᵥ v

theorem normSq_mulVec (g : RigidMotion ι K) (v : ι → K) : normSq (g.linear *ᵥ v) = normSq v := by
  rw [normSq, dotProduct_mulVec, ← mulVec_transpose, mulVec_mulVec, g.orthogonal, one_mulVec,
    normSq]

/-- A rigid motion keeps distances. -/
theorem normSq_smul_sub_smul (g : RigidMotion ι K) (p q : ι → K) :
    normSq (g • p - g • q) = normSq (p - q) := by
  have hsub : g • p - g • q = g.linear *ᵥ (p - q) := by
    rw [smul_def, smul_def, mulVec_sub]
    abel
  rw [hsub, normSq_mulVec]

/-- The length of `p` seen from the frame `g` is its distance to the origin of `g`. -/
theorem normSq_inv_smul (g : RigidMotion ι K) (p : ι → K) :
    normSq (g⁻¹ • p) = normSq (p - g.translation) := by
  have horigin : g⁻¹ • g.translation = 0 := by simp [smul_def]
  have h := normSq_smul_sub_smul g⁻¹ p g.translation
  rwa [horigin, sub_zero] at h

/-! ## Fixed points -/

theorem linear_mulVec_eq_zero_iff (g : RigidMotion ι K) (v : ι → K) :
    g.linear *ᵥ v = 0 ↔ v = 0 := by
  constructor
  · intro h
    have h' := congrArg (g.linearᵀ *ᵥ ·) h
    simpa [mulVec_mulVec, g.orthogonal] using h'
  · rintro rfl
    exact mulVec_zero _

/-- A motion moves the origin of its own frame unless it does not translate at all. -/
theorem smul_translation_eq_translation_iff (g : RigidMotion ι K) :
    g • g.translation = g.translation ↔ g.translation = 0 := by
  rw [smul_def, add_eq_right, linear_mulVec_eq_zero_iff]

/-- Taking a point through `g` directly, or first out of the frame `h`, gives the same place
exactly when `h` fixes the point. -/
theorem smul_eq_mul_inv_smul_iff (g h : RigidMotion ι K) (p : ι → K) :
    g • p = (g * h⁻¹) • p ↔ h • p = p := by
  rw [mul_smul, smul_left_cancel_iff, eq_inv_smul_iff]

end RigidMotion

end Framework
