import Mathlib.Logic.Basic

/-!
# Computations with a state and errors

Rules for programs over `StateT σ (Except ε)`.  `Ends m s post fail` says that `m`, run in the state
`s`, either returns a value and a state for which `post` holds, or fails with an error for which
`fail` holds.  `Yields m s post fail` is the case of a computation that works on the state and puts
it back, such as a parser that keeps the path to the place it reads.

A proof follows the program: `Ends.bind` or `Yields.bind` for a sequence, `Yields.bracket` for a
part between an action that enters a state and one that leaves it, `mono` to weaken the two
conditions.
-/

namespace Framework

variable {σ ε α β : Type}

/-! ## Any computation -/

/-- `m` returns a value and a state with `post`, or fails with `fail`. -/
def Ends (m : StateT σ (Except ε) α) (s : σ) (post : α → σ → Prop) (fail : ε → Prop) : Prop :=
  (∃ a s', m s = .ok (a, s') ∧ post a s') ∨ ∃ e, m s = .error e ∧ fail e

namespace Ends

variable {m : StateT σ (Except ε) α} {k : α → StateT σ (Except ε) β} {s s' : σ}
  {post post' : α → σ → Prop} {fail fail' : ε → Prop}

theorem of_ok {a : α} (hm : m s = .ok (a, s')) (h : post a s') : Ends m s post fail :=
  .inl ⟨a, s', hm, h⟩

theorem of_error {e : ε} (hm : m s = .error e) (h : fail e) : Ends m s post fail :=
  .inr ⟨e, hm, h⟩

theorem pure {a : α} (h : post a s) :
    Ends (Pure.pure a : StateT σ (Except ε) α) s post fail := of_ok rfl h

theorem throw {e : ε} (h : fail e) :
    Ends (fun _ => .error e : StateT σ (Except ε) α) s post fail := of_error rfl h

theorem mono (h : Ends m s post fail) (hpost : ∀ a s', post a s' → post' a s')
    (hfail : ∀ e, fail e → fail' e) : Ends m s post' fail' := by
  rcases h with ⟨a, s', ha, hp⟩ | ⟨e, he, hf⟩
  · exact of_ok ha (hpost a s' hp)
  · exact of_error he (hfail e hf)

/-- The rule for a sequence. -/
theorem bind {post' : β → σ → Prop} (h : Ends m s post fail)
    (hk : ∀ a s', post a s' → Ends (k a) s' post' fail) : Ends (m >>= k) s post' fail := by
  rcases h with ⟨a, s', ha, hp⟩ | ⟨e, he, hf⟩
  · have hbind : (m >>= k) s = k a s' := by
      show Except.bind (m s) _ = _
      rw [ha]
      rfl
    rcases hk a s' hp with ⟨b, t, hb, hq⟩ | ⟨e, he, hf⟩
    · exact of_ok (hbind.trans hb) hq
    · exact of_error (hbind.trans he) hf
  · refine of_error ?_ hf
    show Except.bind (m s) _ = _
    rw [he]
    rfl

/-- The rule for a sequence whose first part is known to succeed. -/
theorem bind_ok {post : β → σ → Prop} {a : α} (ha : m s = .ok (a, s'))
    (hk : Ends (k a) s' post fail) : Ends (m >>= k) s post fail := by
  have hm : Ends m s (fun b t => b = a ∧ t = s') fail := of_ok ha ⟨rfl, rfl⟩
  refine bind hm ?_
  rintro b t ⟨rfl, rfl⟩
  exact hk

end Ends

/-! ## Computations that restore their state -/

/-- `m` returns a value for which `post` holds and restores the state, or fails with `fail`. -/
def Yields (m : StateT σ (Except ε) α) (s : σ) (post : α → Prop) (fail : ε → Prop) : Prop :=
  Ends m s (fun a s' => post a ∧ s' = s) fail

namespace Yields

variable {m : StateT σ (Except ε) α} {k : α → StateT σ (Except ε) β} {s s' : σ}
  {post post' : α → Prop} {fail fail' : ε → Prop}

theorem pure {a : α} (h : post a) :
    Yields (Pure.pure a : StateT σ (Except ε) α) s post fail := Ends.pure ⟨h, rfl⟩

theorem throw {e : ε} (h : fail e) :
    Yields (fun _ => .error e : StateT σ (Except ε) α) s post fail := Ends.throw h

theorem mono (h : Yields m s post fail) (hpost : ∀ a, post a → post' a)
    (hfail : ∀ e, fail e → fail' e) : Yields m s post' fail' :=
  Ends.mono h (fun a _ ha => ⟨hpost a ha.1, ha.2⟩) hfail

/-- The rule for a sequence. -/
theorem bind {post' : β → Prop} (h : Yields m s post fail)
    (hk : ∀ a, post a → Yields (k a) s post' fail) : Yields (m >>= k) s post' fail := by
  refine Ends.bind h ?_
  rintro a t ⟨ha, rfl⟩
  exact hk a ha

/-- The rule for a sequence whose first part is known to succeed. -/
theorem bind_ok {post : β → Prop} {a : α} (ha : m s = .ok (a, s))
    (hk : Yields (k a) s post fail) : Yields (m >>= k) s post fail := Ends.bind_ok ha hk

/-- The rule for a part that is run in another state, entered before and left after it. -/
theorem bracket {enter leave : StateT σ (Except ε) Unit} (henter : enter s = .ok ((), s'))
    (hleave : leave s' = .ok ((), s)) (h : Yields m s' post fail) :
    Yields (do enter; let a ← m; leave; Pure.pure a) s post fail := by
  refine Ends.bind_ok henter (Ends.bind h ?_)
  rintro a t ⟨ha, rfl⟩
  exact Ends.bind_ok hleave (Ends.pure ⟨ha, rfl⟩)

end Yields

end Framework
