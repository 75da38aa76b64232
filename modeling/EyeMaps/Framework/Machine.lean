import Mathlib.Data.Option.Basic
import Mathlib.Data.List.Basic
import Mathlib.Logic.Basic
import Mathlib.Data.Int.Order.Basic

/-!
# Partial step machines

A program driven by timers, gestures and completions is given by one partial step function:
`step s e = none` says that event `e` cannot happen in state `s` (or that the program stops on
it).  This file develops runs of such machines over arbitrary state and event types.

## Runs and laws

`Machine.run` folds the step function over a list of events.  `Machine.Along D` says that the
law `D`, a relation between a state, the event taken there and the state reached, holds at every
step of a run; `Machine.Meets C` is the special case of a condition on the state before the
step.  The two rules every safety proof goes through are `invariant_of_meets` (an invariant kept
by each step that meets the condition holds where the run ends) and `along_of_meets` (such an
invariant carries a law to every step of the run).  `along_iff_meets` and `meets_iff_of_count`
go the other way: they show that a condition on the steps is necessary.  So does
`meets_or_spoiled`, for conditions whose violation can never be made good.

## Projections

`Machine.ProjectsTo` says that a step of one machine is a step of another, or none, under a map of
states and a partial map of events.  Runs and conditions on runs then carry over
(`ProjectsTo.run`, `ProjectsTo.meets_iff`).

## Observers

Many properties speak about what has happened so far rather than about the current state.
`Machine.observe` runs a machine next to an observer, a value updated at each step from what the
step did.  A law that does not mention the observer holds of the observed runs and of the runs
alike (`along_observe_iff`), and the two rules hold of observed runs with the step taken on the
machine itself (`invariant_of_observed`, `along_of_observed`).
-/

namespace Framework

/-- A machine over states `σ` and events `ε`, given by its partial step function. -/
structure Machine (σ ε : Type*) where
  step : σ → ε → Option σ

namespace Machine

variable {σ ε γ : Type*} (M : Machine σ ε)

/-! ## Runs -/

/-- The state reached from `s` by the events of `es` in order, if every one of them can happen. -/
def run (s : σ) (es : List ε) : Option σ := es.foldlM M.step s

@[simp] theorem run_nil (s : σ) : M.run s [] = some s := rfl

@[simp] theorem run_cons (s : σ) (e : ε) (es : List ε) :
    M.run s (e :: es) = (M.step s e).bind fun s' => M.run s' es := rfl

theorem run_append (s : σ) (es es' : List ε) :
    M.run s (es ++ es') = (M.run s es).bind fun s₁ => M.run s₁ es' := by
  simp [run, List.foldlM_append]

/-! ## Laws along a run -/

/-- The law `D` holds at every step that the run from `s` along `es` takes. -/
def Along (D : σ → ε → σ → Prop) : σ → List ε → Prop
  | _, [] => True
  | s, e :: es => ∀ s' ∈ M.step s e, D s e s' ∧ Along D s' es

/-- Every step that the run from `s` along `es` takes is taken where the condition `C` holds. -/
abbrev Meets (C : σ → ε → Prop) : σ → List ε → Prop := M.Along fun s e _ => C s e

instance Along.decidable (D : σ → ε → σ → Prop) [∀ s e s', Decidable (D s e s')] :
    ∀ s es, Decidable (M.Along D s es)
  | _, [] => inferInstanceAs (Decidable True)
  | s, e :: es =>
    let _ := fun s' => Along.decidable D s' es
    inferInstanceAs (Decidable (∀ s' ∈ M.step s e, D s e s' ∧ M.Along D s' es))

variable {M}

@[simp] theorem along_nil (D : σ → ε → σ → Prop) (s : σ) : M.Along D s [] := trivial

theorem along_cons {D : σ → ε → σ → Prop} {s : σ} {e : ε} {es : List ε} :
    M.Along D s (e :: es) ↔ ∀ s', M.step s e = some s' → D s e s' ∧ M.Along D s' es :=
  Iff.rfl

theorem along_cons_of_step {D : σ → ε → σ → Prop} {s s' : σ} {e : ε} {es : List ε}
    (h : M.step s e = some s') : M.Along D s (e :: es) ↔ D s e s' ∧ M.Along D s' es := by
  simp [along_cons, h]

/-- Two laws along a run are one. -/
theorem Along.and {D D' : σ → ε → σ → Prop} {s : σ} {es : List ε} (h : M.Along D s es)
    (h' : M.Along D' s es) : M.Along (fun s e s' => D s e s' ∧ D' s e s') s es := by
  induction es generalizing s with
  | nil => trivial
  | cons e es ih =>
    intro s' hs'
    exact ⟨⟨(h s' hs').1, (h' s' hs').1⟩, ih (h s' hs').2 (h' s' hs').2⟩

theorem Along.mono {D D' : σ → ε → σ → Prop} (hle : ∀ s e s', D s e s' → D' s e s') {s : σ}
    {es : List ε} (h : M.Along D s es) : M.Along D' s es := by
  induction es generalizing s with
  | nil => trivial
  | cons e es ih =>
    intro s' hs'
    exact ⟨hle s e s' (h s' hs').1, ih (h s' hs').2⟩

theorem meets_congr {C C' : σ → ε → Prop} (hiff : ∀ s e, C s e ↔ C' s e) {s : σ} {es : List ε} :
    M.Meets C s es ↔ M.Meets C' s es :=
  ⟨fun h => h.mono fun s e _ => (hiff s e).1, fun h => h.mono fun s e _ => (hiff s e).2⟩

/-- A run over events that all satisfy `P` meets `P` as a condition. -/
theorem meets_of_forall_mem {P : ε → Prop} {s : σ} {es : List ε} (h : ∀ e ∈ es, P e) :
    M.Meets (fun _ e => P e) s es := by
  induction es generalizing s with
  | nil => trivial
  | cons e es ih =>
    exact fun s' _ =>
      ⟨h e List.mem_cons_self, ih fun e he => h e (List.mem_cons_of_mem _ he)⟩

/-- A run meets a condition if each of its events does, in the state that the events before it lead
to. -/
theorem meets_of_forall_split {C : σ → ε → Prop} {s : σ} {es : List ε}
    (h : ∀ pre e post t, es = pre ++ e :: post → M.run s pre = some t → C t e) :
    M.Meets C s es := by
  induction es generalizing s with
  | nil => trivial
  | cons e es ih =>
    intro s' hs'
    refine ⟨h [] e es s rfl rfl, ih fun pre e' post t hsplit hrun => ?_⟩
    refine h (e :: pre) e' post t (by rw [hsplit, List.cons_append]) ?_
    rw [run_cons, hs']
    exact hrun

/-- A law that amounts, at each step from a state of the invariant, to a condition on the state
before it. -/
theorem along_iff_meets {P : σ → Prop} {C : σ → ε → Prop} {D : σ → ε → σ → Prop}
    (hstep : ∀ s e s', P s → M.step s e = some s' → (D s e s' ↔ C s e) ∧ (C s e → P s'))
    {s : σ} {es : List ε} (hP : P s) : M.Along D s es ↔ M.Meets C s es := by
  induction es generalizing s with
  | nil => exact Iff.rfl
  | cons e es ih =>
    simp only [along_cons]
    refine forall₂_congr fun s' hs' => ?_
    obtain ⟨hiff, hP'⟩ := hstep s e s' hP hs'
    exact ⟨fun h => ⟨hiff.1 h.1, (ih (hP' (hiff.1 h.1))).1 h.2⟩,
      fun h => ⟨hiff.2 h.1, (ih (hP' h.1)).2 h.2⟩⟩

/-- The rule for laws along a run: an invariant kept by each step that meets the condition, and
from which each such step obeys `D`, makes the whole run obey `D`. -/
theorem along_of_meets {P : σ → Prop} {C : σ → ε → Prop} {D : σ → ε → σ → Prop}
    (hstep : ∀ s e s', P s → C s e → M.step s e = some s' → P s' ∧ D s e s')
    {s : σ} {es : List ε} (hP : P s) (hC : M.Meets C s es) : M.Along D s es := by
  induction es generalizing s with
  | nil => trivial
  | cons e es ih =>
    intro s' hs'
    obtain ⟨hCe, hCes⟩ := hC s' hs'
    obtain ⟨hP', hD⟩ := hstep s e s' hP hCe hs'
    exact ⟨hD, ih hP' hCes⟩

/-- The invariant rule: what holds where the run starts and is kept by each step that meets the
condition holds where the run ends. -/
theorem invariant_of_meets {P : σ → Prop} {C : σ → ε → Prop}
    (hstep : ∀ s e s', P s → C s e → M.step s e = some s' → P s')
    {s s' : σ} {es : List ε} (hP : P s) (hC : M.Meets C s es) (hrun : M.run s es = some s') :
    P s' := by
  induction es generalizing s with
  | nil => cases hrun; exact hP
  | cons e es ih =>
    obtain ⟨s₁, hs₁, hrun⟩ := Option.bind_eq_some_iff.1 hrun
    obtain ⟨hCe, hCes⟩ := hC s₁ hs₁
    exact ih (hstep s e s₁ hP hCe hs₁) hCes hrun

/-- The invariant rule without a condition. -/
theorem invariant_of_step {P : σ → Prop} (hstep : ∀ s e s', P s → M.step s e = some s' → P s')
    {s s' : σ} {es : List ε} (hP : P s) (hrun : M.run s es = some s') : P s' :=
  invariant_of_meets (C := fun _ _ => True) (fun s e s' h _ => hstep s e s' h) hP
    (meets_of_forall_mem (P := fun _ => True) fun _ _ => trivial) hrun

/-- The counting rule: a quantity that every step leaves alone if it meets the condition and
increases otherwise is the same at both ends of a run exactly if the whole run meets it. -/
theorem meets_iff_of_count {P : σ → Prop} {C : σ → ε → Prop} {E : ε → Prop} {μ : σ → ℤ}
    (hstep : ∀ s e s', P s → E e → M.step s e = some s' →
      P s' ∧ (C s e → μ s' = μ s) ∧ (¬ C s e → μ s < μ s'))
    {s s' : σ} {es : List ε} (hP : P s) (hE : ∀ e ∈ es, E e) (hrun : M.run s es = some s') :
    μ s ≤ μ s' ∧ (M.Meets C s es ↔ μ s' = μ s) := by
  induction es generalizing s with
  | nil =>
    cases hrun
    exact ⟨le_rfl, by simp⟩
  | cons e es ih =>
    obtain ⟨s₁, hs₁, hrun⟩ := Option.bind_eq_some_iff.1 hrun
    obtain ⟨hP₁, hmet, hunmet⟩ := hstep s e s₁ hP (hE e List.mem_cons_self) hs₁
    obtain ⟨hle, hiff⟩ := ih hP₁ (fun e he => hE e (List.mem_cons_of_mem _ he)) hrun
    have hcons : M.Meets C s (e :: es) ↔ C s e ∧ μ s' = μ s₁ := by
      rw [Meets, along_cons_of_step hs₁, ← hiff]
    by_cases hC : C s e
    · have heq := hmet hC
      exact ⟨by omega, by simp [hcons, hC, heq]⟩
    · have hlt := hunmet hC
      exact ⟨by omega, by simp only [hcons, hC, false_and, false_iff]; omega⟩

/-- The rule for damage that lasts: a step that meets the condition `C` keeps the invariant `P`, one
that does not leads to `Q`, and `Q` stays.  So a run along which `D` holds ends in `P` exactly if
it meets `C`, and in `Q` otherwise. -/
theorem meets_or_spoiled {P Q : σ → Prop} {C D : σ → ε → Prop}
    (hkept : ∀ s e s', P s → D s e → C s e → M.step s e = some s' → P s')
    (hspoiled : ∀ s e s', P s → D s e → ¬ C s e → M.step s e = some s' → Q s')
    (hstays : ∀ s e s', Q s → D s e → M.step s e = some s' → Q s')
    {s s' : σ} {es : List ε} (hP : P s) (hD : M.Meets D s es) (hrun : M.run s es = some s') :
    (M.Meets C s es ∧ P s') ∨ (¬ M.Meets C s es ∧ Q s') := by
  induction es generalizing s with
  | nil =>
    cases hrun
    exact .inl ⟨trivial, hP⟩
  | cons e es ih =>
    obtain ⟨s₁, hs₁, hrun⟩ := Option.bind_eq_some_iff.1 hrun
    obtain ⟨hDe, hDes⟩ := hD s₁ hs₁
    rw [Meets, along_cons_of_step hs₁]
    by_cases hC : C s e
    · rcases ih (hkept s e s₁ hP hDe hC hs₁) hDes hrun with ⟨hmeets, hP'⟩ | ⟨hnot, hQ'⟩
      · exact .inl ⟨⟨hC, hmeets⟩, hP'⟩
      · exact .inr ⟨fun hmeets => hnot hmeets.2, hQ'⟩
    · have hQ : Q s₁ := hspoiled s e s₁ hP hDe hC hs₁
      exact .inr ⟨fun hmeets => hC hmeets.1, invariant_of_meets hstays hQ hDes hrun⟩

/-! ## Projections -/

section Projection

variable {σ' ε' : Type*} {N : Machine σ' ε'} {f : σ → σ'} {g : ε → Option ε'}

/-- Under `f` and `g`, a step of `M` is one step of `N`, or none where `g` gives no event. -/
def ProjectsTo (M : Machine σ ε) (N : Machine σ' ε') (f : σ → σ') (g : ε → Option ε') : Prop :=
  ∀ s e s', M.step s e = some s' → N.run (f s) (g e).toList = some (f s')

/-- A run of `M` is one of `N`. -/
theorem ProjectsTo.run (h : M.ProjectsTo N f g) {s s' : σ} {es : List ε}
    (hrun : M.run s es = some s') : N.run (f s) (es.filterMap g) = some (f s') := by
  induction es generalizing s with
  | nil =>
    cases hrun
    rfl
  | cons e es ih =>
    obtain ⟨s₁, hs₁, hrun⟩ := Option.bind_eq_some_iff.1 hrun
    have hsplit : (e :: es).filterMap g = (g e).toList ++ es.filterMap g := by
      cases hg : g e <;> simp [hg]
    rw [hsplit, run_append, h s e s₁ hs₁]
    exact ih hrun

/-- A condition on the projected run, in terms of the run itself. -/
theorem ProjectsTo.meets_iff (h : M.ProjectsTo N f g) {C : σ' → ε' → Prop} {s s' : σ}
    {es : List ε} (hrun : M.run s es = some s') :
    N.Meets C (f s) (es.filterMap g) ↔ M.Meets (fun s e => ∀ e' ∈ g e, C (f s) e') s es := by
  induction es generalizing s with
  | nil => exact Iff.rfl
  | cons e es ih =>
    obtain ⟨s₁, hs₁, hrun⟩ := Option.bind_eq_some_iff.1 hrun
    have hproject := h s e s₁ hs₁
    rw [Meets, Meets, along_cons_of_step hs₁]
    cases hg : g e with
    | none =>
      rw [hg] at hproject
      have hsame : f s = f s₁ := Option.some.inj hproject
      rw [List.filterMap_cons_none hg, hsame]
      simpa using ih hrun
    | some e' =>
      have hstep : N.step (f s) e' = some (f s₁) := by simpa [hg] using hproject
      rw [List.filterMap_cons_some hg, along_cons_of_step hstep]
      simpa using and_congr_right fun _ => ih hrun

end Projection

/-! ## Observers -/

variable (M) in
/-- The machine run next to an observer: `obs c s e s'` is what the observer holds after the
step from `s` to `s'` by `e`, when it held `c` before. -/
def observe (obs : γ → σ → ε → σ → γ) : Machine (γ × σ) ε where
  step p e := (M.step p.2 e).map fun s' => (obs p.1 p.2 e s', s')

theorem observe_step_eq_some {obs : γ → σ → ε → σ → γ} {p p' : γ × σ} {e : ε} :
    (M.observe obs).step p e = some p' ↔
      M.step p.2 e = some p'.2 ∧ p'.1 = obs p.1 p.2 e p'.2 := by
  obtain ⟨c', s'⟩ := p'
  simp only [observe, Option.map_eq_some_iff, Prod.mk.injEq]
  constructor
  · rintro ⟨s₁, hs₁, rfl, rfl⟩
    exact ⟨hs₁, rfl⟩
  · rintro ⟨hs', rfl⟩
    exact ⟨s', hs', rfl, rfl⟩

/-- Every run can be observed. -/
theorem exists_run_observe (obs : γ → σ → ε → σ → γ) (c : γ) {s s' : σ} {es : List ε}
    (hrun : M.run s es = some s') : ∃ c', (M.observe obs).run (c, s) es = some (c', s') := by
  induction es generalizing c s with
  | nil =>
    cases hrun
    exact ⟨c, rfl⟩
  | cons e es ih =>
    obtain ⟨s₁, hs₁, hrun⟩ := Option.bind_eq_some_iff.1 hrun
    obtain ⟨c', hobserved⟩ := ih (obs c s e s₁) hrun
    have hnext : (M.observe obs).step (c, s) e = some (obs c s e s₁, s₁) :=
      observe_step_eq_some.2 ⟨hs₁, rfl⟩
    refine ⟨c', ?_⟩
    rw [run_cons, hnext]
    exact hobserved

/-- A law that does not mention the observer holds of the observed runs and of the runs alike. -/
theorem along_observe_iff {obs : γ → σ → ε → σ → γ} {D : σ → ε → σ → Prop} {c : γ} {s : σ}
    {es : List ε} :
    (M.observe obs).Along (fun p e p' => D p.2 e p'.2) (c, s) es ↔ M.Along D s es := by
  induction es generalizing c s with
  | nil => exact Iff.rfl
  | cons e es ih =>
    simp only [along_cons, Prod.forall, observe_step_eq_some]
    constructor
    · intro h s' hs'
      obtain ⟨hD, hes⟩ := h _ s' ⟨hs', rfl⟩
      exact ⟨hD, ih.1 hes⟩
    · rintro h c' s' ⟨hs', rfl⟩
      obtain ⟨hD, hes⟩ := h s' hs'
      exact ⟨hD, ih.2 hes⟩

/-- The invariant rule for observed runs, with the step taken on the machine itself. -/
theorem invariant_of_observed {obs : γ → σ → ε → σ → γ} {P : γ → σ → Prop}
    {C : γ → σ → ε → Prop}
    (hstep : ∀ c s e s', P c s → C c s e → M.step s e = some s' → P (obs c s e s') s')
    {c c' : γ} {s s' : σ} {es : List ε} (hP : P c s)
    (hC : (M.observe obs).Meets (fun p e => C p.1 p.2 e) (c, s) es)
    (hrun : (M.observe obs).run (c, s) es = some (c', s')) : P c' s' := by
  refine invariant_of_meets (P := fun p : γ × σ => P p.1 p.2) ?_ hP hC hrun
  intro p e p' hP hC hobserved
  obtain ⟨hnext, hc⟩ := observe_step_eq_some.1 hobserved
  rw [hc]
  exact hstep p.1 p.2 e p'.2 hP hC hnext

/-- The invariant rule for observed runs without a condition. -/
theorem invariant_of_observed_step {obs : γ → σ → ε → σ → γ} {P : γ → σ → Prop}
    (hstep : ∀ c s e s', P c s → M.step s e = some s' → P (obs c s e s') s')
    {c c' : γ} {s s' : σ} {es : List ε} (hP : P c s)
    (hrun : (M.observe obs).run (c, s) es = some (c', s')) : P c' s' := by
  refine invariant_of_step (P := fun p : γ × σ => P p.1 p.2) ?_ hP hrun
  intro p e p' hP hobserved
  obtain ⟨hnext, hc⟩ := observe_step_eq_some.1 hobserved
  rw [hc]
  exact hstep p.1 p.2 e p'.2 hP hnext

/-- The rule for laws along observed runs. -/
theorem along_of_observed {obs : γ → σ → ε → σ → γ} {P : γ → σ → Prop}
    {C : γ → σ → ε → Prop} {D : γ → σ → ε → σ → Prop}
    (hstep : ∀ c s e s', P c s → C c s e → M.step s e = some s' →
      P (obs c s e s') s' ∧ D c s e s')
    {c : γ} {s : σ} {es : List ε} (hP : P c s)
    (hC : (M.observe obs).Meets (fun p e => C p.1 p.2 e) (c, s) es) :
    (M.observe obs).Along (fun p e p' => D p.1 p.2 e p'.2) (c, s) es := by
  refine along_of_meets (P := fun p : γ × σ => P p.1 p.2) ?_ hP hC
  intro p e p' hP hC hobserved
  obtain ⟨hnext, hc⟩ := observe_step_eq_some.1 hobserved
  rw [hc]
  exact hstep p.1 p.2 e p'.2 hP hC hnext

end Machine

end Framework
