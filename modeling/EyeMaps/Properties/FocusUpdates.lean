import EyeMaps.Model.FocusEntity

/-!
# Who updates the focus entity

`setAutoUpdate`, `moveTo` and `destroy` make and cancel the subscription that runs
`updateFocusEntity` on every frame.  `Subscribed` is the invariant between them: the one live
subscription, if the entity updates itself, is the one `updateCancellable` would cancel, and it is
to the scene of the view the entity is in.  Two consequences hold in every run: a frame of a scene
runs the handler exactly once or not at all (`sceneUpdate_of_run`), and an entity that has been
destroyed stays as it is until it is moved to a view (`frozen_after_destroy`).
-/

namespace EyeMaps

open Framework

namespace FocusEntity

variable {K Q : Type} [Field K]

/-- The live subscriptions are those that `isAutoUpdating` speaks of. -/
def Subscribed (e : FocusEntity K Q) : Prop :=
  e.scene = e.arView ∧
    ((e.isAutoUpdating = true ∧ ∃ token view, e.arView = some view ∧
        e.updateCancellable = some token ∧ e.subscriptions = [⟨token, view⟩]) ∨
      (e.isAutoUpdating = false ∧ e.subscriptions = []))

theorem Subscribed.of_lifecycle {e e' : FocusEntity K Q} (h : e.Subscribed)
    (heq : e'.lifecycle = e.lifecycle) : e'.Subscribed := by
  have harView : e'.arView = e.arView := congrArg Lifecycle.arView heq
  have hscene : e'.scene = e.scene := congrArg Lifecycle.scene heq
  have hauto : e'.isAutoUpdating = e.isAutoUpdating := congrArg Lifecycle.isAutoUpdating heq
  have hcancel : e'.updateCancellable = e.updateCancellable :=
    congrArg Lifecycle.updateCancellable heq
  have hsubs : e'.subscriptions = e.subscriptions := congrArg Lifecycle.subscriptions heq
  rw [Subscribed, harView, hscene, hauto, hcancel, hsubs]
  exact h

/-- Switching off cancels the live subscription. -/
theorem Subscribed.setAutoUpdate_false {e : FocusEntity K Q} (h : e.Subscribed) :
    (e.setAutoUpdate false).subscriptions = [] ∧
      (e.setAutoUpdate false).isAutoUpdating = false := by
  rcases h.2 with ⟨hauto, token, view, hview, hcancel, hsubs⟩ | ⟨hauto, hsubs⟩
  · simp [setAutoUpdate, hauto, hview, hcancel, hsubs]
  · simp [setAutoUpdate, hauto, hsubs]

@[simp] theorem arView_setAutoUpdate (autoUpdate : Bool) (e : FocusEntity K Q) :
    (e.setAutoUpdate autoUpdate).arView = e.arView := by
  unfold setAutoUpdate
  split
  · rfl
  · split
    · rfl
    · split <;> rfl

@[simp] theorem scene_setAutoUpdate (autoUpdate : Bool) (e : FocusEntity K Q) :
    (e.setAutoUpdate autoUpdate).scene = e.scene := by
  unfold setAutoUpdate
  split
  · rfl
  · split
    · rfl
    · split <;> rfl

theorem Subscribed.setAutoUpdate {e : FocusEntity K Q} (h : e.Subscribed) (autoUpdate : Bool) :
    (e.setAutoUpdate autoUpdate).Subscribed := by
  cases autoUpdate with
  | false =>
    obtain ⟨hsubs, hauto⟩ := h.setAutoUpdate_false
    refine ⟨?_, .inr ⟨hauto, hsubs⟩⟩
    simpa using h.1
  | true =>
    refine ⟨by simpa using h.1, ?_⟩
    rcases h.2 with ⟨hauto, hlive⟩ | ⟨hauto, hsubs⟩
    · have hsame : e.setAutoUpdate true = e := by simp [FocusEntity.setAutoUpdate, hauto]
      rw [hsame]
      exact .inl ⟨hauto, hlive⟩
    · cases hview : e.arView with
      | none =>
        have hsame : e.setAutoUpdate true = e := by
          simp [FocusEntity.setAutoUpdate, hauto, hview]
        rw [hsame]
        exact .inr ⟨hauto, hsubs⟩
      | some view =>
        refine .inl ⟨?_, e.nextToken, view, ?_, ?_, ?_⟩ <;>
          simp [FocusEntity.setAutoUpdate, hauto, hview, hsubs]

theorem Subscribed.moveTo {e : FocusEntity K Q} (h : e.Subscribed) (view : ℕ) :
    (e.moveTo view).Subscribed := by
  obtain ⟨hsubs, hauto⟩ := h.setAutoUpdate_false
  have hmoved : ({ e.setAutoUpdate false with
      arView := some view, scene := some view } : FocusEntity K Q).Subscribed :=
    ⟨rfl, .inr ⟨hauto, hsubs⟩⟩
  simp only [FocusEntity.moveTo]
  split
  · exact hmoved.setAutoUpdate true
  · exact hmoved

theorem Subscribed.destroy {e : FocusEntity K Q} (h : e.Subscribed) : e.destroy.Subscribed := by
  obtain ⟨hsubs, hauto⟩ := h.setAutoUpdate_false
  exact ⟨rfl, .inr ⟨hauto, hsubs⟩⟩

section Run

variable [LinearOrder K] {simd : Simd K Q}

omit [LinearOrder K] in
theorem subscribed_create (view : ℕ) (style : Style) : (create simd view style).Subscribed := by
  have hlifecycle : (create simd view style).lifecycle =
      ⟨style, some view, some view, true, 1, [⟨0, view⟩], some 0, true, none⟩ := by
    cases style <;> rfl
  have harView := congrArg Lifecycle.arView hlifecycle
  have hcancel := congrArg Lifecycle.updateCancellable hlifecycle
  have hsubs := congrArg Lifecycle.subscriptions hlifecycle
  exact ⟨(congrArg Lifecycle.scene hlifecycle).trans harView.symm,
    .inl ⟨congrArg Lifecycle.isAutoUpdating hlifecycle, 0, view, harView, hcancel, hsubs⟩⟩

/-- The handlers of a scene leave the lifecycle alone, however many run. -/
theorem lifecycle_sceneUpdate (scene : ℕ) (frame : Frame K Q) (e : FocusEntity K Q) :
    (e.sceneUpdate simd scene frame).lifecycle = e.lifecycle := by
  unfold sceneUpdate
  induction e.subscriptions.filter (fun s => s.scene = scene) generalizing e with
  | nil => rfl
  | cons s subs ih =>
    rw [List.foldl_cons, ih]
    exact lifecycle_updateFocusEntity simd frame e

theorem Subscribed.step {e e' : FocusEntity K Q} {event : Event K Q} (h : e.Subscribed)
    (hstep : (machine simd).step e event = some e') : e'.Subscribed := by
  cases event with
  | sceneUpdate scene frame =>
    cases hstep
    exact h.of_lifecycle (lifecycle_sceneUpdate scene frame e)
  | update frame =>
    cases hstep
    exact h.of_lifecycle (lifecycle_updateFocusEntity simd frame e)
  | setAutoUpdate autoUpdate =>
    cases hstep
    exact h.setAutoUpdate autoUpdate
  | moveTo view =>
    cases hstep
    exact h.moveTo view
  | destroy =>
    cases hstep
    exact h.destroy
  | setDelegate delegate =>
    cases hstep
    exact h

/-- With its subscription in order, an entity is updated by a frame of its own scene, once, and
by no other. -/
theorem Subscribed.sceneUpdate_eq {e : FocusEntity K Q} (h : e.Subscribed) (scene : ℕ)
    (frame : Frame K Q) :
    e.sceneUpdate simd scene frame =
      if e.isAutoUpdating ∧ e.arView = some scene then e.updateFocusEntity simd frame else e := by
  rcases h.2 with ⟨hauto, token, view, hview, -, hsubs⟩ | ⟨hauto, hsubs⟩
  · by_cases hscene : view = scene
    · simp [sceneUpdate, hsubs, hauto, hview, hscene]
    · simp [sceneUpdate, hsubs, hauto, hview, hscene]
  · simp [sceneUpdate, hsubs, hauto]

/-- The frame that an event updates the entity with. -/
def heard (e : FocusEntity K Q) : Event K Q → Option (Frame K Q)
  | .sceneUpdate scene frame =>
    if e.isAutoUpdating ∧ e.arView = some scene then some frame else none
  | .update frame => some frame
  | _ => none

/-- A step is one update, or it writes nothing but the lifecycle and what the delegate has heard,
which is forgotten with the delegate. -/
theorem Subscribed.step_cases {e e' : FocusEntity K Q} {event : Event K Q} (h : e.Subscribed)
    (hstep : (machine simd).step e event = some e') :
    (∃ frame, e.heard event = some frame ∧ e' = e.updateFocusEntity simd frame) ∨
      (e.heard event = none ∧ ∃ l calls, (calls = e.calls ∧ l.delegate = e.delegate ∨ calls = []) ∧
        e' = { e.withLifecycle l with calls := calls }) := by
  cases event with
  | sceneUpdate scene frame =>
    cases hstep
    rw [h.sceneUpdate_eq]
    split
    next hheard => exact .inl ⟨frame, if_pos hheard, rfl⟩
    next hheard => exact .inr ⟨if_neg hheard, e.lifecycle, e.calls, .inl ⟨rfl, rfl⟩, rfl⟩
  | update frame =>
    cases hstep
    exact .inl ⟨frame, rfl, rfl⟩
  | setAutoUpdate autoUpdate =>
    cases hstep
    exact .inr ⟨rfl, (e.setAutoUpdate autoUpdate).lifecycle, e.calls,
      .inl ⟨rfl, e.delegate_setAutoUpdate autoUpdate⟩, e.setAutoUpdate_eq autoUpdate⟩
  | moveTo view =>
    cases hstep
    exact .inr ⟨rfl, (e.moveTo view).lifecycle, e.calls, .inl ⟨rfl, e.delegate_moveTo view⟩,
      e.moveTo_eq view⟩
  | destroy =>
    cases hstep
    exact .inr ⟨rfl, e.destroy.lifecycle, [], .inr rfl, e.destroy_eq⟩
  | setDelegate delegate =>
    cases hstep
    exact .inr ⟨rfl, (e.setDelegate delegate).lifecycle, [], .inr rfl, rfl⟩

/-- In every run, whatever the owner did with `setAutoUpdate`, `moveTo` and `destroy`: a frame of a
scene runs the handler exactly once if the entity updates itself and is in the view of that scene,
and not at all otherwise, and it is anchored nowhere else. -/
theorem sceneUpdate_of_run {view : ℕ} {style : Style} {es : List (Event K Q)}
    {e : FocusEntity K Q} (hrun : (machine simd).run (create simd view style) es = some e) :
    e.scene = e.arView ∧ e.subscriptions.length = (if e.isAutoUpdating then 1 else 0) ∧
      ∀ scene frame, e.sceneUpdate simd scene frame =
        if e.isAutoUpdating ∧ e.arView = some scene then e.updateFocusEntity simd frame
        else e := by
  have h : e.Subscribed :=
    Machine.invariant_of_step (fun _ _ _ h hstep => h.step hstep)
      (subscribed_create view style) hrun
  refine ⟨h.1, ?_, h.sceneUpdate_eq⟩
  rcases h.2 with ⟨hauto, token, view, -, -, hsubs⟩ | ⟨hauto, hsubs⟩
  · simp [hauto, hsubs]
  · simp [hauto, hsubs]

/-- Moved from the scene 0 to the scene 1, an entity hears a frame of the scene 1 only. -/
theorem sceneUpdate_of_run_moved :
    let e := (create rotationMatrices 0 .classicPreset).moveTo 1
    e.sceneUpdate rotationMatrices 0 lostFrame = e ∧
      e.sceneUpdate rotationMatrices 1 lostFrame =
        e.updateFocusEntity rotationMatrices lostFrame := by
  intro e
  have hrun : (machine rotationMatrices).run (create rotationMatrices 0 .classicPreset)
      [.moveTo 1] = some e := rfl
  obtain ⟨-, -, hupdate⟩ := sceneUpdate_of_run hrun
  exact ⟨hupdate 0 lostFrame, hupdate 1 lostFrame⟩

/-! ## After `destroy` -/

/-- An event that neither moves the entity to a view nor updates it by hand. -/
def Event.IsPassive : Event K Q → Prop
  | .update _ => False
  | .moveTo _ => False
  | _ => True

/-- The entity is `d` up to its delegate. -/
def IsShell (d e : FocusEntity K Q) : Prop :=
  e.setDelegate none = d ∧ e.arView = none ∧ e.scene = none ∧ e.isPositioned = false ∧
    e.isAutoUpdating = false ∧ e.subscriptions = []

omit [LinearOrder K] in
theorem IsShell.setAutoUpdate_eq {d e : FocusEntity K Q} (h : d.IsShell e) (autoUpdate : Bool) :
    e.setAutoUpdate autoUpdate = e := by
  obtain ⟨-, hview, -, -, hauto, -⟩ := h
  cases autoUpdate <;> simp [setAutoUpdate, hauto, hview]

theorem IsShell.step {d e e' : FocusEntity K Q} {event : Event K Q} (h : d.IsShell e)
    (hpassive : event.IsPassive) (hstep : (machine simd).step e event = some e') :
    d.IsShell e' := by
  have hown := h
  obtain ⟨hd, hview, hscene, hbare, hauto, hsubs⟩ := hown
  cases event with
  | sceneUpdate scene frame =>
    have heq : e.sceneUpdate simd scene frame = e := by simp [sceneUpdate, hsubs]
    cases hstep
    rw [heq]
    exact h
  | update frame => exact hpassive.elim
  | setAutoUpdate autoUpdate =>
    cases hstep
    rw [h.setAutoUpdate_eq]
    exact h
  | moveTo view => exact hpassive.elim
  | destroy =>
    have heq : e.destroy =
        { e with
          delegate := none, calls := [], arView := none, isPositioned := false,
          scene := none } := by
      rw [destroy, h.setAutoUpdate_eq]
    cases hstep
    rw [heq]
    refine ⟨?_, rfl, rfl, rfl, hauto, hsubs⟩
    rw [← hd, setDelegate, setDelegate, hview, hscene, hbare]
  | setDelegate delegate =>
    cases hstep
    exact ⟨hd, hview, hscene, hbare, hauto, hsubs⟩

/-- A destroyed entity that is not moved to a view again stays as `destroy` left it, up to the
delegate someone sets: frames of any scene and calls of `setAutoUpdate` do nothing. -/
theorem frozen_after_destroy {view : ℕ} {style : Style} {es es' : List (Event K Q)}
    {e e' : FocusEntity K Q} (hrun : (machine simd).run (create simd view style) es = some e)
    (hpassive : ∀ event ∈ es', event.IsPassive)
    (hrun' : (machine simd).run e (.destroy :: es') = some e') :
    e'.setDelegate none = e.destroy := by
  have hsubscribed : e.Subscribed :=
    Machine.invariant_of_step (fun _ _ _ h hstep => h.step hstep)
      (subscribed_create view style) hrun
  have hshell : e.destroy.IsShell e.destroy :=
    ⟨rfl, rfl, rfl, rfl, hsubscribed.setAutoUpdate_false.2,
      hsubscribed.setAutoUpdate_false.1⟩
  have hafter : e.destroy.IsShell e' :=
    Machine.invariant_of_meets (fun _ _ _ h hC hstep => h.step hC hstep) hshell
      (Machine.meets_of_forall_mem hpassive) hrun'
  exact hafter.1

/-- A destroyed entity is asked to update itself, then a frame of its old scene comes in. -/
theorem frozen_after_destroy_frame :
    let e := create rotationMatrices 0 .classicPreset
    (e.destroy.setAutoUpdate true).sceneUpdate rotationMatrices 0 lostFrame = e.destroy := by
  intro e
  have hrun : (machine rotationMatrices).run (create rotationMatrices 0 .classicPreset) [] =
      some e := rfl
  have hrun' : (machine rotationMatrices).run e
      [.destroy, .setAutoUpdate true, .sceneUpdate 0 lostFrame] =
        some ((e.destroy.setAutoUpdate true).sceneUpdate rotationMatrices 0 lostFrame) := rfl
  exact frozen_after_destroy hrun (by simp [Event.IsPassive]) hrun'

end Run

end FocusEntity

end EyeMaps
